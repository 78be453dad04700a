import AlgoTrader.Backtesting.RotationCoverage

/-! When a daily cycle counts as full. The covered count is how far the daily lane has moved since
the last stored time, so a stored time means a whole universe was gone through since then. -/

namespace AlgoTrader.Backtesting

open Utils.Time

lemma attempted_or_failed {b : BatchPass} {i j k : ℕ} (h : ∀ j k, ¬ b.PassesOver 0 j k)
    (hi : i < b.run.symbolsCovered) (hk : k < b.specCount j) (hstart : b.startOf i ≤ b.flatAt j + k)
    (hbefore : b.stoppedIn i → b.flatAt j + k < b.run.resumeUnit) :
    ⟨i, j, k⟩ ∈ b.run.attempted ∨ (i, j) ∈ b.run.failedFetches := by
  by_cases hfailed : (i, j) ∈ b.run.failedFetches
  · exact .inr hfailed
  · have hnot : ¬ b.PassesOver i j k := by
      rintro ⟨hk', hstart', hpassed, hdue⟩
      rcases Nat.eq_zero_or_pos i with rfl | hpos
      · exact h j k ⟨hk', hstart', hpassed, hdue⟩
      · rw [BatchPass.startOf, if_neg hpos.ne'] at hpassed
        omega
    obtain ⟨hfails, hcounter⟩ := due_of_not_passedOver hnot hi hk hfailed hstart hbefore
    exact .inl (attempted_of_due hi hk hfails hcounter hbefore)

namespace GateRun

variable {g : GateRun} {m : ℕ}

def stampsAt (g : GateRun) (m : ℕ) : Bool := g.settings.completesCycle (g.stateAt m) (g.worlds m)

/-- The pass whose time the store holds before pass `m`, or the first one. -/
def lastStamp (g : GateRun) : ℕ → ℕ
  | 0 => 0
  | m + 1 => if g.stampsAt m then m else lastStamp g m

structure StoredBy (g : GateRun) (m : ℕ) : Prop where
  le : g.lastStamp m ≤ m
  stored : (g.stateAt m).dailyFullAt = none ∧ g.lastStamp m = 0 ∨
    (g.stateAt m).dailyFullAt = some (g.worlds (g.lastStamp m)).now ∧ g.stampsAt (g.lastStamp m) = true ∧
      g.lastStamp m < m

/-- Since the pass of the last stored time, each daily unit of each symbol was attempted, or its
fetch failed. -/
def CycleCovered (g : GateRun) (m : ℕ) : Prop :=
  ∀ s < g.size, ∀ j k, k < (g.plan .daily).specCount j →
    ∃ m' x, g.lastStamp m ≤ m' ∧ m' ≤ m ∧ g.laneAt m' = .daily ∧
      x % g.size = s ∧ (g.Attempts m' x j k ∨ g.FetchFailed m' x j)

lemma laneAt_daily : g.laneAt m = .daily ↔ g.settings.kind (g.stateAt m) (g.worlds m).now = .daily := by
  rw [laneAt]
  cases g.settings.kind (g.stateAt m) (g.worlds m).now <;> simp [PassKind.lane]

lemma stampsAt_iff : g.stampsAt m = true ↔ g.laneAt m = .daily ∧ 0 < g.size ∧
    g.size ≤ (g.stateAt m).dailyCovered + (g.passAt m).run.advance := by
  rw [laneAt_daily]
  exact decide_eq_true_iff

lemma daily_step (h : 0 < g.size) :
    (g.stampsAt m = true ∧ (g.stateAt (m + 1)).dailyCovered = 0 ∧
      (g.stateAt (m + 1)).dailyFullAt = some (g.worlds m).now) ∨
    (g.stampsAt m = false ∧ (g.stateAt (m + 1)).dailyFullAt = (g.stateAt m).dailyFullAt ∧
      (g.stateAt (m + 1)).dailyCovered = (g.stateAt m).dailyCovered +
        if g.laneAt m = .daily then (g.passAt m).run.advance else 0) := by
  have hsize : 0 < g.settings.symbols.length := h
  have hfields (lane : Lane) (cursor unit : ℕ) :
      ((g.stateAt m).setPosition lane cursor unit).dailyFullAt = (g.stateAt m).dailyFullAt ∧
        ((g.stateAt m).setPosition lane cursor unit).dailyCovered = (g.stateAt m).dailyCovered := by
    cases lane <;> exact ⟨rfl, rfl⟩
  rw [stateAt, GateSettings.refresh, if_pos hsize]
  by_cases hdaily : g.settings.kind (g.stateAt m) (g.worlds m).now = .daily
  · have hlane := laneAt_daily.mpr hdaily
    rw [if_pos hdaily, if_pos hlane]
    cases hstamp : g.stampsAt m with
    | true =>
      have hcompletes : g.settings.completesCycle (g.stateAt m) (g.worlds m) = true := hstamp
      rw [if_pos hcompletes]
      exact .inl ⟨rfl, rfl, rfl⟩
    | false =>
      have hcompletes : ¬ g.settings.completesCycle (g.stateAt m) (g.worlds m) = true := by
        rw [show g.settings.completesCycle (g.stateAt m) (g.worlds m) = false from hstamp]
        decide
      rw [if_neg hcompletes]
      exact .inr ⟨rfl, (hfields _ _ _).1, rfl⟩
  · have hlane : ¬ g.laneAt m = .daily := fun hlane => hdaily (laneAt_daily.mp hlane)
    have hstamp : g.stampsAt m = false := by
      by_contra hstamp
      exact hlane (stampsAt_iff.mp (by simpa using hstamp)).1
    rw [if_neg hdaily, if_neg hlane]
    exact .inr ⟨hstamp, (hfields _ _ _).1, (hfields _ _ _).2⟩

/-- The covered count is how far the daily lane is past `base`, where its cycle began; the pass of
the last stored time started before it. -/
structure Counted (g : GateRun) (m base : ℕ) : Prop where
  stored : g.StoredBy m
  covered_lt : (g.stateAt m).dailyCovered < g.size
  covered : base + (g.stateAt m).dailyCovered = g.swept .daily m
  started : g.positionAt .daily (g.lastStamp m) ≤ toLex (base, 0)

lemma counted_start (h : 0 < g.size) (hstart : g.start = {}) : g.Counted 0 0 := by
  have hstate : g.stateAt 0 = {} := hstart
  have hswept : g.swept .daily 0 = 0 := by
    rw [swept, hstart]
    rfl
  refine ⟨⟨le_rfl, .inl ⟨?_, rfl⟩⟩, ?_, ?_, ?_⟩
  · rw [hstate]
  · rw [hstate]
    exact h
  · rw [hstate, hswept]
    rfl
  · rw [lastStamp, positionAt, hstate, hswept]
    exact le_rfl

lemma counted_succ {base : ℕ} (h : 0 < g.size) (hcounted : g.Counted m base) : ∃ base, g.Counted (m + 1) base := by
  rcases daily_step (m := m) h with ⟨hstamp, hcovered, htime⟩ | ⟨hstamp, htime, hcovered⟩
  · obtain ⟨hlane, _, hfull⟩ := stampsAt_iff.mp hstamp
    have hlast : g.lastStamp (m + 1) = m := by rw [lastStamp, if_pos hstamp]
    have hadvance : 0 < (g.passAt m).run.advance := by
      have := hcounted.covered_lt
      omega
    refine ⟨g.swept .daily (m + 1), ⟨?_, .inr ⟨?_, ?_, ?_⟩⟩, ?_, ?_, ?_⟩
    · rw [hlast]
      exact Nat.le_succ m
    · rw [hlast, htime]
    · rw [hlast, hstamp]
    · rw [hlast]
      exact Nat.lt_succ_self m
    · rw [hcovered]
      exact h
    · rw [hcovered, Nat.add_zero]
    · rw [hlast, positionAt, swept, if_pos hlane, Prod.Lex.toLex_le_toLex]
      exact .inl (Nat.lt_add_of_pos_right hadvance)
  · have hlast : g.lastStamp (m + 1) = g.lastStamp m := by rw [lastStamp, hstamp, if_neg Bool.false_ne_true]
    refine ⟨base, ⟨?_, ?_⟩, ?_, ?_, ?_⟩
    · rw [hlast]
      exact hcounted.stored.le.trans (Nat.le_succ m)
    · rw [hlast, htime]
      rcases hcounted.stored.stored with hnone | ⟨hstored, hstamped, hlt⟩
      · exact .inl hnone
      · exact .inr ⟨hstored, hstamped, Nat.lt_succ_of_lt hlt⟩
    · rw [hcovered]
      split_ifs with hlane
      · by_contra hfull
        have hstamped := stampsAt_iff.mpr ⟨hlane, h, not_lt.mp hfull⟩
        rw [hstamp] at hstamped
        cases hstamped
      · exact hcounted.covered_lt
    · rw [hcovered, swept, ← hcounted.covered, Nat.add_assoc]
    · rw [hlast]
      exact hcounted.started

theorem counted_stateAt (h : 0 < g.size) (hstart : g.start = {}) (m : ℕ) : ∃ base, g.Counted m base := by
  induction m with
  | zero => exact ⟨0, counted_start h hstart⟩
  | succ m ih =>
    obtain ⟨base, hcounted⟩ := ih
    exact counted_succ h hcounted

lemma exists_place {n s : ℕ} (base : ℕ) (hs : s < n) : ∃ x, base ≤ x ∧ x < base + n ∧ x % n = s := by
  have hbase := Nat.div_add_mod base n
  have hmod := Nat.mod_lt base (Nat.zero_lt_of_lt hs)
  by_cases hle : base % n ≤ s
  · exact ⟨n * (base / n) + s, by omega, by omega, by rw [Nat.mul_add_mod, Nat.mod_eq_of_lt hs]⟩
  · refine ⟨n * (base / n + 1) + s, ?_, ?_, by rw [Nat.mul_add_mod, Nat.mod_eq_of_lt hs]⟩
    · rw [Nat.mul_add, Nat.mul_one]
      omega
    · rw [Nat.mul_add, Nat.mul_one]
      omega

lemma cycleCovered_of_stamp (h : 0 < g.size) (hstart : g.start = {})
    (hover : ∀ m' ≤ m, g.laneAt m' = .daily → ∀ j k, ¬ (g.passAt m').PassesOver 0 j k)
    (hstamp : g.stampsAt m = true) : g.CycleCovered m := by
  obtain ⟨base, hcounted⟩ := counted_stateAt h hstart m
  obtain ⟨hlane, _, hfull⟩ := stampsAt_iff.mp hstamp
  intro s hs j k hk
  obtain ⟨x, hfrom, hto, hmod⟩ := exists_place base hs
  have hfirst : g.positionAt .daily (g.lastStamp m + 0) ≤ toLex (x, (g.plan .daily).flatAt j + k) := by
    refine hcounted.started.trans ?_
    rw [Prod.Lex.toLex_le_toLex]
    simp only
    omega
  have hlast : toLex (x, (g.plan .daily).flatAt j + k) <
      g.positionAt .daily (g.lastStamp m + (m + 1 - g.lastStamp m)) := by
    rw [Nat.add_sub_cancel' (hcounted.stored.le.trans (Nat.le_succ m)), positionAt, swept, if_pos hlane,
      Prod.Lex.toLex_lt_toLex]
    refine .inl ?_
    simp only
    have := hcounted.covered
    omega
  obtain ⟨n, hn, hbegin, hend⟩ := exists_step (fun n => g.positionAt .daily (g.lastStamp m + n)) hfirst hlast
  have hlane' := lane_of_between h hbegin hend
  obtain ⟨i, rfl⟩ : ∃ i, x = g.swept .daily (g.lastStamp m + n) + i := by
    rw [positionAt, Prod.Lex.toLex_le_toLex] at hbegin
    exact Nat.exists_eq_add_of_le (by simp only at hbegin; omega)
  obtain ⟨hi, hdue, hbefore⟩ := (between_iff h hlane').mp ⟨hbegin, hend⟩
  rw [← plan_flatAt hlane'] at hdue hbefore
  rw [← plan_specCount hlane'] at hk
  refine ⟨g.lastStamp m + n, _, by omega, by omega, hlane', hmod, ?_⟩
  rcases attempted_or_failed (hover _ (by omega) hlane') hi hk hdue hbefore with hran | hfailed
  · exact .inl ⟨i, by rw [hlane'], hran⟩
  · exact .inr ⟨i, by rw [hlane'], hfailed⟩

end GateRun

/-- From an empty store, when no daily pass takes a strategy for done that is not, a full-cycle time
is stored only after every daily strategy of every symbol was reached since the last one. -/
theorem daily_cycle_covered {g : GateRun} (hstart : g.start = {}) {m : ℕ} (hstamp : g.stampsAt m = true)
    (hover : ∀ m' ≤ m, g.laneAt m' = .daily → ∀ j k, ¬ (g.passAt m').PassesOver 0 j k) :
    g.StoredBy m ∧ g.CycleCovered m := by
  have hsize := (GateRun.stampsAt_iff.mp hstamp).2.1
  obtain ⟨_, hcounted⟩ := GateRun.counted_stateAt hsize hstart m
  exact ⟨hcounted.stored, GateRun.cycleCovered_of_stamp hsize hstart hover hstamp⟩

-- The first pass stops behind the first of two daily strategies. In the second pass the
-- daily history cannot be fetched, and the one weekly strategy is taken for the one
-- done.
def skippedWeekly : GateRun where
  settings :=
    { symbols := ["AAPL"]
      backtestSchedulerTimeframes := ["1d", "1w", "5m"]
      strategySpecsFor := fun timeframe => if timeframe = "1d" then ["ma_crossover", "breakout"] else ["trend"]
      backtestSchedulerDeadlineSeconds := 100 }
  worlds m :=
    { now := m
      getHistory := fun _ j => if m = 1 ∧ j = 0 then { seconds := 1, error := some "no data" } else { seconds := 1 }
      runStrategy := fun _ => { seconds := 100 } }

theorem passed_over_strategy_counts_as_covered : skippedWeekly.start = {} ∧ skippedWeekly.stampsAt 1 = true ∧
    (skippedWeekly.stateAt 2).dailyFullAt = some 1 ∧ ¬ skippedWeekly.CycleCovered 1 := by
  refine ⟨rfl, by decide +kernel, by decide +kernel, fun hcovered => ?_⟩
  have hattempted : ∀ m ≤ 1, ∀ a ∈ (skippedWeekly.passAt m).run.attempted, a.timeframe ≠ 1 := by decide +kernel
  have hfailed : ∀ m ≤ 1, ∀ a ∈ (skippedWeekly.passAt m).run.failedFetches, a.2 ≠ 1 := by decide +kernel
  obtain ⟨m, x, _, hm, _, _, hran | hmissed⟩ := hcovered 0 (by decide) 1 0 (by decide +kernel)
  · obtain ⟨i, _, hran⟩ := hran
    exact hattempted m hm _ hran rfl
  · obtain ⟨i, _, hmissed⟩ := hmissed
    exact hfailed m hm _ hmissed rfl

def bothKindsPasses : GateRun where
  settings :=
    { symbols := ["AAPL", "MSFT"]
      backtestSchedulerTimeframes := ["1d", "1w", "5m"]
      strategySpecsFor := fun _ => ["ma_crossover", "breakout"]
      backtestSchedulerDeadlineSeconds := 4 }
  worlds m := { now := m, getHistory := fun _ _ => { seconds := 1 }, runStrategy := fun _ => { seconds := 1 } }

theorem daily_cycle_covered_bothKindsPasses : bothKindsPasses.stampsAt 3 = true ∧ bothKindsPasses.CycleCovered 3 := by
  have hstamp : bothKindsPasses.stampsAt 3 = true := by decide +kernel
  refine ⟨hstamp, (daily_cycle_covered (g := bothKindsPasses) rfl hstamp fun m _ _ j k => ?_).2⟩
  rintro ⟨_, hstart, hpassed, _⟩
  rw [counterAt_of_fetched fun _ => rfl] at hpassed
  omega

end AlgoTrader.Backtesting
