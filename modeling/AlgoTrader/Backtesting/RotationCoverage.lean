import AlgoTrader.Backtesting.GateRefresh
import Mathlib.Data.List.Rotate

/-! Successive passes. Where a pass stops is where the next one of its lane starts, so exact passes
attempt every unit of a rotation once. -/

namespace AlgoTrader.Backtesting

section Pass

variable {b : BatchPass} {i f : ℕ}

lemma rotatedUniverse_length : b.rotatedUniverse.length = b.symbols.length := by
  unfold BatchPass.rotatedUniverse
  dsimp only
  split_ifs
  · rw [List.length_append, List.length_drop, List.length_take, List.length_map]
    omega
  · rw [List.length_map]

/-- The pass goes past `c` symbols; in the next one it stops `m` units behind its start. -/
structure BatchPass.MovesBy (b : BatchPass) (c resume : ℕ) : Prop where
  advance : b.run.advance = c
  resume_eq : b.run.resume = resume
  start_le : c = 0 → b.skipUnits ≤ resume
  resume_le : resume ≤ b.unitCount
  visited : ∀ i f, (i < c ∨ i = c ∧ f < resume) ↔
    i < b.run.symbolsCovered ∧ (b.stoppedIn i → f < b.run.resumeUnit)

lemma pass_moves (h : b.symbols ≠ []) : ∃ c resume, b.MovesBy c resume := by
  have hsome : b.rotatedUniverse ≠ [] := by
    rw [← List.length_pos_iff, rotatedUniverse_length]
    exact List.length_pos_iff.mpr h
  rcases run_pass_cases b with ⟨c, _, hswept, hzero, _⟩ | ⟨c, j, n, _, hstops, _⟩
  · have hpos : 0 < c := Nat.pos_of_ne_zero fun hc => hsome (hzero hc)
    refine ⟨c, 0, ?_, ?_, by omega, Nat.zero_le _, fun i f => ?_⟩
    · rw [PassState.advance, hswept.mid, hswept.covered, if_neg Bool.false_ne_true]
      omega
    · rw [PassState.resume, hswept.mid, if_neg Bool.false_ne_true]
    · have hmid : ¬ b.stoppedIn i := fun hstopped => absurd hstopped.1 (by simp [hswept.mid])
      simp [hmid, hswept.covered]
  · obtain ⟨m, hstop⟩ := hstops.spec
    refine ⟨c, b.run.resumeUnit, ?_, ?_, ?_, hstop.resume_le, fun i f => ?_⟩
    · rw [PassState.advance, hstop.mid, hstop.covered, if_pos rfl, Nat.add_sub_cancel]
    · rw [PassState.resume, hstop.mid, if_pos rfl]
    · rintro rfl
      rw [hstop.resume]
      exact Nat.le_add_right _ _
    · rw [hstop.covered]
      constructor
      · rintro (hlt | ⟨rfl, hlt⟩)
        · exact ⟨by omega, fun hstopped => absurd (hstop.covered.symm.trans hstopped.2) (by omega)⟩
        · exact ⟨Nat.lt_succ_self _, fun _ => hlt⟩
      · rintro ⟨hlt, hbefore⟩
        rcases Nat.lt_succ_iff_lt_or_eq.mp hlt with hlt | rfl
        · exact .inl hlt
        · exact .inr ⟨rfl, hbefore ⟨hstop.mid, hstop.covered⟩⟩

lemma startOf_le_iff : b.startOf i ≤ f ↔ 0 < i ∨ i = 0 ∧ b.skipUnits ≤ f := by
  rw [BatchPass.startOf]
  split_ifs with hi
  · simp [hi]
  · simp [Nat.pos_of_ne_zero hi]

end Pass

namespace GateRun

variable {g : GateRun} {lane : Lane} {m : ℕ}

lemma laneAt_pass : g.passAt m = g.settings.batch (g.laneAt m) (g.stateAt m) (g.worlds m) := rfl

lemma passAt_skipUnits (h : g.laneAt m = lane) : (g.passAt m).skipUnits = (g.stateAt m).unitOf lane := by
  rw [← h, laneAt_pass]
  simp [BatchPass.skipUnits, GateSettings.batch]

lemma unitOf_setPosition {st : RuntimeState} {other : Lane} {cursor unit : ℕ} :
    (st.setPosition lane cursor unit).unitOf other = if lane = other then unit else st.unitOf other := by
  cases lane <;> cases other <;> rfl

lemma cursorOf_setPosition {st : RuntimeState} {other : Lane} {cursor unit : ℕ} :
    (st.setPosition lane cursor unit).cursorOf other = if lane = other then cursor else st.cursorOf other := by
  cases lane <;> cases other <;> rfl

lemma refresh_position (h : 0 < g.size) : ∃ moved, moved = (g.stateAt m).setPosition (g.laneAt m)
      (((g.stateAt m).cursorOf (g.laneAt m) + (g.passAt m).run.advance) % g.size) (g.passAt m).run.resume ∧
    ∀ lane, (g.stateAt (m + 1)).unitOf lane = moved.unitOf lane ∧
      (g.stateAt (m + 1)).cursorOf lane = moved.cursorOf lane := by
  refine ⟨_, rfl, fun lane => ?_⟩
  have hsize : 0 < g.settings.symbols.length := h
  rw [GateRun.stateAt, GateSettings.refresh, if_pos hsize]
  split_ifs <;> cases lane <;> exact ⟨rfl, rfl⟩

lemma positionAt_succ (h : 0 < g.size) (hlane : g.laneAt m = lane) : g.positionAt lane (m + 1) =
    toLex (g.swept lane m + (g.passAt m).run.advance, (g.passAt m).run.resume) := by
  obtain ⟨moved, rfl, hmoved⟩ := refresh_position (m := m) h
  rw [positionAt, (hmoved lane).1, unitOf_setPosition, if_pos hlane, swept, if_pos hlane]

lemma positionAt_other (h : 0 < g.size) (hlane : g.laneAt m ≠ lane) :
    g.positionAt lane (m + 1) = g.positionAt lane m := by
  obtain ⟨moved, rfl, hmoved⟩ := refresh_position (m := m) h
  rw [positionAt, (hmoved lane).1, unitOf_setPosition, if_neg hlane, swept, if_neg hlane, Nat.add_zero, positionAt]

lemma cursorOf_mod (h : 0 < g.size) : (g.stateAt m).cursorOf lane % g.size = g.swept lane m % g.size := by
  induction m with
  | zero => rfl
  | succ m ih =>
    obtain ⟨moved, rfl, hmoved⟩ := refresh_position (m := m) h
    rw [(hmoved lane).2, cursorOf_setPosition, swept]
    split_ifs with hlane
    · rw [hlane, Nat.mod_mod, Nat.add_mod, ih, ← Nat.add_mod]
    · exact ih

lemma symbols_ne_nil (h : 0 < g.size) : (g.passAt m).symbols ≠ [] := List.length_pos_iff.mp h

lemma between_iff (h : 0 < g.size) (hlane : g.laneAt m = lane) {i f : ℕ} :
    (g.positionAt lane m ≤ toLex (g.swept lane m + i, f) ∧ toLex (g.swept lane m + i, f) < g.positionAt lane (m + 1)) ↔
      i < (g.passAt m).run.symbolsCovered ∧ (g.passAt m).startOf i ≤ f ∧
        ((g.passAt m).stoppedIn i → f < (g.passAt m).run.resumeUnit) := by
  obtain ⟨c, resume, hmoves⟩ := pass_moves (b := g.passAt m) (symbols_ne_nil h)
  have hvisited := hmoves.visited i f
  rw [positionAt_succ h hlane, hmoves.advance, hmoves.resume_eq, positionAt, Prod.Lex.toLex_le_toLex,
    Prod.Lex.toLex_lt_toLex, startOf_le_iff, passAt_skipUnits hlane]
  simp only
  constructor
  · rintro ⟨hstart, hend⟩
    have hbefore := hvisited.mp (by omega)
    exact ⟨hbefore.1, by omega, hbefore.2⟩
  · rintro ⟨hi, hstart, hstopped⟩
    have hbefore := hvisited.mpr ⟨hi, hstopped⟩
    exact ⟨by omega, by omega⟩

lemma positionAt_le_succ (h : 0 < g.size) : g.positionAt lane m ≤ g.positionAt lane (m + 1) := by
  by_cases hlane : g.laneAt m = lane
  · obtain ⟨c, resume, hmoves⟩ := pass_moves (b := g.passAt m) (symbols_ne_nil h)
    have hstart := hmoves.start_le
    rw [passAt_skipUnits hlane] at hstart
    rw [positionAt_succ h hlane, hmoves.advance, hmoves.resume_eq, positionAt, Prod.Lex.toLex_le_toLex]
    simp only
    omega
  · exact (positionAt_other h hlane).ge

lemma positionAt_mono (h : 0 < g.size) : Monotone (g.positionAt lane) :=
  monotone_nat_of_le_succ fun _ => positionAt_le_succ h

def Attempts (g : GateRun) (m x j k : ℕ) : Prop :=
  ∃ i, x = g.swept (g.laneAt m) m + i ∧ ⟨i, j, k⟩ ∈ (g.passAt m).run.attempted

def FetchFailed (g : GateRun) (m x j : ℕ) : Prop :=
  ∃ i, x = g.swept (g.laneAt m) m + i ∧ (i, j) ∈ (g.passAt m).run.failedFetches

-- A pass over the timeframes of a lane, for their numbering.
def plan (g : GateRun) (lane : Lane) : BatchPass := g.settings.batch lane g.start (g.worlds 0)

/-- Place `x` of a lane's rotations is symbol `x % size`. Between the first and the last position of
a lane, each unit is attempted by one pass, once, if its history could be fetched there. -/
structure RotationExact (g : GateRun) (lane : Lane) (M : ℕ) : Prop where
  symbol : ∀ m < M, g.laneAt m = lane → ∀ i < g.size,
    (g.passAt m).rotatedUniverse[i]? = (g.settings.symbols.map String.toUpper)[(g.swept lane m + i) % g.size]?
  once : ∀ x j k, k < (g.plan lane).specCount j →
    g.positionAt lane 0 ≤ toLex (x, (g.plan lane).flatAt j + k) →
    toLex (x, (g.plan lane).flatAt j + k) < g.positionAt lane M →
    ∃ m < M, g.laneAt m = lane ∧ (g.passAt m).run.attempted.Nodup ∧
      ∀ m' < M, g.laneAt m' = lane → (g.Attempts m' x j k ↔ m' = m ∧ ¬ g.FetchFailed m x j)

lemma plan_specCount (h : g.laneAt m = lane) : (g.passAt m).specCount = (g.plan lane).specCount := by
  rw [← h]
  rfl

lemma flatAt_congr {b b' : BatchPass} (h : b.specCount = b'.specCount) : b.flatAt = b'.flatAt := by
  funext j
  induction j with
  | zero => rfl
  | succ j ih => rw [BatchPass.flatAt, BatchPass.flatAt, ih, h]

lemma plan_flatAt (h : g.laneAt m = lane) : (g.passAt m).flatAt = (g.plan lane).flatAt :=
  flatAt_congr (plan_specCount h)

lemma exists_step {α : Type*} [LinearOrder α] (f : ℕ → α) {p : α} {n : ℕ} (hfirst : f 0 ≤ p) (hlast : p < f n) :
    ∃ m < n, f m ≤ p ∧ p < f (m + 1) := by
  induction n with
  | zero => exact absurd hfirst hlast.not_ge
  | succ n ih =>
    rcases lt_or_ge p (f n) with hbefore | hafter
    · obtain ⟨m, hm, hstep⟩ := ih hbefore
      exact ⟨m, Nat.lt_succ_of_lt hm, hstep⟩
    · exact ⟨n, Nat.lt_succ_self n, hafter, hlast⟩

lemma lane_of_between {p : ℕ ×ₗ ℕ} (h : 0 < g.size) (hstart : g.positionAt lane m ≤ p)
    (hend : p < g.positionAt lane (m + 1)) : g.laneAt m = lane := by
  by_contra hlane
  rw [positionAt_other h hlane] at hend
  exact absurd hstart hend.not_ge

lemma attempts_iff (h : 0 < g.size) (hexact : (g.passAt m).Exact) {x j k : ℕ} (hlane : g.laneAt m = lane)
    (hk : k < (g.plan lane).specCount j) : g.Attempts m x j k ↔
      (g.positionAt lane m ≤ toLex (x, (g.plan lane).flatAt j + k) ∧
        toLex (x, (g.plan lane).flatAt j + k) < g.positionAt lane (m + 1)) ∧ ¬ g.FetchFailed m x j := by
  have hcount : k < (g.passAt m).specCount j := plan_specCount hlane ▸ hk
  rw [← plan_flatAt hlane]
  constructor
  · rintro ⟨i, rfl, hmem⟩
    obtain ⟨hi, _, hfailed, hstart, hbefore⟩ := (hexact.units i j k).mp hmem
    rw [hlane]
    refine ⟨(between_iff h hlane).mpr ⟨hi, hstart, hbefore⟩, ?_⟩
    rintro ⟨i', hi', hmem'⟩
    rw [hlane] at hi'
    obtain rfl := Nat.add_left_cancel hi'
    exact hfailed hmem'
  · rintro ⟨⟨hstart, hend⟩, hfailed⟩
    obtain ⟨i, rfl⟩ : ∃ i, x = g.swept lane m + i := by
      rw [positionAt, Prod.Lex.toLex_le_toLex] at hstart
      exact Nat.exists_eq_add_of_le (by simp only at hstart; omega)
    obtain ⟨hi, hstart, hbefore⟩ := (between_iff h hlane).mp ⟨hstart, hend⟩
    refine ⟨i, by rw [hlane], (hexact.units i j k).mpr ⟨hi, hcount, fun hmem => ?_, hstart, hbefore⟩⟩
    exact hfailed ⟨i, by rw [hlane], hmem⟩

lemma rotatedUniverse_getElem? {b : BatchPass} {cursor i : ℕ} (hoffset : b.startOffset = cursor)
    (hi : i < b.symbols.length) :
    b.rotatedUniverse[i]? = (b.symbols.map String.toUpper)[(cursor + i) % b.symbols.length]? := by
  have hlength : (b.symbols.map String.toUpper).length = b.symbols.length := List.length_map _
  have hsome : b.symbols.map String.toUpper ≠ [] := by
    rw [← List.length_pos_iff, hlength]
    exact Nat.zero_lt_of_lt hi
  unfold BatchPass.rotatedUniverse
  dsimp only
  rw [hoffset, hlength]
  split_ifs with hrotates
  · have hoff : ((cursor : ℤ) % (b.symbols.length : ℤ)).toNat = cursor % b.symbols.length := by
      rw [← Int.natCast_emod, Int.toNat_natCast]
    have hle : cursor % b.symbols.length ≤ (b.symbols.map String.toUpper).length := by
      rw [hlength]
      exact (Nat.mod_lt _ (Nat.zero_lt_of_lt hi)).le
    rw [hoff, ← List.rotate_eq_drop_append_take hle, List.getElem?_rotate (hlength ▸ hi), hlength, Nat.add_mod_mod,
      Nat.add_comm]
  · have hzero : cursor = 0 := by
      by_contra hne
      exact hrotates ⟨by exact_mod_cast hne, hsome⟩
    rw [hzero, Nat.zero_add, Nat.mod_eq_of_lt hi]

theorem rotationExact_of_exact (h : 0 < g.size) {M : ℕ} (hexact : ∀ m < M, (g.passAt m).Exact) (lane : Lane) :
    g.RotationExact lane M := by
  constructor
  · intro m _ hlane i hi
    have hoffset : (g.passAt m).startOffset = (g.stateAt m).cursorOf lane := hlane ▸ rfl
    rw [rotatedUniverse_getElem? hoffset hi]
    change (g.settings.symbols.map String.toUpper)[((g.stateAt m).cursorOf lane + i) % g.size]? = _
    rw [Nat.add_mod, cursorOf_mod h, ← Nat.add_mod]
  · intro x j k hk hfirst hlast
    obtain ⟨m, hm, hstart, hend⟩ := exists_step (g.positionAt lane) hfirst hlast
    have hlane := lane_of_between h hstart hend
    refine ⟨m, hm, hlane, (hexact m hm).once, fun m' hm' hlane' => ?_⟩
    rw [attempts_iff h (hexact m' hm') hlane' hk]
    constructor
    · rintro ⟨⟨hstart', hend'⟩, hfetched⟩
      have hsame : m' = m := by
        rcases lt_trichotomy m' m with hlt | heq | hlt
        · exact absurd (hend'.trans_le ((positionAt_mono h hlt).trans hstart)) (lt_irrefl _)
        · exact heq
        · exact absurd (hend.trans_le ((positionAt_mono h hlt).trans hstart')) (lt_irrefl _)
      exact ⟨hsame, hsame ▸ hfetched⟩
    · rintro ⟨rfl, hfetched⟩
      exact ⟨⟨hstart, hend⟩, hfetched⟩

end GateRun

/-- A pass attempts what it should and stops where it says exactly when the counter misleads it in no
symbol, and passes it does not mislead attempt every unit of a rotation once. -/
theorem batch_resume_coverage (b : BatchPass) :
    (b.Exact ↔ ∀ i < b.progress.1, b.WellCounted i) ∧
    ∀ (g : GateRun) (M : ℕ), 0 < g.size →
      (∀ m < M, ∀ i < (g.passAt m).progress.1, (g.passAt m).WellCounted i) →
      ∀ lane, g.RotationExact lane M := by
  refine ⟨pass_exact_iff, fun g M hsize hcounted lane => ?_⟩
  exact g.rotationExact_of_exact hsize (fun m hm => pass_exact_iff.mpr (hcounted m hm)) lane

-- The history of the first timeframe cannot be fetched: a pass that resumes inside it
-- takes a weekly strategy for done, and one that stops behind it resumes in front of
-- what it ran.
def failingDaily : BatchPass where
  symbols := ["AAPL"]
  timeframes := ["1d", "1w"]
  strategySpecsFor timeframe := if timeframe = "1d" then ["ma_crossover", "breakout"] else ["trend", "pullback"]
  getHistory _ j := if j = 0 then { seconds := 1, error := some "no data" } else { seconds := 1 }
  runStrategy _ := { seconds := 1 }

theorem failed_fetch_misleads_counter :
    ¬ { failingDaily with startUnit := 1 }.Exact ∧ ¬ { failingDaily with deadlineSeconds := some 3 }.Exact := by
  constructor
  · intro hexact
    have hskipped : (⟨0, 1, 0⟩ : UnitAt) ∈ { failingDaily with startUnit := 1 }.run.attempted := by
      refine (hexact.units 0 1 0).mpr ⟨by decide +kernel, by decide +kernel, by decide +kernel, by decide +kernel, ?_⟩
      rintro ⟨hmid, _⟩
      exact absurd hmid (by decide +kernel)
    exact absurd hskipped (by decide +kernel)
  · intro hexact
    have hran : (⟨0, 1, 0⟩ : UnitAt) ∈ { failingDaily with deadlineSeconds := some 3 }.run.attempted := by
      decide +kernel
    have hbefore := ((hexact.units 0 1 0).mp hran).2.2.2.2 ⟨by decide +kernel, by decide +kernel⟩
    exact absurd hbefore (by decide +kernel)

lemma counterAt_of_fetched {b : BatchPass} {i skip : ℕ} (h : ∀ j, b.fetchFails i j = false) (j : ℕ) :
    b.counterAt i skip j = b.flatAt j := by
  induction j with
  | zero => rfl
  | succ j ih => rw [BatchPass.counterAt, BatchPass.flatAt, if_neg (by simp [h j]), ih]

lemma wellCounted_of_fetched {b : BatchPass} {i : ℕ} (h : ∀ j, b.fetchFails i j = false) : b.WellCounted i := by
  refine ⟨?_, fun _ _ _ a _ => counterAt_of_fetched h a.timeframe⟩
  rintro _ j k ⟨_, hstart, hpassed, _⟩
  rw [counterAt_of_fetched h j] at hpassed
  omega

def dailyPasses : GateRun where
  settings :=
    { symbols := ["AAPL", "MSFT"]
      backtestSchedulerTimeframes := ["1d"]
      strategySpecsFor := fun _ => ["ma_crossover", "breakout"]
      backtestSchedulerDeadlineSeconds := 2 }
  worlds m := { now := m, getHistory := fun _ _ => { seconds := 1 }, runStrategy := fun _ => { seconds := 1 } }

theorem batch_resume_coverage_dailyPasses : dailyPasses.positionAt .original 3 = toLex (1, 1) ∧
    dailyPasses.RotationExact .original 3 := by
  have hcoverage := (batch_resume_coverage (dailyPasses.passAt 0)).2 dailyPasses 3 (by decide)
  refine ⟨by decide +kernel, hcoverage (fun m _ i _ => ?_) .original⟩
  exact wellCounted_of_fetched fun _ => rfl

end AlgoTrader.Backtesting
