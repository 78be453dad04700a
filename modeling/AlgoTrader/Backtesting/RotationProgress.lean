import AlgoTrader.Backtesting.RotationCoverage

/-! Whether a pass moves. It stays where it started when its own fetches use up the deadline before
the first strategy; a lane whose passes all move gets through the universe. -/

namespace AlgoTrader.Backtesting

namespace BatchPass

variable (b : BatchPass)

/-- On the way to the first due strategy of the first symbol, only fetches take time. -/
def outOfTimeFrom : List String → ℕ → ℕ → ℚ → Bool
  | [], _, _, _ => false
  | timeframe :: timeframes, j, unit, elapsed =>
    let specs := b.strategySpecsFor timeframe
    let fetched := elapsed + (b.getHistory 0 j).seconds
    if unit + specs.length ≤ b.skipUnits then outOfTimeFrom timeframes (j + 1) (unit + specs.length) elapsed
    else if isMinuteBar timeframe ∧ b.late { elapsed := elapsed } then true
    else if b.fetchFails 0 j ∨ specs = [] then outOfTimeFrom timeframes (j + 1) unit fetched
    else b.late { elapsed := fetched }

def outOfTime : Bool := b.rotatedUniverse ≠ [] ∧ b.outOfTimeFrom b.scanTimeframes 0 0 0

end BatchPass

section Pass

variable {b : BatchPass} {symbol timeframe : String} {i j k skip counter unit : ℕ} {specs timeframes : List String}
  {s t : PassState}

lemma runSpecs_attempted : s.attempted <+: (b.runSpecs symbol timeframe i j skip specs k unit s).2.attempted := by
  induction specs generalizing k unit s with
  | nil => exact List.prefix_rfl
  | cons spec specs ih =>
    rw [BatchPass.runSpecs]
    dsimp only
    split_ifs
    · exact ih
    · exact List.prefix_rfl
    · refine List.IsPrefix.trans ?_ ih
      exact List.prefix_append _ _

lemma runTimeframes_attempted (b : BatchPass) (symbol : String) (i skip : ℕ) (timeframes : List String) (j unit : ℕ)
    (s : PassState) : s.attempted <+: (b.runTimeframes symbol i skip timeframes j unit s).attempted := by
  induction timeframes generalizing j unit s with
  | nil => exact List.prefix_rfl
  | cons timeframe timeframes ih =>
    rw [BatchPass.runTimeframes]
    dsimp only
    by_cases hskip : unit + (b.strategySpecsFor timeframe).length ≤ skip
    · rw [if_pos hskip]
      exact ih (j + 1) _ s
    rw [if_neg hskip]
    by_cases hminute : isMinuteBar timeframe = true ∧ b.late s = true
    · rw [if_pos hminute]
      exact List.prefix_rfl
    rw [if_neg hminute]
    cases (b.getHistory i j).error with
    | some message => exact ih (j + 1) unit ((s.spend _).fetchFailed i j _)
    | none =>
      dsimp only
      split_ifs
      · exact runSpecs_attempted (s := s.spend _)
      · exact (runSpecs_attempted (s := s.spend _)).trans (ih (j + 1) _ _)

lemma runSpecs_first (b : BatchPass) (symbol timeframe : String) (i j k : ℕ) (s : PassState)
    (hdue : skip < unit + specs.length) (hspecs : specs ≠ []) :
    let result := (b.runSpecs symbol timeframe i j skip specs k unit s).2
    (b.late s = true → result.truncated = true ∧ result.attempted = s.attempted) ∧
      (b.late s = false → s.attempted.length < result.attempted.length) := by
  induction specs generalizing k unit with
  | nil => exact absurd rfl hspecs
  | cons spec specs ih =>
    rw [List.length_cons] at hdue
    rw [BatchPass.runSpecs]
    dsimp only
    by_cases hdone : unit + 1 ≤ skip
    · rw [if_pos hdone]
      refine ih (k + 1) (by omega) ?_
      rintro rfl
      simp at hdue
      omega
    rw [if_neg hdone]
    constructor
    · intro hlate
      rw [if_pos hlate]
      exact ⟨rfl, rfl⟩
    · intro hlate
      rw [hlate, if_neg Bool.false_ne_true]
      refine lt_of_lt_of_le ?_ runSpecs_attempted.length_le
      simp [PassState.attempt, PassState.spend]

lemma outOfTimeFrom_iff (b : BatchPass) (symbol : String) (timeframes : List String) (j unit : ℕ) (s : PassState)
    (hrunning : s.truncated = false) :
    b.outOfTimeFrom timeframes j unit s.elapsed = true ↔
      (b.runTimeframes symbol 0 b.skipUnits timeframes j unit s).truncated = true ∧
        (b.runTimeframes symbol 0 b.skipUnits timeframes j unit s).attempted = s.attempted := by
  induction timeframes generalizing j unit s with
  | nil => simp [BatchPass.outOfTimeFrom, BatchPass.runTimeframes, hrunning]
  | cons timeframe timeframes ih =>
    rw [BatchPass.outOfTimeFrom, BatchPass.runTimeframes]
    dsimp only
    by_cases hskip : unit + (b.strategySpecsFor timeframe).length ≤ b.skipUnits
    · rw [if_pos hskip, if_pos hskip]
      exact ih _ _ s hrunning
    rw [if_neg hskip, if_neg hskip]
    by_cases hminute : isMinuteBar timeframe = true ∧ b.late s = true
    · have hminute' : isMinuteBar timeframe = true ∧ b.late { elapsed := s.elapsed } = true := hminute
      rw [if_pos hminute, if_pos hminute']
      simp [PassState.stopAt, PassState.exceedDeadline]
    have hearly : ¬ (isMinuteBar timeframe = true ∧ b.late { elapsed := s.elapsed } = true) := hminute
    rw [if_neg hminute, if_neg hearly]
    cases hfetch : (b.getHistory 0 j).error with
    | some message =>
      have hfails : b.fetchFails 0 j = true := by simp [BatchPass.fetchFails, hfetch]
      rw [if_pos (.inl hfails)]
      exact ih _ _ ((s.spend _).fetchFailed 0 j _) hrunning
    | none =>
      have hfails : ¬ b.fetchFails 0 j = true := by simp [BatchPass.fetchFails, hfetch]
      dsimp only
      by_cases hspecs : b.strategySpecsFor timeframe = []
      · rw [if_pos (.inr hspecs), hspecs, BatchPass.runSpecs]
        dsimp only
        rw [if_neg (show ¬ (s.spend (b.getHistory 0 j)).truncated = true by simp [PassState.spend, hrunning])]
        exact ih _ _ (s.spend (b.getHistory 0 j)) hrunning
      · have hnone : ¬ (b.fetchFails 0 j = true ∨ b.strategySpecsFor timeframe = []) := not_or.mpr ⟨hfails, hspecs⟩
        rw [if_neg hnone]
        obtain ⟨hstops, hruns⟩ :=
          runSpecs_first b symbol timeframe 0 j 0 (s.spend (b.getHistory 0 j)) (not_le.mp hskip) hspecs
        have hlate : b.late { elapsed := s.elapsed + (b.getHistory 0 j).seconds } = b.late (s.spend (b.getHistory 0 j)) :=
          rfl
        rw [hlate]
        cases hcheck : b.late (s.spend (b.getHistory 0 j)) with
        | true =>
          obtain ⟨htruncated, hattempted⟩ := hstops hcheck
          rw [if_pos htruncated]
          exact iff_of_true rfl ⟨htruncated, hattempted⟩
        | false =>
          have hgrows := hruns hcheck
          refine iff_of_false Bool.false_ne_true ?_
          rintro ⟨_, hattempted⟩
          split_ifs at hattempted with htruncated
          · rw [hattempted] at hgrows
            exact lt_irrefl _ hgrows
          · have hlater := (runTimeframes_attempted b symbol 0 b.skipUnits timeframes (j + 1) _ _).length_le.trans_eq
              (congrArg List.length hattempted)
            exact absurd (hgrows.trans_le hlater) (lt_irrefl _)

lemma outOfTime_iff (h : b.symbols ≠ []) : b.outOfTime = true ↔ b.stoppedIn 0 ∧ b.run.attempted = [] := by
  obtain ⟨symbol, rest, hsymbols⟩ : ∃ symbol rest, b.rotatedUniverse = symbol :: rest := by
    apply List.exists_cons_of_ne_nil
    rw [← List.length_pos_iff, rotatedUniverse_length]
    exact List.length_pos_iff.mpr h
  have htime : b.outOfTime = b.outOfTimeFrom b.scanTimeframes 0 0 0 := by simp [BatchPass.outOfTime, hsymbols]
  have hwalk := outOfTimeFrom_iff b symbol b.scanTimeframes 0 0 ({} : PassState).coverSymbol rfl
  generalize hu : b.runTimeframes symbol 0 b.skipUnits b.scanTimeframes 0 0 ({} : PassState).coverSymbol = u at hwalk
  have hrun : b.run = if u.truncated = true then u else b.runSymbols rest 1 (b.startOf 1) u := by
    rw [BatchPass.run, hsymbols, BatchPass.runSymbols, not_late_start, if_neg Bool.false_ne_true]
    dsimp only
    rw [hu]
    rfl
  have hstart : b.Reached 0 (b.startOf 0) ({} : PassState).coverSymbol ({} : PassState).coverSymbol 0 :=
    ⟨⟨rfl, rfl, rfl, rfl⟩, by simp [BatchPass.due], by simp [BatchPass.failed]⟩
  rw [htime]
  refine hwalk.trans ?_
  rcases runTimeframes_cases List.drop_zero (Nat.zero_le _) rfl hstart hu with ⟨hvisit, _⟩ | ⟨j, n, hstop, _⟩
  · have hgoes : u.truncated = false := hvisit.kept.truncated
    have hlater := runSymbols_cases rest (swept_start.next hvisit) hgoes
    rw [hgoes, if_neg Bool.false_ne_true] at hrun
    dsimp only at hlater
    rw [← hrun] at hlater
    have hthrough : ¬ b.stoppedIn 0 := by
      rintro ⟨hmid, hcovered⟩
      rcases hlater with ⟨c, _, _, hswept, _⟩ | ⟨c, j, n, hge, _, hstops, _⟩
      · exact absurd hmid (by simp [hswept.mid])
      · obtain ⟨m, hstop⟩ := hstops.spec
        have := hstop.covered.symm.trans hcovered
        omega
    exact iff_of_false (by simp [hgoes]) (fun hstopped => hthrough hstopped.1)
  · rw [if_pos hstop.stop.truncated] at hrun
    have hstopped : b.stoppedIn 0 := by
      rw [BatchPass.stoppedIn, hrun]
      exact ⟨hstop.stop.mid, hstop.stop.covered⟩
    rw [hrun]
    exact ⟨fun hstuck => ⟨hstopped, hstuck.2⟩, fun hstuck => ⟨hstop.stop.truncated, hstuck.2⟩⟩

lemma stuck_iff :
    b.run.advance = 0 ∧ b.run.resume = b.skipUnits ↔ b.stoppedIn 0 ∧ b.run.attempted = [] := by
  constructor
  · rintro ⟨hadvance, hresume⟩
    have hmid : b.run.stoppedMidSymbol = true := by
      by_contra hmid
      rw [PassState.advance, if_neg hmid] at hadvance
      omega
    rw [PassState.advance, if_pos hmid] at hadvance
    rw [PassState.resume, if_pos hmid] at hresume
    rcases run_pass_cases b with ⟨c, _, hswept, _⟩ | ⟨c, j, n, _, hstops, _⟩
    · exact absurd hmid (by simp [hswept.mid])
    · obtain ⟨m, hstop⟩ := hstops.spec
      obtain rfl : c = 0 := by
        have := hstop.covered
        omega
      have hzero : b.startOf 0 = b.skipUnits := rfl
      obtain rfl : m = 0 := by
        have := hstop.resume
        omega
      exact ⟨⟨hmid, hstop.covered⟩, by simp [hstop.attempted]⟩
  · rintro ⟨hstopped, hnone⟩
    obtain ⟨_, m, hstop⟩ := run_stoppedIn hstopped
    obtain rfl : m = 0 := by
      rw [hstop.attempted, List.range_zero, List.flatMap_nil, List.nil_append, List.take_eq_nil_iff] at hnone
      rcases hnone with hzero | hnil
      · exact hzero
      · have := hstop.due
        rw [hnil, List.length_nil] at this
        omega
    rw [PassState.advance, if_pos hstop.mid, hstop.covered, PassState.resume, if_pos hstop.mid, hstop.resume]
    exact ⟨rfl, rfl⟩

end Pass

namespace GateRun

variable {g : GateRun} {lane : Lane} {m : ℕ}

lemma position_lt_iff (h : 0 < g.size) (hlane : g.laneAt m = lane) :
    g.positionAt lane m < g.positionAt lane (m + 1) ↔ (g.passAt m).outOfTime = false := by
  obtain ⟨c, resume, hmoves⟩ := pass_moves (b := g.passAt m) (symbols_ne_nil h)
  have hstuck := (outOfTime_iff (symbols_ne_nil (m := m) h)).trans stuck_iff.symm
  have hstart := hmoves.start_le
  rw [hmoves.advance, hmoves.resume_eq] at hstuck
  rw [positionAt_succ h hlane, hmoves.advance, hmoves.resume_eq, positionAt, Prod.Lex.toLex_lt_toLex,
    ← passAt_skipUnits hlane, ← Bool.not_eq_true, hstuck]
  simp only
  omega

def lanePasses (g : GateRun) (lane : Lane) : ℕ → ℕ
  | 0 => 0
  | m + 1 => lanePasses g lane m + if g.laneAt m = lane then 1 else 0

-- A unit read from the store may lie behind the last one.
def potential (g : GateRun) (lane : Lane) (m : ℕ) : ℕ :=
  g.swept lane m * ((g.plan lane).unitCount + 1) + min ((g.stateAt m).unitOf lane) (g.plan lane).unitCount

lemma plan_unitCount (hlane : g.laneAt m = lane) : (g.passAt m).unitCount = (g.plan lane).unitCount := by
  rw [BatchPass.unitCount, plan_flatAt hlane, ← hlane]
  rfl

lemma potential_lt (h : 0 < g.size) (hlane : g.laneAt m = lane) (htime : (g.passAt m).outOfTime = false) :
    g.potential lane m < g.potential lane (m + 1) := by
  have hlt := (position_lt_iff h hlane).mpr htime
  obtain ⟨c, resume, hmoves⟩ := pass_moves (b := g.passAt m) (symbols_ne_nil h)
  obtain ⟨moved, rfl, hmoved⟩ := refresh_position (m := m) h
  have hunit : (g.stateAt (m + 1)).unitOf lane = resume := by
    rw [(hmoved lane).1, unitOf_setPosition, if_pos hlane, hmoves.resume_eq]
  have hswept : g.swept lane (m + 1) = g.swept lane m + c := by rw [swept, if_pos hlane, hmoves.advance]
  have hresume := hmoves.resume_le
  rw [plan_unitCount hlane] at hresume
  rw [positionAt, positionAt, Prod.Lex.toLex_lt_toLex, hunit, hswept] at hlt
  unfold potential
  rw [hunit, hswept, min_eq_left hresume, Nat.add_mul]
  rcases hlt with hlt | ⟨heq, hlt⟩
  · have hpos : (g.plan lane).unitCount + 1 ≤ c * ((g.plan lane).unitCount + 1) :=
      Nat.le_mul_of_pos_left _ (by simpa using hlt)
    omega
  · simp only at hlt
    omega

lemma potential_other (h : 0 < g.size) (hlane : g.laneAt m ≠ lane) :
    g.potential lane (m + 1) = g.potential lane m := by
  obtain ⟨moved, rfl, hmoved⟩ := refresh_position (m := m) h
  unfold potential
  rw [(hmoved lane).1, unitOf_setPosition, if_neg hlane, swept, if_neg hlane, Nat.add_zero]

lemma potential_passes (h : 0 < g.size) {M : ℕ}
    (htime : ∀ m < M, g.laneAt m = lane → (g.passAt m).outOfTime = false) :
    g.potential lane 0 + g.lanePasses lane M ≤ g.potential lane M := by
  induction M with
  | zero => exact le_rfl
  | succ M ih =>
    have hbefore := ih fun m hm => htime m (Nat.lt_succ_of_lt hm)
    rw [lanePasses]
    split_ifs with hlane
    · have hlt := potential_lt h hlane (htime M (Nat.lt_succ_self M) hlane)
      omega
    · rw [potential_other h hlane]
      omega

lemma swept_of_passes (h : 0 < g.size) {M : ℕ}
    (htime : ∀ m < M, g.laneAt m = lane → (g.passAt m).outOfTime = false)
    (hpasses : g.size * ((g.plan lane).unitCount + 1) ≤ g.lanePasses lane M) :
    g.swept lane 0 + g.size ≤ g.swept lane M := by
  have hpotential := potential_passes h htime
  unfold potential at hpotential
  have hlt : (g.swept lane 0 + g.size) * ((g.plan lane).unitCount + 1) <
      (g.swept lane M + 1) * ((g.plan lane).unitCount + 1) := by
    rw [Nat.add_mul, Nat.add_mul, Nat.one_mul]
    omega
  exact Nat.lt_succ_iff.mp (Nat.lt_of_mul_lt_mul_right hlt)

end GateRun

theorem gate_refresh_progress {g : GateRun} (h : 0 < g.size) :
    (∀ m, g.positionAt (g.laneAt m) m < g.positionAt (g.laneAt m) (m + 1) ↔ (g.passAt m).outOfTime = false) ∧
    ∀ lane M, (∀ m < M, g.laneAt m = lane → (g.passAt m).outOfTime = false) →
      g.size * ((g.plan lane).unitCount + 1) ≤ g.lanePasses lane M →
      g.swept lane 0 + g.size ≤ g.swept lane M :=
  ⟨fun _ => GateRun.position_lt_iff h rfl, fun _ _ htime hpasses => GateRun.swept_of_passes h htime hpasses⟩

-- The minute bars of a symbol are fetched anew in every pass. When the fetch alone
-- takes longer than the deadline, all passes end where the first one began.
def slowMinuteFetch : GateRun where
  settings :=
    { symbols := ["AAPL", "MSFT"]
      backtestSchedulerTimeframes := ["5m"]
      strategySpecsFor := fun _ => ["opening_range", "vwap_reversion"]
      backtestSchedulerDeadlineSeconds := 180 }
  worlds _ := { now := 0, getHistory := fun _ _ => { seconds := 200 }, runStrategy := fun _ => { seconds := 1 } }

theorem slow_fetch_never_moves : 0 < slowMinuteFetch.size ∧ ∀ m, slowMinuteFetch.stateAt m = {} ∧
    ¬ slowMinuteFetch.positionAt .original m < slowMinuteFetch.positionAt .original (m + 1) := by
  have hsize : 0 < slowMinuteFetch.size := by decide
  have hstay : slowMinuteFetch.settings.refresh {} (slowMinuteFetch.worlds 0) = {} := by decide +kernel
  have hstate : ∀ m, slowMinuteFetch.stateAt m = {} := by
    intro m
    induction m with
    | zero => rfl
    | succ m ih =>
      rw [GateRun.stateAt, ih]
      exact hstay
  have htime : (slowMinuteFetch.settings.pass {} (slowMinuteFetch.worlds 0)).outOfTime = true := by decide +kernel
  have hkind : (slowMinuteFetch.settings.kind {} 0).lane = .original := by decide +kernel
  refine ⟨hsize, fun m => ⟨hstate m, ?_⟩⟩
  have hlane : slowMinuteFetch.laneAt m = .original := by
    rw [GateRun.laneAt, hstate m]
    exact hkind
  have hpass : slowMinuteFetch.passAt m = slowMinuteFetch.settings.pass {} (slowMinuteFetch.worlds 0) := by
    rw [GateRun.passAt, hstate m]
    rfl
  rw [GateRun.position_lt_iff hsize hlane, hpass, htime]
  decide

theorem gate_refresh_progress_dailyPasses : dailyPasses.swept .original 0 + 2 ≤ dailyPasses.swept .original 6 := by
  have htime : ∀ m < 6, (dailyPasses.passAt m).outOfTime = false := by decide +kernel
  have hprogress := (gate_refresh_progress (g := dailyPasses) (by decide)).2 .original 6
  exact hprogress (fun m hm _ => htime m hm) (by decide +kernel)

end AlgoTrader.Backtesting
