import AlgoTrader.Backtesting.EngineStep

/-! The equity curve of a run. A bar that drops an entry signal leaves the iteration before
its mark is appended; every other evaluated bar appends exactly one. -/

namespace AlgoTrader.Backtesting

open Utils.Time Models BoundedLoop

variable {r : RunInput} {index : ℕ} {s t : LoopState}

def RunInput.dropsSignal (r : RunInput) (index : ℕ) (s : LoopState) : Bool :=
  match r.normalized[index]? with
  | none => false
  | some bar =>
    !r.inWarmup bar && match r.settleBar bar index s >>= r.decideEntry index with
      | .ok outcome => outcome = .dropped
      | .error _ => false

/-- At the bar `index` the loop takes the ``continue`` of an entry signal that cannot fill:
there is no next bar, or the entry is refused. -/
def RunInput.droppedAt (r : RunInput) (index : ℕ) : Bool :=
  match r.stateAt index with
  | .ok s => r.dropsSignal index s
  | .error _ => false

lemma droppedAt_eq (h : r.stateAt index = .ok s) : r.droppedAt index = r.dropsSignal index s := by
  simp only [RunInput.droppedAt, h]

lemma dropsSignal_iff {bar : Bar} {settled : LoopState} {outcome : EntryOutcome}
    (hbar : r.normalized[index]? = some bar) (hwarm : r.inWarmup bar = false)
    (hsettle : r.settleBar bar index s = .ok settled)
    (hdecide : r.decideEntry index settled = .ok outcome) :
    r.dropsSignal index s = true ↔ outcome = .dropped := by
  have hb : (r.settleBar bar index s >>= r.decideEntry index) = .ok outcome :=
    (bind_eq_ok _ _ _).mpr ⟨settled, hsettle, hdecide⟩
  simp [RunInput.dropsSignal, hbar, hwarm, hb]

lemma evaluated_of_drops (h : r.dropsSignal index s = true) : r.evaluated index := by
  rw [RunInput.dropsSignal] at h
  cases hbar : r.normalized[index]? with
  | none => simp [hbar] at h
  | some bar =>
    simp only [hbar, Bool.and_eq_true, Bool.not_eq_true'] at h
    exact ⟨bar, hbar, h.1⟩

lemma evaluated_of_droppedAt (h : r.droppedAt index = true) : r.evaluated index := by
  rw [RunInput.droppedAt] at h
  cases hs : r.stateAt index with
  | error e => simp [hs] at h
  | ok s => exact evaluated_of_drops (s := s) (by simpa [hs] using h)

/-- Warm-up bars come first: the frame is sorted, and a bar after an evaluated one is evaluated. -/
lemma evaluated_of_le {i j : ℕ} (hi : r.evaluated i) (hij : i ≤ j) (hj : j < r.totalBars) :
    r.evaluated j := by
  obtain ⟨a, ha, hwarm⟩ := hi
  obtain ⟨b, hb⟩ : ∃ b, r.normalized[j]? = some b := ⟨_, List.getElem?_eq_getElem hj⟩
  refine ⟨b, hb, ?_⟩
  have hle := (normalizeData_sorted r.data).le_of_lt ha hb hij
  rw [RunInput.inWarmup] at hwarm ⊢
  cases hstart : r.tradeWindowStart with
  | none => rfl
  | some start =>
    simp only [hstart, decide_eq_false_iff_not, not_lt] at hwarm ⊢
    exact hwarm.trans hle

lemma processBar_dropped (h : r.processBar index s = .ok t) (hd : r.dropsSignal index s = true) :
    t.openTrade = none ∧ t.equityCurve = s.equityCurve ∧ (s.openTrade = none → t.cash = s.cash) ∧
      ∀ trade, s.openTrade = some trade → ∃ bar action, r.normalized[index]? = some bar ∧
        BarExit r bar index trade action ∧
        t.cash = s.cash + realizedProceeds r.runConfig.costModel trade action := by
  rcases processBar_cases h with ⟨hne, _⟩ | ⟨bar, settled, outcome, hbar, hwarm, hsettle, hdecide, rfl⟩
  · exact absurd (evaluated_of_drops hd) hne
  · obtain rfl := (dropsSignal_iff hbar hwarm hsettle hdecide).mp hd
    have hflat := (decideEntry_dropped hdecide).1
    obtain ⟨u, rfl, hu⟩ := settleBar_cases hsettle
    rw [recordSignal_openTrade] at hflat
    rcases hu with ⟨rfl, _⟩ | ⟨trade, action, hopen, hexit, rfl⟩
    · exact ⟨hflat, rfl, fun _ => rfl, fun trade hopen => by simp [hopen] at hflat⟩
    · refine ⟨rfl, rfl, fun hnone => by simp [hnone] at hopen, ?_⟩
      intro trade' hopen'
      obtain rfl : trade = trade' := by rw [hopen] at hopen'; exact Option.some.inj hopen'
      exact ⟨bar, action, hbar, hexit, rfl⟩

lemma processBar_marked (h : r.processBar index s = .ok t) (he : r.evaluated index)
    (hd : r.dropsSignal index s = false) :
    ∃ bar, r.normalized[index]? = some bar ∧
      t.equityCurve = s.equityCurve ++ [markToMarket t.cash t.openTrade bar] := by
  rcases processBar_cases h with ⟨hne, _⟩ | ⟨bar, settled, outcome, hbar, hwarm, hsettle, hdecide, rfl⟩
  · exact absurd he hne
  · refine ⟨bar, hbar, ?_⟩
    have hcurve : settled.equityCurve = s.equityCurve := by
      obtain ⟨u, rfl, hu⟩ := settleBar_cases hsettle
      rcases hu with ⟨rfl, _⟩ | ⟨trade, action, _, _, rfl⟩ <;> rfl
    cases outcome with
    | dropped =>
      have := (dropsSignal_iff hbar hwarm hsettle hdecide).mpr rfl
      simp [this] at hd
    | notTaken => simp [RunInput.applyEntry, hcurve]
    | filled attempt => simp [RunInput.applyEntry, hcurve]

namespace RunInput

variable (r : RunInput)

def isEvaluated (index : ℕ) : Bool :=
  match r.normalized[index]? with
  | none => false
  | some bar => !r.inWarmup bar

def evaluatedBars : List ℕ := (List.range r.totalBars).filter r.isEvaluated

def markAfter (index : ℕ) : ℚ :=
  match r.stateAt (index + 1), r.normalized[index]? with
  | .ok s, some bar => markToMarket s.cash s.openTrade bar
  | _, _ => 0

def forceClosed : Bool :=
  match r.stateAt r.totalBars with
  | .ok s => s.openTrade.isSome
  | .error _ => false

/-- One point for each evaluated bar, the last one the final cash of a position that the
end of the data closes. -/
def fullCurve (run : BacktestRun) : List ℚ :=
  let marks := r.evaluatedBars.map r.markAfter
  if r.forceClosed then marks.dropLast ++ [run.final.cash] else marks

def marksUpTo (index : ℕ) : List ℚ :=
  ((List.range index).filter fun j => r.isEvaluated j && !r.droppedAt j).map r.markAfter

end RunInput

structure CurveComplete (r : RunInput) (run : BacktestRun) : Prop where
  curve : run.final.equityCurve = r.fullCurve run
  metrics : run.metrics = compileMetrics (r.fullCurve run) r.runConfig.initialCash run.endingCash
  bars : run.metrics.barsEvaluated = max r.evaluatedBars.length 1

lemma isEvaluated_iff : r.isEvaluated index = true ↔ r.evaluated index := by
  rw [RunInput.isEvaluated, RunInput.evaluated]
  cases r.normalized[index]? <;> simp

lemma markAfter_eq {bar : Bar} (h : r.stateAt (index + 1) = .ok t)
    (hbar : r.normalized[index]? = some bar) : r.markAfter index = markToMarket t.cash t.openTrade bar := by
  simp only [RunInput.markAfter, h, hbar]

lemma marksUpTo_succ (index : ℕ) : r.marksUpTo (index + 1) = r.marksUpTo index ++
    if r.isEvaluated index && !r.droppedAt index then [r.markAfter index] else [] := by
  simp only [RunInput.marksUpTo, List.range_succ, List.filter_append, List.map_append]
  cases h : r.isEvaluated index && !r.droppedAt index <;> simp [h]

lemma marksUpTo_processBar (hs : r.stateAt index = .ok s) (h : r.processBar index s = .ok t)
    (hcurve : s.equityCurve = r.marksUpTo index) : t.equityCurve = r.marksUpTo (index + 1) := by
  have hsucc : r.stateAt (index + 1) = .ok t := iterate_succ_ok.mpr ⟨s, hs, h⟩
  rw [marksUpTo_succ, droppedAt_eq hs, ← hcurve]
  cases hd : r.dropsSignal index s with
  | true =>
    obtain ⟨_, hsame, _⟩ := processBar_dropped h hd
    simp [hsame]
  | false =>
    by_cases he : r.evaluated index
    · obtain ⟨bar, hbar, happend⟩ := processBar_marked h he hd
      have hev := isEvaluated_iff.mpr he
      simp [hev, happend, markAfter_eq hsucc hbar]
    · obtain ⟨_, rfl⟩ | ⟨bar, _, _, hbar, hwarm, _⟩ := processBar_cases h
      · have hev : r.isEvaluated index = false := by
          rw [← Bool.not_eq_true, isEvaluated_iff]
          exact he
        simp [hev]
      · exact absurd ⟨bar, hbar, hwarm⟩ he

theorem equityCurve_stateAt (h : r.stateAt index = .ok s) : s.equityCurve = r.marksUpTo index := by
  refine invariant (P := fun i u => u.equityCurve = r.marksUpTo i) ?_ ?_ h
  · simp [RunInput.initialState, RunInput.marksUpTo]
  · intro i a b _ ha hcurve hb
    exact marksUpTo_processBar ha hb hcurve

theorem curve_nonempty_of_open (h : r.stateAt index = .ok s) (hopen : s.openTrade ≠ none) :
    s.equityCurve ≠ [] := by
  refine invariant (P := fun _ u => u.openTrade ≠ none → u.equityCurve ≠ []) ?_ ?_ h hopen
  · simp [RunInput.initialState]
  · intro i a b _ _ hP hb hbopen
    cases hd : r.dropsSignal i a with
    | true => exact absurd (processBar_dropped hb hd).1 hbopen
    | false =>
      by_cases he : r.evaluated i
      · obtain ⟨bar, _, happend⟩ := processBar_marked hb he hd
        simp [happend]
      · obtain ⟨_, rfl⟩ | ⟨bar, _, _, hbar, hwarm, _⟩ := processBar_cases hb
        · exact hP hbopen
        · exact absurd ⟨bar, hbar, hwarm⟩ he

lemma evaluated_of_open (h : r.stateAt index = .ok s) (hopen : s.openTrade ≠ none) :
    ∃ j < index, r.evaluated j := by
  have hne := curve_nonempty_of_open h hopen
  rw [equityCurve_stateAt h] at hne
  obtain ⟨mark, hmark⟩ := List.exists_mem_of_ne_nil _ hne
  obtain ⟨j, hj, _⟩ := List.mem_map.mp hmark
  obtain ⟨hrange, hkept⟩ := List.mem_filter.mp hj
  rw [Bool.and_eq_true] at hkept
  exact ⟨j, List.mem_range.mp hrange, isEvaluated_iff.mp hkept.1⟩

lemma flat_of_empty (h : r.stateAt r.totalBars = .ok s) (hempty : r.normalized = []) :
    s.openTrade = none := by
  by_contra hopen
  obtain ⟨j, hj, _⟩ := evaluated_of_open h hopen
  simp [RunInput.totalBars, hempty] at hj

lemma marksUpTo_length : (r.marksUpTo r.totalBars).length =
    (r.evaluatedBars.filter fun j => !r.droppedAt j).length := by
  simp [RunInput.marksUpTo, RunInput.evaluatedBars, List.filter_filter, Bool.and_comm]

lemma marksUpTo_total (h : ∀ i < r.totalBars, r.droppedAt i = false) :
    r.marksUpTo r.totalBars = r.evaluatedBars.map r.markAfter := by
  rw [RunInput.marksUpTo, RunInput.evaluatedBars]
  congr 1
  refine List.filter_congr fun i hi => ?_
  simp [h i (List.mem_range.mp hi)]

lemma not_dropped_of_length (h : (r.marksUpTo r.totalBars).length = r.evaluatedBars.length) :
    ∀ i < r.totalBars, r.droppedAt i = false := by
  intro i hi
  rw [marksUpTo_length] at h
  have hall := List.filter_eq_self.mp (List.filter_sublist.eq_of_length h)
  by_contra hd
  have hdrop : r.droppedAt i = true := by simpa using hd
  have hmem : i ∈ r.evaluatedBars := by
    refine List.mem_filter.mpr ⟨List.mem_range.mpr hi, ?_⟩
    exact isEvaluated_iff.mpr (evaluated_of_droppedAt hdrop)
  simpa [hdrop] using hall i hmem

lemma marks_of_forceClosed (h : r.forceClosed = true) : 0 < (r.marksUpTo r.totalBars).length := by
  rw [RunInput.forceClosed] at h
  cases hlooped : r.stateAt r.totalBars with
  | error e => simp [hlooped] at h
  | ok looped =>
    have hopen : looped.openTrade ≠ none := by
      rw [hlooped] at h
      exact Option.isSome_iff_ne_none.mp h
    rw [← equityCurve_stateAt hlooped, List.length_pos_iff]
    exact curve_nonempty_of_open hlooped hopen

lemma final_curve {run : BacktestRun} (h : r.run = .ok run) : run.final.equityCurve =
    if r.forceClosed then (r.marksUpTo r.totalBars).dropLast ++ [run.final.cash]
    else r.marksUpTo r.totalBars := by
  obtain ⟨looped, hlooped, hfinal, _⟩ := run_cases h
  have hcurve := equityCurve_stateAt hlooped
  have hforce : r.forceClosed = looped.openTrade.isSome := by simp only [RunInput.forceClosed, hlooped]
  have hdone : looped.openTrade = none → run.final = looped → run.final.equityCurve =
      if r.forceClosed then (r.marksUpTo r.totalBars).dropLast ++ [run.final.cash]
      else r.marksUpTo r.totalBars := by
    intro hflat hsame
    rw [hsame, hforce, hflat]
    exact hcurve
  rcases closeAtEnd_cases hfinal with ⟨hsame, hflat | hempty⟩ | ⟨trade, _, action, hopen, _, _, _, _, _, hclosed⟩
  · exact hdone hflat hsame
  · exact hdone (flat_of_empty hlooped hempty) hsame
  · have hne := curve_nonempty_of_open hlooped (by simp [hopen])
    rw [hclosed, hforce, hopen, ← hcurve]
    exact markLastCash_equityCurve _ hne

theorem curve_complete_iff {run : BacktestRun} (h : r.run = .ok run) :
    CurveComplete r run ↔ ∀ i < r.totalBars, r.droppedAt i = false := by
  have hfinal := final_curve h
  obtain ⟨_, _, _, _, hmetrics⟩ := run_cases h
  constructor
  · intro hcomplete
    apply not_dropped_of_length
    have hlength := congrArg List.length (hfinal.symm.trans hcomplete.curve)
    have hle : (r.marksUpTo r.totalBars).length ≤ r.evaluatedBars.length := by
      rw [marksUpTo_length]
      exact List.length_filter_le _ _
    rw [RunInput.fullCurve] at hlength
    by_cases hforce : r.forceClosed = true
    · have hpos := marks_of_forceClosed hforce
      simp [hforce] at hlength
      omega
    · simpa [hforce] using hlength
  · intro hkept
    rw [marksUpTo_total hkept] at hfinal
    have hfull : run.final.equityCurve = r.fullCurve run := hfinal
    have hlength : max run.final.equityCurve.length 1 = max r.evaluatedBars.length 1 := by
      rw [hfinal]
      split_ifs <;> simp; omega
    refine ⟨hfull, hfull ▸ hmetrics, ?_⟩
    rw [hmetrics]
    exact hlength

-- A long bought at the open of the second of three bars is stopped out at its target on
-- the last one, where the strategy signals again and there is no bar left to fill on.
def reentryBars : Frame :=
  [⟨0, 100, 101, 99, 100, 0⟩, ⟨microsPerDay, 100, 105, 98, 104, 0⟩,
    ⟨2 * microsPerDay, 110, 125, 108, 122, 0⟩]

def reentryOnLastBar : RunInput where
  clock := easternStandard
  config := { initialCash := 1000, costModel := zeroCostModel }
  strategy _ := some { action := .buy, price := some 100, stopLoss := some 90, takeProfit := some 120 }
  data := reentryBars

lemma reentry_run : ∃ run, reentryOnLastBar.run = .ok run ∧ run.endingCash = 1004 ∧
    (run.trades.map (·.pnlUsd)).sum = 20 ∧ run.metrics.barsEvaluated = 2 := by
  have h : reentryOnLastBar.run.toOption.any (fun run => run.endingCash = 1004 ∧
      (run.trades.map (·.pnlUsd)).sum = 20 ∧ run.metrics.barsEvaluated = 2) = true := by
    decide +kernel
  obtain ⟨run, hrun, hfigures⟩ := exists_ok_of_any h
  exact ⟨run, hrun, by simpa using hfigures⟩

lemma reentry_evaluates_three : reentryOnLastBar.evaluatedBars.length = 3 := by decide +kernel

theorem reentry_misses_last_mark :
    ∃ run, reentryOnLastBar.run = .ok run ∧ ¬ CurveComplete reentryOnLastBar run := by
  obtain ⟨run, hrun, _, _, hbars⟩ := reentry_run
  refine ⟨run, hrun, fun hcomplete => ?_⟩
  have hcount := hcomplete.bars
  rw [hbars, reentry_evaluates_three] at hcount
  omega

theorem curve_complete_iff_reentry : ∃ run, reentryOnLastBar.run = .ok run ∧
    (CurveComplete reentryOnLastBar run ↔
      ∀ i < reentryOnLastBar.totalBars, reentryOnLastBar.droppedAt i = false) := by
  obtain ⟨run, hrun, _⟩ := reentry_run
  exact ⟨run, hrun, curve_complete_iff hrun⟩

end AlgoTrader.Backtesting
