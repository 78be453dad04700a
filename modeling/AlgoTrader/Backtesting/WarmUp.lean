import AlgoTrader.Backtesting.NoOverlap
import AlgoTrader.Backtesting.WalkForwardFolds

/-! The fold and holdout runs of the batch service (``app/backtesting/batch.py``): warm-up bars
are handed over as context, and only the test window is traded. -/

namespace AlgoTrader.Backtesting

open Utils.Time Models BoundedLoop

structure BatchStrategy where
  name : String
  requiredBars : Option ℤ := none
  generateSignal : Strategy

def deepWarmupTimeframes : List String := ["1d"]

def deepWarmupHeldBack : List String := []

def deepWarmupBars (timeframe : String) (strategy : BatchStrategy) : ℕ :=
  if timeframe.toLower ∉ deepWarmupTimeframes then 0
  else if strategy.name ∈ deepWarmupHeldBack then 0
  else (max (strategy.requiredBars.getD 0) 0).toNat

def barsBefore (history : Frame) (endTime : Timestamp) : Frame :=
  (normalizeData history).filter (·.timestamp < endTime)

def withWarmup (window : WalkForwardWindow) (history : Option Frame) (requiredBars : ℕ) : Frame :=
  let trainDf :=
    match history with
    | some history => if window.trainDf.length < requiredBars then barsBefore history window.trainEnd else window.trainDf
    | none => window.trainDf
  if trainDf = [] then window.testDf else trainDf ++ window.testDf

structure StrategyRun where
  clock : NewYorkClock
  config : EngineConfig
  strategy : BatchStrategy
  history : Frame
  timeframe : String
  splitter : WalkForwardSplitter

inductive BatchError
  | split (e : SplitError)
  | engine (e : EngineError)

namespace StrategyRun

variable (b : StrategyRun)

def warmupBars : ℕ := deepWarmupBars b.timeframe b.strategy

def windowRun (window : WalkForwardWindow) : RunInput where
  clock := b.clock
  config := b.config
  strategy := b.strategy.generateSignal
  data := withWarmup window (some b.history) b.warmupBars
  tradeWindowStart := some window.testStart

def foldRuns : Except BatchError (List (WalkForwardWindow × BacktestRun)) := do
  let windows ← (b.splitter.split b.history).mapError .split
  windows.mapM fun window => do
    let run ← (b.windowRun window).run.mapError .engine
    pure (window, run)

def evaluateHoldout : Option (WalkForwardWindow × BacktestRun) :=
  match b.splitter.holdoutWindow b.history with
  | .ok (some window) =>
    match (b.windowRun window).run with
    | .ok run => some (window, run)
    | .error _ => none
  | _ => none

end StrategyRun

/-- The bars a fold may see: its training interval, or with a deep warm-up all bars before the
end of it, and its test interval. -/
def WalkForwardWindow.reaches (w : WalkForwardWindow) (deep : Bool) (bar : Bar) : Bool :=
  ((deep ∨ w.trainStart ≤ bar.timestamp) ∧ bar.timestamp < w.trainEnd) ∨
    (w.testStart ≤ bar.timestamp ∧ bar.timestamp ≤ w.testEnd)

def CutFrom (history : Frame) (w : WalkForwardWindow) : Prop :=
  SlicedTo (normalizeData history) w.trainStart w.trainEnd w.testStart w.testEnd w

lemma SlicedTo.cutFrom {history : Frame} {trainStart trainEnd testStart testEnd : Timestamp} {w : WalkForwardWindow}
    (h : SlicedTo (normalizeData history) trainStart trainEnd testStart testEnd w) : CutFrom history w := by
  obtain ⟨rfl, rfl, rfl, rfl, htrain, htest, htrainNe, htestNe⟩ := h
  exact ⟨rfl, rfl, rfl, rfl, htrain, htest, htrainNe, htestNe⟩

lemma filter_append_filter {α : Type*} {p q : α → Bool} {l : List α} (h : l.Pairwise fun a b => q a → ¬ p b)
    (hdisjoint : ∀ a, q a → ¬ p a) : l.filter p ++ l.filter q = l.filter fun a => p a || q a := by
  induction l with
  | nil => rfl
  | cons a l ih =>
    obtain ⟨hafter, hrest⟩ := List.pairwise_cons.mp h
    by_cases hp : p a
    · have hq : q a = false := by
        by_contra hq
        exact hdisjoint a (by simpa using hq) hp
      simp [hp, hq, ih hrest]
    · by_cases hq : q a
      · have hnone : l.filter p = [] := List.filter_eq_nil_iff.mpr fun b hb => hafter b hb hq
        have hjoined := ih hrest
        rw [hnone, List.nil_append] at hjoined
        simp [hp, hq, hnone, hjoined]
      · simp [hp, hq, ih hrest]

section Handed

variable {history : Frame} {w : WalkForwardWindow} {required : ℕ}

lemma withWarmup_eq (h : CutFrom history w) : withWarmup w (some history) required =
    (normalizeData history).filter (w.reaches (decide (w.trainDf.length < required))) := by
  have hwarmup : withWarmup w (some history) required =
      (normalizeData history).filter (fun bar =>
        (decide (w.trainDf.length < required) ∨ w.trainStart ≤ bar.timestamp) ∧ bar.timestamp < w.trainEnd) ++
        testBars (normalizeData history) w.testStart w.testEnd := by
    unfold withWarmup
    dsimp only
    split_ifs with hdeep hempty hempty
    · simp only [barsBefore] at hempty
      simp [hdeep, hempty, h.test]
    · simp [barsBefore, hdeep, h.test]
    · exact absurd (h.train.symm.trans hempty) h.train_ne
    · simp only [hdeep, decide_false, Bool.false_eq_true, false_or]
      rw [h.train, h.test]
      rfl
  rw [hwarmup, testBars, filter_append_filter]
  · refine List.filter_congr fun bar _ => ?_
    simp [WalkForwardWindow.reaches]
  · refine (normalizeData_sorted history).imp fun {a b} hab => ?_
    have := w.trainEnd_le
    simp only [decide_eq_true_eq]
    rintro ⟨hfirst, _⟩ ⟨_, hbefore⟩
    exact absurd hbefore (this.trans (hfirst.trans hab)).not_gt
  · intro bar
    have := w.trainEnd_le
    simp only [decide_eq_true_eq]
    rintro ⟨hfirst, _⟩ ⟨_, hbefore⟩
    exact absurd hbefore (this.trans hfirst).not_gt

lemma CutFrom.of_reach {history' : Frame} (h : CutFrom history w)
    (hreach : (normalizeData history').filter (w.reaches (decide (w.trainDf.length < required))) =
      (normalizeData history).filter (w.reaches (decide (w.trainDf.length < required)))) : CutFrom history' w := by
  set reach := w.reaches (decide (w.trainDf.length < required)) with hdef
  have hkept (p : Bar → Bool) (hp : ∀ bar, p bar → reach bar) :
      (normalizeData history').filter p = (normalizeData history).filter p := by
    have hinside (bars : Frame) : bars.filter p = (bars.filter reach).filter p := by
      rw [List.filter_filter]
      refine List.filter_congr fun bar _ => ?_
      cases hbar : p bar with
      | false => rfl
      | true => simp [hp bar hbar]
    rw [hinside, hreach, ← hinside]
  have htrain : trainBars (normalizeData history') w.trainStart w.trainEnd =
      trainBars (normalizeData history) w.trainStart w.trainEnd := by
    apply hkept
    intro bar hbar
    simp only [decide_eq_true_eq] at hbar
    simp [hdef, WalkForwardWindow.reaches, hbar]
  have htest : testBars (normalizeData history') w.testStart w.testEnd =
      testBars (normalizeData history) w.testStart w.testEnd := by
    apply hkept
    intro bar hbar
    simp only [decide_eq_true_eq] at hbar
    simp [hdef, WalkForwardWindow.reaches, hbar]
  exact ⟨rfl, rfl, rfl, rfl, htrain ▸ h.train, htest ▸ h.test, htrain ▸ h.train_ne, htest ▸ h.test_ne⟩

lemma CutFrom.slice (h : CutFrom history w) :
    slice (normalizeData history) w.trainStart w.trainEnd w.testStart w.testEnd = .ok (some w) := by
  obtain ⟨w', hslice⟩ := slice_some w.trainEnd_le w.testStart_le h.train_ne h.test_ne
  obtain ⟨hts, hte, hss, hse, htrain, htest, _, _⟩ := slice_sliced hslice
  have hsame : w' = w := by
    cases w
    cases w'
    simp only [WalkForwardWindow.mk.injEq]
    exact ⟨hts, hte, hss, hse, htrain.trans h.train.symm, htest.trans h.test.symm⟩
  rw [hslice, hsame]

end Handed

section Opened

variable {r : RunInput} {index : ℕ} {s t : LoopState}

def OpenedInWindow (r : RunInput) (s : LoopState) : Prop :=
  ∀ trade ∈ s.opened, r.evaluated trade.entryBarIndex

lemma openedInWindow_processBar (h : r.processBar index s = .ok t) (hs : OpenedInWindow r s) :
    OpenedInWindow r t := by
  rcases processBar_cases h with ⟨_, rfl⟩ | ⟨bar, settled, outcome, hbar, hwarm, hsettle, hdecide, rfl⟩
  · exact hs
  · have hopened : settled.opened = s.opened := by
      obtain ⟨u, rfl, hu⟩ := settleBar_cases hsettle
      rcases hu with ⟨rfl, _⟩ | ⟨_, _, _, _, rfl⟩ <;> rfl
    have hsettled : OpenedInWindow r settled := fun trade htrade => hs trade (hopened ▸ htrade)
    cases outcome with
    | dropped => exact hsettled
    | notTaken => exact hsettled
    | filled attempt =>
      obtain ⟨_, next, _, _, _, _, hnext, hattempt⟩ := decideEntry_filled hdecide
      intro trade htrade
      rw [RunInput.applyEntry, mark_opened, enter_opened, List.mem_append, List.mem_singleton] at htrade
      rcases htrade with htrade | rfl
      · exact hsettled trade htrade
      · -- the fill is on the next bar, and no bar after an evaluated one is warm-up
        rw [(attemptEntry_some hattempt).barIndex]
        obtain ⟨hlt, _⟩ := List.getElem?_eq_some_iff.mp hnext
        exact evaluated_of_le ⟨bar, hbar, hwarm⟩ (Nat.le_succ index) hlt

theorem openedInWindow_stateAt (h : r.stateAt index = .ok s) : OpenedInWindow r s := by
  refine invariant (P := fun _ => OpenedInWindow r) ?_ ?_ h
  · intro trade htrade
    simp [RunInput.initialState] at htrade
  · intro i a b _ _ ha hb
    exact openedInWindow_processBar hb ha

lemma openedInWindow_run {run : BacktestRun} (h : r.run = .ok run) : OpenedInWindow r run.final := by
  obtain ⟨looped, hlooped, hfinal, _⟩ := run_cases h
  have hloop := openedInWindow_stateAt hlooped
  rcases closeAtEnd_cases hfinal with ⟨hsame, _⟩ | ⟨_, _, _, _, _, _, _, _, _, hclosed⟩
  · exact hsame ▸ hloop
  · intro trade htrade
    rw [hclosed] at htrade
    exact hloop trade htrade

lemma entry_in_window {run : BacktestRun} (h : r.run = .ok run) {c : TradeRecord} (hc : c ∈ run.trades) :
    ∃ bar ∈ r.normalized, r.inWarmup bar = false ∧ bar.timestamp = c.entryTime := by
  obtain ⟨closed, hclosed, rfl⟩ := List.mem_map.mp hc
  obtain ⟨_, j, horder⟩ := inOrder_final h
  obtain ⟨_, _, htimed, _⟩ := horder.closed closed hclosed
  have hmem : closed.trade ∈ run.final.opened := closed_opened h ▸ List.mem_map_of_mem hclosed
  obtain ⟨bar, hbar, hwarm⟩ := openedInWindow_run h closed.trade hmem
  rw [hbar] at htimed
  exact ⟨bar, List.mem_of_getElem? hbar, hwarm, Option.some.inj htimed⟩

end Opened

structure LeakFree (b : StrategyRun) (w : WalkForwardWindow) (run : BacktestRun) : Prop where
  frame : ∃ warmup, (b.windowRun w).data = warmup ++ w.testDf ∧
    ∀ bar ∈ warmup, bar ∈ b.history ∧ ∀ first ∈ w.testDf, bar.timestamp < first.timestamp
  sorted : TimeSorted (b.windowRun w).data
  once : ∀ bar, (b.windowRun w).data.count bar ≤ b.history.count bar
  entries : ∀ c ∈ run.trades, (∃ bar ∈ w.testDf, bar.timestamp = c.entryTime) ∧
    ∀ first, w.testDf.head? = some first → first.timestamp ≤ c.entryTime
  onlyThese : ∀ history', (normalizeData history').filter (w.reaches (decide (w.trainDf.length < b.warmupBars))) =
    (b.windowRun w).data →
      slice (normalizeData history') w.trainStart w.trainEnd w.testStart w.testEnd = .ok (some w) ∧
        ({ b with history := history' }.windowRun w).run = .ok run

variable {b : StrategyRun} {w : WalkForwardWindow} {run : BacktestRun}

lemma windowRun_data (h : CutFrom b.history w) : (b.windowRun w).data =
    (normalizeData b.history).filter (w.reaches (decide (w.trainDf.length < b.warmupBars))) := withWarmup_eq h

lemma windowRun_handed (h : CutFrom b.history w) : ∃ warmup, (b.windowRun w).data = warmup ++ w.testDf ∧
    ∀ bar ∈ warmup, bar ∈ b.history ∧ bar.timestamp < w.trainEnd := by
  have hbefore : ∀ bar ∈ barsBefore b.history w.trainEnd, bar ∈ b.history ∧ bar.timestamp < w.trainEnd := by
    intro bar hbar
    simpa [barsBefore] using hbar
  have htrain : ∀ bar ∈ w.trainDf, bar ∈ b.history ∧ bar.timestamp < w.trainEnd := by
    intro bar hbar
    rw [h.train, mem_trainBars, mem_normalizeData] at hbar
    exact ⟨hbar.1, hbar.2.2⟩
  change ∃ warmup, withWarmup w (some b.history) b.warmupBars = warmup ++ w.testDf ∧ _
  unfold withWarmup
  dsimp only
  split_ifs
  · exact ⟨[], rfl, by simp⟩
  · exact ⟨_, rfl, hbefore⟩
  · exact ⟨[], rfl, by simp⟩
  · exact ⟨_, rfl, htrain⟩

lemma CutFrom.test_le (h : CutFrom b.history w) {bar : Bar} (hbar : bar ∈ w.testDf) : w.testStart ≤ bar.timestamp := by
  rw [h.test, mem_testBars] at hbar
  exact hbar.2.1

lemma CutFrom.head_le (h : CutFrom b.history w) {first bar : Bar} (hfirst : w.testDf.head? = some first)
    (hbar : bar ∈ w.testDf) : first.timestamp ≤ bar.timestamp := by
  have hsorted : TimeSorted w.testDf := by
    rw [h.test]
    exact (normalizeData_sorted b.history).filter _
  obtain ⟨rest, htest⟩ := List.head?_eq_some_iff.mp hfirst
  rw [htest] at hsorted hbar
  rcases List.mem_cons.mp hbar with rfl | hrest
  · exact le_rfl
  · exact (List.pairwise_cons.mp hsorted).1 bar hrest

lemma leakFree_of_cut (h : CutFrom b.history w) (hrun : (b.windowRun w).run = .ok run) : LeakFree b w run := by
  obtain ⟨warmup, hdata, hwarmup⟩ := windowRun_handed h
  refine ⟨⟨warmup, hdata, ?_⟩, ?_, ?_, ?_, ?_⟩
  · intro bar hbar
    obtain ⟨hmem, hbefore⟩ := hwarmup bar hbar
    exact ⟨hmem, fun first hfirst => hbefore.trans_le (w.trainEnd_le.trans (h.test_le hfirst))⟩
  · rw [windowRun_data h]
    exact (normalizeData_sorted b.history).filter _
  · intro bar
    rw [windowRun_data h]
    calc _ ≤ (normalizeData b.history).count bar := List.filter_sublist.count_le bar
      _ = b.history.count bar := (List.perm_insertionSort _ b.history).count_eq bar
  · intro c hc
    obtain ⟨bar, hbar, hwarm, htime⟩ := entry_in_window hrun hc
    rw [RunInput.normalized, mem_normalizeData, hdata, List.mem_append] at hbar
    have htest : bar ∈ w.testDf := by
      rcases hbar with hbar | hbar
      · have hstart : ¬ bar.timestamp < w.testStart := by simpa [RunInput.inWarmup, StrategyRun.windowRun] using hwarm
        exact absurd ((hwarmup bar hbar).2.trans_le w.trainEnd_le) hstart
      · exact hbar
    exact ⟨⟨bar, htest, htime⟩, fun first hfirst => htime ▸ h.head_le hfirst htest⟩
  · intro history' hreach
    have hreach' := hreach.trans (windowRun_data h)
    have hcut := h.of_reach hreach'
    have hframe : withWarmup w (some history') b.warmupBars = withWarmup w (some b.history) b.warmupBars := by
      rw [withWarmup_eq hcut, hreach']
      exact (withWarmup_eq h).symm
    have hsame : { b with history := history' }.windowRun w = b.windowRun w :=
      congrArg (fun data => { b.windowRun w with data := data }) hframe
    exact ⟨hcut.slice, hsame ▸ hrun⟩

lemma mem_foldRuns {runs : List (WalkForwardWindow × BacktestRun)} (h : b.foldRuns = .ok runs)
    {fold : WalkForwardWindow × BacktestRun} (hfold : fold ∈ runs) :
    ∃ windows, b.splitter.split b.history = .ok windows ∧ fold.1 ∈ windows ∧ (b.windowRun fold.1).run = .ok fold.2 := by
  obtain ⟨windows, hsplit, hruns⟩ := (bind_eq_ok _ _ _).mp h
  obtain ⟨w, hw, hround⟩ := mapM_mem hruns hfold
  obtain ⟨run, hrun, hpair⟩ := (bind_eq_ok _ _ _).mp hround
  obtain rfl := (pure_eq_ok _ _).mp hpair
  exact ⟨windows, mapError_ok hsplit, hw, mapError_ok hrun⟩

lemma evaluateHoldout_cases {fold : WalkForwardWindow × BacktestRun} (h : b.evaluateHoldout = some fold) :
    b.splitter.holdoutWindow b.history = .ok (some fold.1) ∧ (b.windowRun fold.1).run = .ok fold.2 := by
  rw [StrategyRun.evaluateHoldout] at h
  split at h
  · next window hwindow =>
    split at h
    · next run hrun =>
      obtain rfl := Option.some.inj h
      exact ⟨hwindow, hrun⟩
    · cases h
  · cases h

theorem warm_up_without_leakage {runs : List (WalkForwardWindow × BacktestRun)} (h : b.foldRuns = .ok runs) :
    (∀ fold ∈ runs, LeakFree b fold.1 fold.2) ∧
      ∀ fold, b.evaluateHoldout = some fold → LeakFree b fold.1 fold.2 := by
  constructor
  · intro fold hfold
    obtain ⟨windows, hsplit, hw, hrun⟩ := mem_foldRuns h hfold
    rcases split_cases hsplit with ⟨_, rfl⟩ | ⟨_, _, _, _, hspec⟩
    · cases hw
    · obtain ⟨k, _, hyields⟩ := (hspec.mem fold.1).mp hw
      exact leakFree_of_cut (slice_sliced hyields.fold).cutFrom hrun
  · intro fold hfold
    obtain ⟨hwindow, hrun⟩ := evaluateHoldout_cases hfold
    obtain ⟨_, hof⟩ := holdoutWindow_some hwindow
    exact leakFree_of_cut hof.sliced.cutFrom hrun

def deepFolds : StrategyRun where
  clock := easternStandard
  config := { costModel := zeroCostModel }
  strategy :=
    { name := "breakout"
      requiredBars := some 3
      generateSignal := fun _ => some { action := .buy, price := some 100, stopLoss := some 90, takeProfit := some 120 } }
  history := (List.range 7).map fun day => ⟨day * microsPerDay, 100, 101, 99, 100, 0⟩
  timeframe := "1D"
  splitter := { trainDays := 2, testDays := 1, stepDays := 1, embargoDays := 1, holdoutDays := 1 }

theorem warm_up_without_leakage_deepFolds : ∃ runs, deepFolds.foldRuns = .ok runs ∧
    (runs.map fun fold => ((deepFolds.windowRun fold.1).data.length, fold.2.trades.length)) = [(4, 1), (5, 1)] ∧
    ∀ fold ∈ runs, LeakFree deepFolds fold.1 fold.2 := by
  have h : deepFolds.foldRuns.toOption.any (fun runs =>
      (runs.map fun fold => ((deepFolds.windowRun fold.1).data.length, fold.2.trades.length)) = [(4, 1), (5, 1)]) =
        true := by decide +kernel
  obtain ⟨runs, hruns, htrades⟩ := exists_ok_of_any h
  exact ⟨runs, hruns, by simpa using htrades, (warm_up_without_leakage hruns).1⟩

end AlgoTrader.Backtesting
