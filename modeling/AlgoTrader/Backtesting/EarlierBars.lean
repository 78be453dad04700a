import AlgoTrader.Backtesting.NoLookAhead
import AlgoTrader.Backtesting.WarmUp

/-! The bars before the warm-up a strategy needs. A daily run over a frame without its first bars is
the run over the whole frame, with every bar index that many lower; so a fold runs as it would with
all the history there is. -/

namespace AlgoTrader.Backtesting

open Utils.Time Models BoundedLoop

def OpenTrade.later (k : ℕ) (trade : OpenTrade) : OpenTrade := { trade with entryBarIndex := k + trade.entryBarIndex }

def ExitAction.later (k : ℕ) (action : ExitAction) : ExitAction :=
  { action with fillBarIndex := k + action.fillBarIndex }

def ClosedTrade.later (k : ℕ) (closed : ClosedTrade) : ClosedTrade :=
  { closed with trade := closed.trade.later k, exitBarIndex := k + closed.exitBarIndex }

def EntryAttempt.later (k : ℕ) (attempt : EntryAttempt) : EntryAttempt :=
  { attempt with openTrade := attempt.openTrade.later k }

def EntryOutcome.later (k : ℕ) : EntryOutcome → EntryOutcome
  | .notTaken => .notTaken
  | .dropped => .dropped
  | .filled attempt => .filled (attempt.later k)

def LoopState.later (k : ℕ) (s : LoopState) : LoopState where
  cash := s.cash
  openTrade := s.openTrade.map (OpenTrade.later k)
  equityCurve := s.equityCurve
  trades := s.trades.map (ClosedTrade.later k)
  costEvents := s.costEvents
  warnings := s.warnings
  recentSignals := s.recentSignals.map fun recorded => (k + recorded.1, recorded.2)
  opened := s.opened.map (OpenTrade.later k)

section Steps

variable {k index : ℕ} {s : LoopState} {trade : OpenTrade} {action : ExitAction} {bar : Bar} {m : CostModel}

lemma timeStopDue_later : timeStopDue (trade.later k) (k + index) = timeStopDue trade index := by
  have hdiff : ((k + index : ℕ) : ℤ) - ((k + trade.entryBarIndex : ℕ) : ℤ) = (index : ℤ) - trade.entryBarIndex := by
    omega
  unfold timeStopDue OpenTrade.later
  simp only [hdiff]

lemma evaluateExit_later {clock : NewYorkClock} {config : EngineConfig} {signal : Option Signal} {next : Option Bar} :
    evaluateExit clock config (trade.later k) bar signal (k + index) next =
      (evaluateExit clock config trade bar signal index next).map (Option.map (ExitAction.later k)) := by
  unfold evaluateExit
  rw [timeStopDue_later]
  dsimp only
  have hlevel : stopOrTarget (trade.later k) bar = stopOrTarget trade bar := rfl
  have hside : (trade.later k).side = trade.side := rfl
  rw [hlevel, hside]
  split_ifs
  · cases config.costModel.exitFillPrice bar.openPrice trade.side (isExtended clock bar.timestamp config.barsPerYear) <;> rfl
  · cases stopOrTarget trade bar with
    | some level =>
      obtain ⟨rawFill, reason⟩ := level
      dsimp only
      cases config.costModel.exitFillPrice rawFill trade.side (isExtended clock bar.timestamp config.barsPerYear) <;> rfl
    | none =>
      cases signal with
      | none => rfl
      | some sig =>
        cases next with
        | none => rfl
        | some next =>
          dsimp only
          split_ifs
          · cases config.costModel.exitFillPrice next.openPrice trade.side
              (isExtended clock next.timestamp config.barsPerYear) <;> rfl
          · rfl

lemma attemptEntry_later (k index : ℕ) {clock : NewYorkClock} {config : EngineConfig} {signal : Signal}
    {next : Bar} {cash distance : ℚ} : attemptEntry clock config signal next cash (k + index) distance =
      (attemptEntry clock config signal next cash index distance).map (Option.map (EntryAttempt.later k)) := by
  unfold attemptEntry
  dsimp only
  split_ifs
  · rfl
  · cases config.costModel.entryFillPrice next.openPrice (entrySide config)
      (isExtended clock next.timestamp config.barsPerYear) with
    | error e => rfl
    | ok fillPrice =>
      simp only [ok_bind]
      cases sizePosition config (entryLevels config signal fillPrice distance).1 fillPrice cash with
      | error e => rfl
      | ok quantity =>
        simp only [ok_bind]
        split_ifs <;> rfl

lemma bookExit_later : (s.later k).bookExit m (trade.later k) (action.later k) = (s.bookExit m trade action).later k := by
  have hclose : closeTrade m (trade.later k) (action.later k) = closeTrade m trade action := rfl
  rw [LoopState.bookExit, LoopState.bookExit, hclose]
  simp [LoopState.later, ClosedTrade.later, ExitAction.later]

lemma recordSignal_later {delay : ℕ} {signal : Option Signal} :
    (s.later k).recordSignal (k + index) delay signal = (s.recordSignal index delay signal).later k := by
  simp only [LoopState.recordSignal, LoopState.later, Option.isNone_map, List.length_append, List.length_map,
    LoopState.mk.injEq, true_and, List.map_drop, List.map_append]
  simp

lemma enter_later {attempt : EntryAttempt} : (s.later k).enter (attempt.later k) = (s.enter attempt).later k := by
  simp [LoopState.enter, LoopState.later, EntryAttempt.later]

lemma mark_later : (s.later k).mark bar = (s.mark bar).later k := by
  cases hopen : s.openTrade <;>
    simp [LoopState.mark, LoopState.later, markToMarket, marketValue, OpenTrade.later, hopen]

lemma applyEntry_later {outcome : EntryOutcome} :
    RunInput.applyEntry bar (s.later k) (outcome.later k) = (RunInput.applyEntry bar s outcome).later k := by
  cases outcome with
  | dropped => rfl
  | notTaken => exact mark_later
  | filled attempt =>
    change ((s.later k).enter (attempt.later k)).mark bar = _
    rw [enter_later, mark_later]
    rfl

lemma entrySignal_later {recent : List (ℕ × Option Signal)} {delay : ℕ} :
    entrySignal (recent.map fun recorded => (k + recorded.1, recorded.2)) (k + index) delay [] =
      entrySignal recent index delay [] := by
  cases recent with
  | nil => rfl
  | cons recorded rest =>
    obtain ⟨signalIndex, signal⟩ := recorded
    have hsame : (k + signalIndex + delay ≠ k + index) = (signalIndex + delay ≠ index) := by
      rw [Nat.add_assoc, ne_eq, ne_eq, Nat.add_left_cancel_iff]
    simp only [List.map_cons, entrySignal, hsame, List.take_nil, List.drop_nil, List.any_nil]

lemma markLastCash_later : (s.later k).markLastCash = s.markLastCash.later k := rfl

end Steps

def BacktestRun.later (k : ℕ) (run : BacktestRun) : BacktestRun := { run with final := run.final.later k }

def NeedsOnly (required : ℕ) (strategy : Strategy) : Prop :=
  ∀ (data : Frame) (k : ℕ), required ≤ (data.drop k).length → strategy (data.drop k) = strategy data

section Runs

variable {r : RunInput} {x : Frame} {k required index : ℕ} {s : LoopState} {bar : Bar}

lemma sorted_drop (hx : TimeSorted x) : TimeSorted (x.drop k) := List.Pairwise.sublist (List.drop_sublist k x) hx

lemma sessionEnds_daily (hdaily : r.intraday = false) : (r.on x).sessionEnds = [] := by
  rw [RunInput.sessionEnds]
  exact if_neg fun h => by simp [hdaily] at h

lemma atSessionEnd_daily (hdaily : r.intraday = false) : (r.on x).atSessionEnd index = false := by
  rw [RunInput.atSessionEnd, sessionEnds_daily hdaily]
  rfl

lemma minStopDistance_daily (hdaily : r.intraday = false) : (r.on x).minStopDistance index = 0 := by
  have hatr : (r.on x).sessionAtr = [] := by
    rw [RunInput.sessionAtr]
    exact if_neg fun h => by simp [hdaily] at h
  rw [RunInput.minStopDistance, hatr]
  rfl

lemma signalAt_drop (hx : TimeSorted x) (hstrategy : NeedsOnly required r.strategy) (hindex : required ≤ index + 1)
    (hlt : k + index < x.length) : (r.on (x.drop k)).signalAt index = (r.on x).signalAt (k + index) := by
  rw [RunInput.signalAt, RunInput.signalAt, on_normalized hx, on_normalized (sorted_drop hx)]
  have hwindow : (x.drop k).take (index + 1) = (x.take (k + index + 1)).drop k := by
    rw [List.drop_take]
    congr 1
    omega
  have hlength : ((x.take (k + index + 1)).drop k).length = index + 1 := by
    rw [List.length_drop, List.length_take]
    omega
  rw [hwindow]
  exact hstrategy (x.take (k + index + 1)) k (hindex.trans hlength.ge)

lemma maybeNextBar_drop : maybeNextBar (x.drop k) index = maybeNextBar x (k + index) := by
  rw [maybeNextBar_eq, maybeNextBar_eq, List.getElem?_drop]
  rfl

lemma handleExit_later (bar : Bar) (s : LoopState) (hx : TimeSorted x)
    (hsignal : (r.on (x.drop k)).signalAt index = (r.on x).signalAt (k + index)) :
    ((r.on (x.drop k)).handleExit bar index s).map (LoopState.later k) =
      (r.on x).handleExit bar (k + index) (s.later k) := by
  unfold RunInput.handleExit
  cases hopen : s.openTrade with
  | none => simp [LoopState.later, hopen, Except.map, pure, Except.pure]
  | some trade =>
    have hlater : (s.later k).openTrade = some (trade.later k) := by simp [LoopState.later, hopen]
    simp only [hlater, on_clock, on_runConfig, on_normalized hx, on_normalized (sorted_drop hx), maybeNextBar_drop,
      hsignal, evaluateExit_later]
    cases evaluateExit r.clock r.runConfig trade bar ((r.on x).signalAt (k + index)) index
        (maybeNextBar x (k + index)) with
    | error e => rfl
    | ok exitAction =>
      cases exitAction with
      | none => rfl
      | some action => exact congrArg Except.ok bookExit_later.symm

lemma settleBar_later (bar : Bar) (s : LoopState) (hx : TimeSorted x) (hdaily : r.intraday = false)
    (hsignal : (r.on (x.drop k)).signalAt index = (r.on x).signalAt (k + index)) :
    ((r.on (x.drop k)).settleBar bar index s).map (LoopState.later k) =
      (r.on x).settleBar bar (k + index) (s.later k) := by
  have hexit := handleExit_later bar s hx hsignal
  have hflat (frame : Frame) (i : ℕ) (u : LoopState) : (r.on frame).flattenSession bar i u = .ok u := by
    unfold RunInput.flattenSession
    rw [atSessionEnd_daily hdaily]
    cases u.openTrade <;> rfl
  rw [RunInput.settleBar, RunInput.settleBar, ← hexit]
  cases (r.on (x.drop k)).handleExit bar index s with
  | error e => rfl
  | ok exited =>
    simp only [Except.map, ok_bind, hflat, on_delay, hsignal]
    exact congrArg Except.ok recordSignal_later.symm

lemma decideEntry_later (k index : ℕ) (s : LoopState) (hx : TimeSorted x) (hdaily : r.intraday = false) :
    ((r.on (x.drop k)).decideEntry index s).map (EntryOutcome.later k) =
      (r.on x).decideEntry (k + index) (s.later k) := by
  unfold RunInput.decideEntry
  have hrecent : (s.later k).recentSignals = s.recentSignals.map fun recorded => (k + recorded.1, recorded.2) := rfl
  have hopen : (s.later k).openTrade.isNone = s.openTrade.isNone := by simp [LoopState.later]
  have hcash : (s.later k).cash = s.cash := rfl
  simp only [sessionEnds_daily hdaily, on_delay, hrecent, entrySignal_later, atSessionEnd_daily hdaily, hopen, hcash,
    minStopDistance_daily hdaily, on_clock, on_runConfig, on_normalized hx, on_normalized (sorted_drop hx),
    maybeNextBar_drop, Nat.add_assoc]
  cases entrySignal s.recentSignals index r.delay [] with
  | none => rfl
  | some signal =>
    dsimp only
    split_ifs
    · cases maybeNextBar x (k + index) with
      | none => rfl
      | some next =>
        simp only [attemptEntry_later k (index + 1)]
        cases attemptEntry r.clock r.runConfig signal next s.cash (index + 1) 0 with
        | error e => rfl
        | ok attempt =>
          cases attempt with
          | none => rfl
          | some entry => rfl
    · rfl

lemma processBar_later (hx : TimeSorted x) (hdaily : r.intraday = false) (hstrategy : NeedsOnly required r.strategy)
    (hwarm : ∀ i bar, x[i]? = some bar → i + 1 < k + required → r.inWarmup bar = true) :
    ((r.on (x.drop k)).processBar index s).map (LoopState.later k) = (r.on x).processBar (k + index) (s.later k) := by
  unfold RunInput.processBar
  rw [on_normalized hx, on_normalized (sorted_drop hx), List.getElem?_drop]
  cases hbar : x[k + index]? with
  | none => rfl
  | some bar =>
    have hwarmup (frame : Frame) : (r.on frame).inWarmup bar = r.inWarmup bar := rfl
    simp only [hwarmup]
    split_ifs with hskip
    · rfl
    · have hindex : required ≤ index + 1 := by
        by_contra hlt
        exact hskip (hwarm (k + index) bar hbar (by omega))
      obtain ⟨hlt, -⟩ := List.getElem?_eq_some_iff.mp hbar
      have hsettle := settleBar_later bar s hx hdaily (signalAt_drop hx hstrategy hindex hlt)
      rw [← hsettle]
      cases (r.on (x.drop k)).settleBar bar index s with
      | error e => rfl
      | ok settled =>
        simp only [Except.map, ok_bind]
        have hdecide := decideEntry_later k index settled hx hdaily
        rw [← hdecide]
        cases (r.on (x.drop k)).decideEntry index settled with
        | error e => rfl
        | ok outcome => exact congrArg Except.ok applyEntry_later.symm

lemma stateAt_warm (hx : TimeSorted x) (hrequired : 1 ≤ required)
    (hwarm : ∀ i bar, x[i]? = some bar → i + 1 < k + required → r.inWarmup bar = true) :
    (r.on x).stateAt k = .ok r.initialState := by
  have hskip (i : ℕ) (hi : i < k) (s : LoopState) : (r.on x).processBar i s = .ok s := by
    rw [RunInput.processBar, on_normalized hx]
    cases hbar : x[i]? with
    | none => rfl
    | some bar => exact if_pos (hwarm i bar hbar (by omega))
  have hidle (n : ℕ) (hn : n ≤ k) : (r.on x).stateAt n = .ok r.initialState := by
    induction n with
    | zero => rfl
    | succ n ih =>
      change ((r.on x).stateAt n >>= (r.on x).processBar n) = _
      rw [ih (by omega)]
      exact hskip n (by omega) _
  exact hidle k le_rfl

theorem run_later (hx : TimeSorted x) (hdaily : r.intraday = false) (hstrategy : NeedsOnly required r.strategy)
    (hrequired : 1 ≤ required) (hk : k < x.length)
    (hwarm : ∀ i bar, x[i]? = some bar → i + 1 < k + required → r.inWarmup bar = true) :
    (r.on x).run = (r.on (x.drop k)).run.map (BacktestRun.later k) := by
  have hbars : (r.on x).totalBars = k + (r.on (x.drop k)).totalBars := by
    rw [on_totalBars hx, on_totalBars (sorted_drop hx), List.length_drop]
    omega
  have hpos : 0 < (r.on (x.drop k)).totalBars := by
    rw [on_totalBars (sorted_drop hx), List.length_drop]
    omega
  have hloop : (r.on x).stateAt (r.on x).totalBars =
      ((r.on (x.drop k)).stateAt (r.on (x.drop k)).totalBars).map (LoopState.later k) := by
    have hstart : (r.on x).stateAt k = .ok r.initialState := stateAt_warm hx hrequired hwarm
    rw [RunInput.stateAt, hbars, iterate_add]
    rw [RunInput.stateAt] at hstart
    rw [hstart, ok_bind]
    have hstep (i : ℕ) (s : LoopState) : ((r.on (x.drop k)).processBar i s).map (LoopState.later k) =
        (r.on x).processBar (k + i) (s.later k) := processBar_later hx hdaily hstrategy hwarm
    exact (iterate_map hstep r.initialState (r.on (x.drop k)).totalBars).symm
  have hend (s : LoopState) : ((r.on (x.drop k)).closeAtEnd s).map (LoopState.later k) =
      (r.on x).closeAtEnd (s.later k) := by
    unfold RunInput.closeAtEnd
    have hlast : (x.drop k).getLast? = x.getLast? := by
      rw [List.getLast?_drop, if_neg (by omega)]
    rw [on_normalized hx, on_normalized (sorted_drop hx), hlast]
    cases hopen : s.openTrade with
    | none => simp [LoopState.later, hopen, Except.map, pure, Except.pure]
    | some trade =>
      have hlater : (s.later k).openTrade = some (trade.later k) := by simp [LoopState.later, hopen]
      cases hfinal : x.getLast? with
      | none => simp [hlater, Except.map, pure, Except.pure]
      | some finalBar =>
        simp only [hlater, on_runConfig]
        have hside : (trade.later k).side = trade.side := rfl
        rw [hside]
        cases r.runConfig.costModel.exitFillPrice finalBar.close trade.side false with
        | error e => rfl
        | ok exitPrice =>
          have hindex : (r.on x).totalBars - 1 = k + ((r.on (x.drop k)).totalBars - 1) := by omega
          simp only [ok_bind, hindex]
          refine congrArg Except.ok ?_
          rw [← markLastCash_later, ← bookExit_later]
          rfl
  rw [RunInput.run, RunInput.run, hloop]
  cases (r.on (x.drop k)).stateAt (r.on (x.drop k)).totalBars with
  | error e => rfl
  | ok looped =>
    simp only [Except.map, ok_bind]
    rw [← hend]
    cases (r.on (x.drop k)).closeAtEnd looped with
    | error e => rfl
    | ok final => rfl

end Runs

lemma exists_drop_of_filter {α : Type*} {p : α → Bool} {l : List α} (h : l.Pairwise fun a b => p a → p b) :
    ∃ k, l.filter p = l.drop k := by
  induction l with
  | nil => exact ⟨0, rfl⟩
  | cons a rest ih =>
    obtain ⟨hafter, hrest⟩ := List.pairwise_cons.mp h
    by_cases ha : p a
    · refine ⟨0, List.filter_eq_self.mpr fun b hb => ?_⟩
      rcases List.mem_cons.mp hb with rfl | hb
      · exact ha
      · exact hafter b hb ha
    · obtain ⟨k, hk⟩ := ih hrest
      exact ⟨k + 1, by rw [List.filter_cons_of_neg ha, hk, List.drop_succ_cons]⟩

section Folds

variable {b : StrategyRun} {w : WalkForwardWindow}

/-- The bars of a fold run, were its training interval to start with the history. -/
def StrategyRun.wholeHistory (b : StrategyRun) (w : WalkForwardWindow) : Frame :=
  barsBefore b.history w.trainEnd ++ w.testDf

lemma later_zero (run : BacktestRun) : run.later 0 = run := by
  have htrade : OpenTrade.later 0 = id := funext fun trade => by simp [OpenTrade.later]
  have hclosed : ClosedTrade.later 0 = id := funext fun closed => by simp [ClosedTrade.later, htrade]
  simp [BacktestRun.later, LoopState.later, htrade, hclosed]

lemma wholeHistory_eq (h : CutFrom b.history w) :
    b.wholeHistory w = (normalizeData b.history).filter (w.reaches true) := by
  have hdeep : withWarmup w (some b.history) (w.trainDf.length + 1) = (normalizeData b.history).filter
      (w.reaches (decide (w.trainDf.length < w.trainDf.length + 1))) := withWarmup_eq h
  simp only [Nat.lt_succ_self, decide_true] at hdeep
  rw [← hdeep, withWarmup, if_pos (Nat.lt_succ_self _)]
  split_ifs with hempty
  · rw [StrategyRun.wholeHistory, hempty, List.nil_append]
  · rfl

lemma exists_trainDf_eq_drop (h : CutFrom b.history w) : ∃ k, w.trainDf = (barsBefore b.history w.trainEnd).drop k := by
  have hfilter : w.trainDf = (barsBefore b.history w.trainEnd).filter fun bar => w.trainStart ≤ bar.timestamp := by
    rw [h.train, trainBars, barsBefore, List.filter_filter]
    exact List.filter_congr fun bar _ => by simp
  rw [hfilter]
  refine exists_drop_of_filter (List.Pairwise.filter _ ((normalizeData_sorted b.history).imp fun {a c} hac => ?_))
  simpa using fun hstart => le_trans hstart hac

lemma windowRun_wholeHistory (h : CutFrom b.history w) (hdaily : b.config.barsPerYear ≤ dailyBarsPerYear)
    (hpos : 1 ≤ b.warmupBars) (hstrategy : NeedsOnly b.warmupBars b.strategy.generateSignal) :
    ∃ k, ((b.windowRun w).on (b.wholeHistory w)).run = (b.windowRun w).run.map (BacktestRun.later k) := by
  by_cases hdeep : w.trainDf.length < b.warmupBars
  · refine ⟨0, ?_⟩
    have hsame : (b.windowRun w).on (b.wholeHistory w) = b.windowRun w := by
      have hdata : b.wholeHistory w = (b.windowRun w).data := by
        rw [wholeHistory_eq h, windowRun_data h, decide_eq_true hdeep]
      rw [hdata]
      rfl
    rw [hsame]
    cases (b.windowRun w).run with
    | error e => rfl
    | ok run => exact congrArg Except.ok (later_zero run).symm
  · obtain ⟨k, hk⟩ := exists_trainDf_eq_drop h
    have htrain : w.trainDf ≠ [] := h.train ▸ h.train_ne
    have hlength : w.trainDf.length = (barsBefore b.history w.trainEnd).length - k := by rw [hk, List.length_drop]
    have hlt : 0 < w.trainDf.length := List.length_pos_iff.mpr htrain
    have hdata : (b.windowRun w).data = (b.wholeHistory w).drop k := by
      change withWarmup w (some b.history) b.warmupBars = _
      rw [withWarmup, if_neg hdeep, if_neg htrain, StrategyRun.wholeHistory, List.drop_append_of_le_length (by omega), ← hk]
    have hsorted : TimeSorted (b.wholeHistory w) := by
      rw [wholeHistory_eq h]
      exact List.Pairwise.filter _ (normalizeData_sorted b.history)
    have hwarm : ∀ i bar, (b.wholeHistory w)[i]? = some bar → i + 1 < k + b.warmupBars →
        (b.windowRun w).inWarmup bar = true := by
      intro i bar hbar hi
      have hbefore : i < (barsBefore b.history w.trainEnd).length := by omega
      rw [StrategyRun.wholeHistory, List.getElem?_append_left hbefore] at hbar
      have hmem := List.mem_filter.mp (List.mem_of_getElem? hbar)
      have htime : bar.timestamp < w.trainEnd := by simpa using hmem.2
      exact decide_eq_true (htime.trans_le w.trainEnd_le)
    have hnotIntraday : (b.windowRun w).intraday = false := decide_eq_false (not_lt.mpr hdaily)
    have hrun := run_later (r := b.windowRun w) (k := k) hsorted hnotIntraday hstrategy hpos ?_ hwarm
    · refine ⟨k, hrun.trans ?_⟩
      rw [← hdata]
      rfl
    · rw [StrategyRun.wholeHistory, List.length_append]
      omega

/-- However much history lies before its training interval, a daily fold of a strategy whose warm-up is
all it reads runs as it would over all of that history; so does the holdout. -/
theorem folds_over_whole_history (hdaily : b.config.barsPerYear ≤ dailyBarsPerYear) (hpos : 1 ≤ b.warmupBars)
    (hstrategy : NeedsOnly b.warmupBars b.strategy.generateSignal)
    {runs : List (WalkForwardWindow × BacktestRun)} (h : b.foldRuns = .ok runs) :
    (∀ fold ∈ runs, ∃ k, ((b.windowRun fold.1).on (b.wholeHistory fold.1)).run = .ok (fold.2.later k)) ∧
      ∀ fold, b.evaluateHoldout = some fold →
        ∃ k, ((b.windowRun fold.1).on (b.wholeHistory fold.1)).run = .ok (fold.2.later k) := by
  constructor
  · intro fold hfold
    obtain ⟨windows, hsplit, hw, hrun⟩ := mem_foldRuns h hfold
    rcases split_cases hsplit with ⟨_, rfl⟩ | ⟨_, _, _, _, hspec⟩
    · cases hw
    · obtain ⟨_, _, hyields⟩ := (hspec.mem fold.1).mp hw
      obtain ⟨k, hk⟩ := windowRun_wholeHistory (slice_sliced hyields.fold).cutFrom hdaily hpos hstrategy
      exact ⟨k, by rw [hk, hrun]; rfl⟩
  · intro fold hfold
    obtain ⟨hwindow, hrun⟩ := evaluateHoldout_cases hfold
    obtain ⟨_, hof⟩ := holdoutWindow_some hwindow
    obtain ⟨k, hk⟩ := windowRun_wholeHistory hof.sliced.cutFrom hdaily hpos hstrategy
    exact ⟨k, by rw [hk, hrun]; rfl⟩

end Folds

def risingFolds : StrategyRun where
  clock := easternStandard
  config := { costModel := zeroCostModel }
  strategy :=
    { name := "rising"
      requiredBars := some 1
      generateSignal := fun data => (data.getLast?.filter fun bar => bar.openPrice < bar.close).map fun _ =>
        { action := .buy, price := some 100, stopLoss := some 90, takeProfit := some 120 } }
  history := (List.range 7).map fun day => ⟨day * microsPerDay, 99, 101, 98, 100, 0⟩
  timeframe := "1D"
  splitter := { trainDays := 2, testDays := 1, stepDays := 1, embargoDays := 1, holdoutDays := 1 }

theorem risingFolds_over_whole_history : ∃ runs, risingFolds.foldRuns = .ok runs ∧
    (runs.map fun fold => ((risingFolds.windowRun fold.1).data.length, (risingFolds.wholeHistory fold.1).length)) =
      [(4, 4), (4, 5)] ∧
    ∀ fold ∈ runs, ∃ k,
      ((risingFolds.windowRun fold.1).on (risingFolds.wholeHistory fold.1)).run = .ok (fold.2.later k) := by
  have h : risingFolds.foldRuns.toOption.any (fun runs =>
      (runs.map fun fold => ((risingFolds.windowRun fold.1).data.length, (risingFolds.wholeHistory fold.1).length)) =
        [(4, 4), (4, 5)]) = true := by decide +kernel
  have hstrategy : NeedsOnly risingFolds.warmupBars risingFolds.strategy.generateSignal := by
    intro data k hk
    have hwarmup : risingFolds.warmupBars = 1 := by decide +kernel
    rw [hwarmup, List.length_drop] at hk
    change Option.map _ ((data.drop k).getLast?.filter _) = Option.map _ (data.getLast?.filter _)
    rw [List.getLast?_drop, if_neg (by omega)]
  obtain ⟨runs, hruns, hlengths⟩ := exists_ok_of_any h
  exact ⟨runs, hruns, by simpa using hlengths,
    (folds_over_whole_history (by decide +kernel) (by decide +kernel) hstrategy hruns).1⟩

end AlgoTrader.Backtesting
