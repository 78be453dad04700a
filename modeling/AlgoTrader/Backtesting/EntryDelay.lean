import AlgoTrader.Backtesting.NoOverlap

/-! The entry delay. An entry comes from the signal of ``entry_delay_bars`` bars back; the deque of recent
signals holds only signals of bars that ended flat and after which nothing was entered. -/

namespace AlgoTrader.Backtesting

open Utils.Time Models BoundedLoop

namespace RunInput

variable (r : RunInput)

-- The state after the exits of a bar, before its entry.
def settledAt (index : ℕ) : Except EngineError LoopState := do
  let s ← r.stateAt index
  match r.normalized[index]? with
  | none => pure s
  | some bar => r.settleBar bar index s

def FlatAfterExits (index : ℕ) : Prop := ∃ s, r.settledAt index = .ok s ∧ s.openTrade = none

def FlatAtEnd (index : ℕ) : Prop := ∃ s, r.stateAt (index + 1) = .ok s ∧ s.openTrade = none

def FillsFrom (signal : Signal) (trade : OpenTrade) : Prop :=
  ∃ bar settled cashAfter, r.normalized[trade.entryBarIndex]? = some bar ∧
    r.settledAt (trade.entryBarIndex - 1) = .ok settled ∧
    attemptEntry r.clock r.runConfig signal bar settled.cash trade.entryBarIndex
      (r.minStopDistance (trade.entryBarIndex - 1)) = .ok (some ⟨trade, cashAfter⟩)

structure StemsFrom (opened : List OpenTrade) (trade : OpenTrade) (index : ℕ) : Prop where
  bar : trade.entryBarIndex = index + 1 + r.delay
  evaluated : r.evaluated index
  signal : ∃ signal, r.signalAt index = some signal ∧ opensPosition signal r.runConfig.shortEntries = true ∧
    r.FillsFrom signal trade
  flat : r.FlatAfterExits index
  flat_at_end : 0 < r.delay → r.FlatAtEnd index
  in_session : ∀ m, index ≤ m → m < trade.entryBarIndex → r.atSessionEnd m = false
  alone : ∀ other ∈ opened, index < other.entryBarIndex → trade.entryBarIndex ≤ other.entryBarIndex

structure EntryDelayLaw (opened : List OpenTrade) : Prop where
  stems : ∀ trade ∈ opened, ∃ index, r.StemsFrom opened trade index
  used_once : opened.Pairwise fun a b => ∀ i j, r.StemsFrom opened a i → r.StemsFrom opened b j → i ≠ j

end RunInput

variable {r : RunInput} {index : ℕ} {s t : LoopState}

structure Queued (r : RunInput) (opened : List OpenTrade) (index : ℕ) (signal : Signal) : Prop where
  evaluated : r.evaluated index
  generated : r.signalAt index = some signal
  flat : r.FlatAfterExits index
  flat_at_end : r.FlatAtEnd index
  nothing_after : ∀ trade ∈ opened, trade.entryBarIndex ≤ index

structure QueueKept (r : RunInput) (index : ℕ) (s : LoopState) : Prop where
  queued : ∀ p ∈ s.recentSignals, ∀ signal, p.2 = some signal → Queued r s.opened p.1 signal
  stems : ∀ trade ∈ s.opened, ∃ i, r.StemsFrom s.opened trade i
  up_to : ∀ trade ∈ s.opened, trade.entryBarIndex ≤ index
  increasing : s.opened.Pairwise fun a b => a.entryBarIndex < b.entryBarIndex

lemma settleBar_queue {bar : Bar} (h : r.settleBar bar index s = .ok t) :
    t.opened = s.opened ∧ ∀ p ∈ t.recentSignals, ∀ signal, p.2 = some signal →
      p ∈ s.recentSignals ∨ (p.1 = index ∧ t.openTrade = none ∧ r.signalAt index = some signal) := by
  obtain ⟨u, rfl, hu⟩ := settleBar_cases h
  have hsame : u.opened = s.opened ∧ u.recentSignals = s.recentSignals := by
    rcases hu with ⟨rfl, _⟩ | ⟨trade, action, _, _, rfl⟩ <;> exact ⟨rfl, rfl⟩
  refine ⟨hsame.1, ?_⟩
  intro p hp signal hsignal
  rw [← hsame.2]
  exact mem_recordSignal hp hsignal

lemma settledAt_ok {bar : Bar} (hbar : r.normalized[index]? = some bar) (hstate : r.stateAt index = .ok s)
    (h : r.settleBar bar index s = .ok t) : r.settledAt index = .ok t := by
  rw [RunInput.settledAt, hstate, ok_bind, hbar]
  exact h

lemma RunInput.StemsFrom.append {opened : List OpenTrade} {trade new : OpenTrade} {i : ℕ}
    (h : r.StemsFrom opened trade i) (hlater : trade.entryBarIndex ≤ new.entryBarIndex) :
    r.StemsFrom (opened ++ [new]) trade i := by
  refine { h with alone := ?_ }
  intro other hother hafter
  rcases List.mem_append.mp hother with hold | hnew
  · exact h.alone other hold hafter
  · rwa [List.mem_singleton.mp hnew]

section Bar

variable {bar : Bar} {settled : LoopState}

lemma queueKept_unfilled (hs : QueueKept r index s) (hstate : r.stateAt index = .ok s)
    (hbar : r.normalized[index]? = some bar) (hwarm : r.inWarmup bar = false)
    (hsettle : r.settleBar bar index s = .ok settled) (hnext : r.stateAt (index + 1) = .ok t)
    (hopened : t.opened = settled.opened) (hrecent : t.recentSignals = settled.recentSignals)
    (hopen : t.openTrade = settled.openTrade) : QueueKept r (index + 1) t := by
  obtain ⟨hsame, hqueue⟩ := settleBar_queue hsettle
  rw [hsame] at hopened
  refine ⟨?_, ?_, ?_, ?_⟩
  · intro p hp signal hsignal
    rw [hrecent] at hp
    rw [hopened]
    rcases hqueue p hp signal hsignal with hold | ⟨hindex, hflat, hgenerated⟩
    · exact hs.queued p hold signal hsignal
    · have hsettled := settledAt_ok hbar hstate hsettle
      rw [hindex]
      exact ⟨⟨bar, hbar, hwarm⟩, hgenerated, ⟨settled, hsettled, hflat⟩, ⟨t, hnext, hopen.trans hflat⟩, hs.up_to⟩
  · rw [hopened]
    exact hs.stems
  · rw [hopened]
    exact fun trade h => (hs.up_to trade h).trans (Nat.le_succ index)
  · rw [hopened]
    exact hs.increasing

lemma acted_signal (hs : QueueKept r index s) (hstate : r.stateAt index = .ok s)
    (hbar : r.normalized[index]? = some bar) (hwarm : r.inWarmup bar = false)
    (hsettle : r.settleBar bar index s = .ok settled) {i : ℕ} {signal : Signal}
    (hmem : (i, some signal) ∈ settled.recentSignals) (hi : i + r.delay = index) :
    r.evaluated i ∧ r.signalAt i = some signal ∧ r.FlatAfterExits i ∧ (0 < r.delay → r.FlatAtEnd i) ∧
      ∀ trade ∈ s.opened, trade.entryBarIndex ≤ i := by
  rcases (settleBar_queue hsettle).2 _ hmem signal rfl with hold | ⟨hindex, hflat, hgenerated⟩
  · have hqueued := hs.queued _ hold signal rfl
    exact ⟨hqueued.evaluated, hqueued.generated, hqueued.flat, fun _ => hqueued.flat_at_end, hqueued.nothing_after⟩
  · obtain rfl : i = index := hindex
    refine ⟨⟨bar, hbar, hwarm⟩, hgenerated, ⟨settled, settledAt_ok hbar hstate hsettle, hflat⟩, ?_, hs.up_to⟩
    intro hdelay
    omega

lemma queueKept_filled {attempt : EntryAttempt} (hs : QueueKept r index s) (hstate : r.stateAt index = .ok s)
    (hbar : r.normalized[index]? = some bar) (hwarm : r.inWarmup bar = false)
    (hsettle : r.settleBar bar index s = .ok settled) (hdecide : r.decideEntry index settled = .ok (.filled attempt)) :
    QueueKept r (index + 1) ((settled.enter attempt).mark bar) := by
  obtain ⟨signal, next, hsignal, _, hend, hopens, hnext, hattempt⟩ := decideEntry_filled hdecide
  obtain ⟨i, hmem, hi, hsession⟩ := entrySignal_some hsignal
  obtain ⟨hevaluated, hgenerated, hflat, hflatEnd, hafter⟩ := acted_signal hs hstate hbar hwarm hsettle hmem hi
  have hentry : attempt.openTrade.entryBarIndex = index + 1 := (attemptEntry_some hattempt).barIndex
  have hopened : ((settled.enter attempt).mark bar).opened = s.opened ++ [attempt.openTrade] := by
    rw [mark_opened, enter_opened, (settleBar_queue hsettle).1]
  have hnew : r.StemsFrom (s.opened ++ [attempt.openTrade]) attempt.openTrade i := {
    bar := by omega
    evaluated := hevaluated
    signal := by
      refine ⟨signal, hgenerated, hopens, next, settled, attempt.cashAfterEntry, ?_, ?_, ?_⟩
      · rw [hentry, hnext]
      · rw [hentry]
        exact settledAt_ok hbar hstate hsettle
      · rw [hentry]
        exact hattempt
    flat := hflat
    flat_at_end := hflatEnd
    in_session := by
      intro m him hm
      rcases (show m < index ∨ m = index by omega) with hlt | rfl
      · exact hsession m him hlt
      · exact hend
    alone := by
      intro other hother hlater
      rcases List.mem_append.mp hother with hold | hlast
      · exact absurd (hafter other hold) hlater.not_ge
      · rw [List.mem_singleton.mp hlast] }
  refine ⟨?_, ?_, ?_, ?_⟩
  · intro p hp
    simp at hp
  · rw [hopened]
    intro trade htrade
    rcases List.mem_append.mp htrade with hold | hlast
    · obtain ⟨j, hj⟩ := hs.stems trade hold
      have hle := hs.up_to trade hold
      exact ⟨j, hj.append (by omega)⟩
    · rw [List.mem_singleton.mp hlast]
      exact ⟨i, hnew⟩
  · rw [hopened]
    intro trade htrade
    rcases List.mem_append.mp htrade with hold | hlast
    · exact (hs.up_to trade hold).trans (Nat.le_succ index)
    · rw [List.mem_singleton.mp hlast, hentry]
  · rw [hopened]
    refine List.pairwise_append.mpr ⟨hs.increasing, List.pairwise_singleton _ _, ?_⟩
    intro a ha b hb
    have hle := hs.up_to a ha
    rw [List.mem_singleton.mp hb, hentry]
    omega

end Bar

lemma queueKept_processBar (hstate : r.stateAt index = .ok s) (h : r.processBar index s = .ok t)
    (hs : QueueKept r index s) : QueueKept r (index + 1) t := by
  have hnext : r.stateAt (index + 1) = .ok t := iterate_succ_ok.mpr ⟨s, hstate, h⟩
  rcases processBar_cases h with ⟨_, rfl⟩ | ⟨bar, settled, outcome, hbar, hwarm, hsettle, hdecide, rfl⟩
  · exact ⟨hs.queued, hs.stems, fun trade h => (hs.up_to trade h).trans (Nat.le_succ index), hs.increasing⟩
  · cases outcome with
    | dropped => exact queueKept_unfilled hs hstate hbar hwarm hsettle hnext rfl rfl rfl
    | notTaken => exact queueKept_unfilled hs hstate hbar hwarm hsettle hnext rfl rfl rfl
    | filled attempt => exact queueKept_filled hs hstate hbar hwarm hsettle hdecide

lemma queueKept_stateAt (h : r.stateAt index = .ok s) : QueueKept r index s := by
  refine invariant (P := QueueKept r) ?_ ?_ h
  · exact ⟨by simp [RunInput.initialState], by simp [RunInput.initialState], by simp [RunInput.initialState],
      by simp [RunInput.initialState]⟩
  · intro i a b _ ha hkept hb
    exact queueKept_processBar ha hb hkept

lemma QueueKept.law (h : QueueKept r index s) : r.EntryDelayLaw s.opened := by
  refine ⟨h.stems, h.increasing.imp ?_⟩
  rintro a b hlt i j hi hj rfl
  have ha := hi.bar
  have hb := hj.bar
  omega

lemma opened_final {run : BacktestRun} (h : r.run = .ok run) :
    ∃ looped, r.stateAt r.totalBars = .ok looped ∧ run.final.opened = looped.opened := by
  obtain ⟨looped, hlooped, hfinal, _⟩ := run_cases h
  refine ⟨looped, hlooped, ?_⟩
  rcases closeAtEnd_cases hfinal with ⟨hsame, _⟩ | ⟨_, _, _, _, _, _, _, _, _, hclosed⟩
  · rw [hsame]
  · rw [hclosed]
    rfl

namespace RunInput

variable (r : RunInput)

def actOn (index : ℕ) (s : LoopState) (signal : Option Signal) : Except EngineError EntryOutcome :=
  match signal with
  | none => pure .notTaken
  | some signal =>
    if s.openTrade.isNone ∧ !r.atSessionEnd index ∧ opensPosition signal r.runConfig.shortEntries then
      match maybeNextBar r.normalized index with
      | none => pure .dropped
      | some nextBar => do
        let attempt ← attemptEntry r.clock r.runConfig signal nextBar s.cash (index + 1)
          (r.minStopDistance index)
        match attempt with
        | none => pure .dropped
        | some entry => pure (.filled entry)
    else pure .notTaken

/-- The bar of a loop without a deque, which acts on the signal it has just read. -/
def enterDirectly (index : ℕ) (s : LoopState) : Except EngineError LoopState :=
  match r.normalized[index]? with
  | none => pure s
  | some bar =>
    if r.inWarmup bar then pure s
    else do
      let exited ← r.handleExit bar index s
      let flattened ← r.flattenSession bar index exited
      let outcome ← r.actOn index flattened (r.signalAt index)
      pure (applyEntry bar flattened outcome)

def directRun : Except EngineError BacktestRun := do
  let looped ← BoundedLoop.iterate r.enterDirectly r.initialState r.totalBars
  let final ← r.closeAtEnd looped
  let endingCash := final.equityCurve.getLast?.getD r.runConfig.initialCash
  pure
    { final := final
      endingCash := endingCash
      metrics := compileMetrics final.equityCurve r.runConfig.initialCash endingCash }

end RunInput

def LoopState.withoutDeque (s : LoopState) : LoopState := { s with recentSignals := [] }

def BacktestRun.withoutDeque (run : BacktestRun) : BacktestRun := { run with final := run.final.withoutDeque }

section Direct

variable {bar : Bar}

lemma decideEntry_eq_actOn :
    r.decideEntry index s = r.actOn index s (entrySignal s.recentSignals index r.delay r.sessionEnds) := rfl

lemma actOn_flat_signal {signal : Option Signal} :
    r.actOn index s (if s.openTrade.isNone then signal else none) = r.actOn index s signal := by
  cases hopen : s.openTrade with
  | none => rfl
  | some trade => cases signal <;> simp [RunInput.actOn, hopen]

lemma entrySignal_no_delay {signal : Option Signal} (hdelay : r.delay = 0) :
    entrySignal (s.recordSignal index r.delay signal).recentSignals index r.delay r.sessionEnds =
      if s.openTrade.isNone then signal else none := by
  simp [LoopState.recordSignal, entrySignal, hdelay]

@[simp] lemma withoutDeque_openTrade : s.withoutDeque.openTrade = s.openTrade := rfl

lemma handleExit_withoutDeque :
    (r.handleExit bar index s).map LoopState.withoutDeque = r.handleExit bar index s.withoutDeque := by
  rw [RunInput.handleExit, RunInput.handleExit, withoutDeque_openTrade]
  cases s.openTrade with
  | none => rfl
  | some trade =>
    dsimp only
    cases evaluateExit r.clock r.runConfig trade bar (r.signalAt index) index (maybeNextBar r.normalized index) with
    | error e => rfl
    | ok exitAction => cases exitAction <;> rfl

lemma flattenSession_withoutDeque :
    (r.flattenSession bar index s).map LoopState.withoutDeque = r.flattenSession bar index s.withoutDeque := by
  rw [RunInput.flattenSession, RunInput.flattenSession, withoutDeque_openTrade]
  cases s.openTrade with
  | none => rfl
  | some trade =>
    dsimp only
    split_ifs
    · cases r.runConfig.costModel.exitFillPrice bar.close trade.side false <;> rfl
    · rfl

lemma applyEntry_withoutDeque (outcome : EntryOutcome) {delay : ℕ} {signal : Option Signal} :
    (RunInput.applyEntry bar (s.recordSignal index delay signal) outcome).withoutDeque =
      RunInput.applyEntry bar s.withoutDeque outcome := by
  cases outcome <;> rfl

lemma decideEntry_no_delay (hdelay : r.delay = 0) :
    r.decideEntry index (s.recordSignal index r.delay (r.signalAt index)) =
      r.actOn index s.withoutDeque (r.signalAt index) := by
  rw [decideEntry_eq_actOn, entrySignal_no_delay hdelay]
  exact actOn_flat_signal (s := s.withoutDeque)

lemma processBar_withoutDeque (hdelay : r.delay = 0) (index : ℕ) (s : LoopState) :
    (r.processBar index s).map LoopState.withoutDeque = r.enterDirectly index s.withoutDeque := by
  rw [RunInput.processBar, RunInput.enterDirectly]
  cases r.normalized[index]? with
  | none => rfl
  | some bar =>
    dsimp only
    split_ifs
    · rfl
    · rw [RunInput.settleBar, ← handleExit_withoutDeque]
      cases r.handleExit bar index s with
      | error e => rfl
      | ok exited =>
        simp only [Except.map, ok_bind]
        rw [← flattenSession_withoutDeque]
        cases r.flattenSession bar index exited with
        | error e => rfl
        | ok flattened =>
          simp only [Except.map, ok_bind, pure_bind]
          rw [decideEntry_no_delay hdelay]
          cases r.actOn index flattened.withoutDeque (r.signalAt index) with
          | error e => rfl
          | ok outcome => exact congrArg Except.ok (applyEntry_withoutDeque outcome)

lemma closeAtEnd_withoutDeque :
    (r.closeAtEnd s).map LoopState.withoutDeque = r.closeAtEnd s.withoutDeque := by
  rw [RunInput.closeAtEnd, RunInput.closeAtEnd, withoutDeque_openTrade]
  cases s.openTrade with
  | none => rfl
  | some trade =>
    cases r.normalized.getLast? with
    | none => rfl
    | some finalBar =>
      dsimp only
      cases r.runConfig.costModel.exitFillPrice finalBar.close trade.side false <;> rfl

lemma run_withoutDeque (hdelay : r.delay = 0) : r.run.map BacktestRun.withoutDeque = r.directRun := by
  have hloop := iterate_map (processBar_withoutDeque hdelay) r.initialState r.totalBars
  have hinit : r.initialState.withoutDeque = r.initialState := rfl
  rw [hinit] at hloop
  rw [RunInput.run, RunInput.directRun, ← hloop, RunInput.stateAt]
  cases BoundedLoop.iterate r.processBar r.initialState r.totalBars with
  | error e => rfl
  | ok looped =>
    simp only [Except.map, ok_bind]
    rw [← closeAtEnd_withoutDeque]
    cases r.closeAtEnd looped <;> rfl

end Direct

theorem entry_delay_law (r : RunInput) :
    (∀ index s, r.stateAt index = .ok s → r.EntryDelayLaw s.opened) ∧
      (∀ run, r.run = .ok run → r.EntryDelayLaw (run.closed.map (·.trade))) ∧
        (r.delay = 0 → r.run.map BacktestRun.withoutDeque = r.directRun) := by
  refine ⟨fun index s h => (queueKept_stateAt h).law, ?_, run_withoutDeque⟩
  intro run h
  obtain ⟨looped, hlooped, hopened⟩ := opened_final h
  rw [closed_opened h, hopened]
  exact (queueKept_stateAt hlooped).law

def reentryOneBarLate : RunInput :=
  { reentryFilled with
    config := { reentryFilled.config with entryDelayBars := 1 }
    data := reentryFilled.data ++ [⟨4 * microsPerDay, 110, 112, 108, 111, 0⟩] }

theorem entry_delay_law_one_bar_late : ∃ run, reentryOneBarLate.run = .ok run ∧
    run.closed.map (·.trade.entryBarIndex) = [2, 4] ∧ reentryOneBarLate.EntryDelayLaw (run.closed.map (·.trade)) := by
  have h : reentryOneBarLate.run.toOption.any (fun run => run.closed.map (·.trade.entryBarIndex) = [2, 4]) = true := by
    decide +kernel
  obtain ⟨run, hrun, htwo⟩ := exists_ok_of_any h
  exact ⟨run, hrun, by simpa using htwo, (entry_delay_law reentryOneBarLate).2.1 run hrun⟩

end AlgoTrader.Backtesting
