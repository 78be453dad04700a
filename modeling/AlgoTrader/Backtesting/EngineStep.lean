import AlgoTrader.Backtesting.EngineRun

/-! What the processing of one bar can do: one specification lemma for each function of the
loop. The results about whole runs use these lemmas and never unfold the loop's body. -/

namespace AlgoTrader.Backtesting

open Utils.Time Models BoundedLoop

section Fields

variable (s : LoopState) (m : CostModel) (trade : OpenTrade) (action : ExitAction)

@[simp] lemma bookExit_openTrade : (s.bookExit m trade action).openTrade = none := rfl

@[simp] lemma bookExit_cash :
    (s.bookExit m trade action).cash = s.cash + realizedProceeds m trade action := rfl

@[simp] lemma bookExit_equityCurve : (s.bookExit m trade action).equityCurve = s.equityCurve := rfl

@[simp] lemma bookExit_recentSignals :
    (s.bookExit m trade action).recentSignals = s.recentSignals := rfl

@[simp] lemma bookExit_opened : (s.bookExit m trade action).opened = s.opened := rfl

@[simp] lemma bookExit_trades : (s.bookExit m trade action).trades =
    s.trades ++ [⟨trade, action.fillBarIndex, (closeTrade m trade action).tradeRecord⟩] := rfl

variable (index delay : ℕ) (signal : Option Signal)

@[simp] lemma recordSignal_openTrade : (s.recordSignal index delay signal).openTrade = s.openTrade := rfl

@[simp] lemma recordSignal_cash : (s.recordSignal index delay signal).cash = s.cash := rfl

@[simp] lemma recordSignal_equityCurve :
    (s.recordSignal index delay signal).equityCurve = s.equityCurve := rfl

@[simp] lemma recordSignal_trades : (s.recordSignal index delay signal).trades = s.trades := rfl

@[simp] lemma recordSignal_opened : (s.recordSignal index delay signal).opened = s.opened := rfl

variable (attempt : EntryAttempt)

@[simp] lemma enter_openTrade : (s.enter attempt).openTrade = some attempt.openTrade := rfl

@[simp] lemma enter_cash : (s.enter attempt).cash = attempt.cashAfterEntry := rfl

@[simp] lemma enter_equityCurve : (s.enter attempt).equityCurve = s.equityCurve := rfl

@[simp] lemma enter_trades : (s.enter attempt).trades = s.trades := rfl

@[simp] lemma enter_opened : (s.enter attempt).opened = s.opened ++ [attempt.openTrade] := rfl

@[simp] lemma enter_recentSignals : (s.enter attempt).recentSignals = [] := rfl

variable (bar : Bar)

@[simp] lemma mark_openTrade : (s.mark bar).openTrade = s.openTrade := rfl

@[simp] lemma mark_cash : (s.mark bar).cash = s.cash := rfl

@[simp] lemma mark_trades : (s.mark bar).trades = s.trades := rfl

@[simp] lemma mark_opened : (s.mark bar).opened = s.opened := rfl

@[simp] lemma mark_recentSignals : (s.mark bar).recentSignals = s.recentSignals := rfl

@[simp] lemma mark_equityCurve :
    (s.mark bar).equityCurve = s.equityCurve ++ [markToMarket s.cash s.openTrade bar] := rfl

@[simp] lemma markLastCash_openTrade : s.markLastCash.openTrade = s.openTrade := rfl

@[simp] lemma markLastCash_cash : s.markLastCash.cash = s.cash := rfl

@[simp] lemma markLastCash_trades : s.markLastCash.trades = s.trades := rfl

@[simp] lemma markLastCash_opened : s.markLastCash.opened = s.opened := rfl

lemma markLastCash_equityCurve (h : s.equityCurve ≠ []) :
    s.markLastCash.equityCurve = s.equityCurve.dropLast ++ [s.cash] := if_neg h

end Fields

@[simp] lemma closeTrade_pnlUsd (m : CostModel) (trade : OpenTrade) (action : ExitAction) :
    (closeTrade m trade action).tradeRecord.pnlUsd =
      realizedProceeds m trade action - trade.entryNotional := rfl

@[simp] lemma closeTrade_reason (m : CostModel) (trade : OpenTrade) (action : ExitAction) :
    (closeTrade m trade action).tradeRecord.reason = action.reason := rfl

/-- An exit fills on the bar being processed, except a strategy exit, which fills at the
open of the next one. -/
inductive ExitFill (m : CostModel) (bars : Frame) (index : ℕ) (trade : OpenTrade) : ExitAction → Prop
  | onBar {action : ExitAction} (bar : Bar) (rawFill : ℚ) (extended : Bool)
      (hbar : bars[index]? = some bar)
      (hfill : m.exitFillPrice rawFill trade.side extended = .ok action.fillPrice)
      (htime : action.fillTime = bar.timestamp) (hindex : action.fillBarIndex = index)
      (hreason : action.reason ≠ .strategyExit) : ExitFill m bars index trade action
  | nextOpen {action : ExitAction} (next : Bar) (extended : Bool)
      (hnext : bars[index + 1]? = some next)
      (hfill : m.exitFillPrice next.openPrice trade.side extended = .ok action.fillPrice)
      (htime : action.fillTime = next.timestamp) (hindex : action.fillBarIndex = index + 1)
      (hreason : action.reason = .strategyExit) : ExitFill m bars index trade action

lemma ExitFill.timestamp {m : CostModel} {bars : Frame} {index : ℕ} {trade : OpenTrade}
    {action : ExitAction} (h : ExitFill m bars index trade action) :
    (bars[action.fillBarIndex]?).map (·.timestamp) = some action.fillTime := by
  cases h with
  | onBar bar _ _ hbar _ htime hindex _ => simp [hindex, hbar, htime]
  | nextOpen next _ hnext _ htime hindex _ => simp [hindex, hnext, htime]

lemma ExitFill.index_le {m : CostModel} {bars : Frame} {index : ℕ} {trade : OpenTrade}
    {action : ExitAction} (h : ExitFill m bars index trade action) : index ≤ action.fillBarIndex := by
  cases h with
  | onBar _ _ _ _ _ _ hindex _ => omega
  | nextOpen _ _ _ _ _ hindex _ => omega

lemma ExitFill.ended {m : CostModel} {bars : Frame} {index : ℕ} {trade : OpenTrade}
    {action : ExitAction} (h : ExitFill m bars index trade action) : action.fillBarIndex < index + 1 ∨
      (action.fillBarIndex = index + 1 ∧ action.reason = .strategyExit) := by
  cases h with
  | onBar _ _ _ _ _ _ hindex _ => exact .inl (by omega)
  | nextOpen _ _ _ _ _ hindex hreason => exact .inr ⟨hindex, hreason⟩

lemma stopOrTarget_reason {trade : OpenTrade} {bar : Bar} {rawFill : ℚ} {reason : ExitReason}
    (h : stopOrTarget trade bar = some (rawFill, reason)) : reason = .stopLoss ∨ reason = .takeProfit := by
  rw [stopOrTarget] at h
  split at h <;> split at h <;> simp_all

lemma evaluateExit_some {clock : NewYorkClock} {config : EngineConfig} {trade : OpenTrade} {bar : Bar}
    {signal : Option Signal} {index : ℕ} {bars : Frame} {action : ExitAction}
    (hbar : bars[index]? = some bar)
    (h : evaluateExit clock config trade bar signal index (maybeNextBar bars index) = .ok (some action)) :
    ExitFill config.costModel bars index trade action ∧
      (action.reason = .strategyExit → ∃ sig, signal = some sig ∧ sig.action = closingAction trade.side) := by
  rw [maybeNextBar_eq] at h
  unfold evaluateExit at h
  dsimp only at h
  split_ifs at h with hstop
  · obtain ⟨fill, hfill, ha⟩ := (bind_eq_ok _ _ _).mp h
    obtain rfl := Option.some.inj ((pure_eq_ok _ _).mp ha)
    exact ⟨.onBar bar _ _ hbar hfill rfl rfl (by simp), by simp⟩
  · cases hlevel : stopOrTarget trade bar with
    | some level =>
      obtain ⟨rawFill, reason⟩ := level
      simp only [hlevel] at h
      obtain ⟨fill, hfill, ha⟩ := (bind_eq_ok _ _ _).mp h
      obtain rfl := Option.some.inj ((pure_eq_ok _ _).mp ha)
      have hreason : reason ≠ .strategyExit := by
        rcases stopOrTarget_reason hlevel with rfl | rfl <;> simp
      exact ⟨.onBar bar _ _ hbar hfill rfl rfl hreason, fun he => absurd he hreason⟩
    | none =>
      simp only [hlevel] at h
      cases signal with
      | none => simp at h
      | some sig =>
        cases hnext : bars[index + 1]? with
        | none => simp [hnext] at h
        | some next =>
          simp only [hnext] at h
          split_ifs at h with hact
          · obtain ⟨fill, hfill, ha⟩ := (bind_eq_ok _ _ _).mp h
            obtain rfl := Option.some.inj ((pure_eq_ok _ _).mp ha)
            exact ⟨.nextOpen next _ hnext hfill rfl rfl rfl, fun _ => ⟨sig, rfl, hact⟩⟩
          · simp at h

inductive BarExit (r : RunInput) (bar : Bar) (index : ℕ) (trade : OpenTrade) : ExitAction → Prop
  | evaluated {action : ExitAction}
      (h : evaluateExit r.clock r.runConfig trade bar (r.signalAt index) index
        (maybeNextBar r.normalized index) = .ok (some action)) : BarExit r bar index trade action
  | flattened {exitPrice : ℚ} (hend : r.atSessionEnd index = true)
      (hnone : evaluateExit r.clock r.runConfig trade bar (r.signalAt index) index
        (maybeNextBar r.normalized index) = .ok none)
      (hfill : r.runConfig.costModel.exitFillPrice bar.close trade.side false = .ok exitPrice) :
      BarExit r bar index trade ⟨exitPrice, bar.timestamp, index, .sessionClose⟩

lemma BarExit.fill {r : RunInput} {bar : Bar} {index : ℕ} {trade : OpenTrade} {action : ExitAction}
    (hbar : r.normalized[index]? = some bar) (h : BarExit r bar index trade action) :
    ExitFill r.runConfig.costModel r.normalized index trade action := by
  cases h with
  | evaluated h => exact (evaluateExit_some hbar h).1
  | flattened hend _ hfill => exact .onBar bar _ _ hbar hfill rfl rfl (by simp)

lemma BarExit.unique {r : RunInput} {bar : Bar} {index : ℕ} {trade : OpenTrade} {a b : ExitAction}
    (ha : BarExit r bar index trade a) (hb : BarExit r bar index trade b) : a = b := by
  cases ha with
  | evaluated ha =>
    cases hb with
    | evaluated hb => simpa using ha.symm.trans hb
    | flattened _ hnone _ => simp [hnone] at ha
  | flattened _ hnone hfill =>
    cases hb with
    | evaluated hb => simp [hnone] at hb
    | flattened _ _ hfill' => rw [Except.ok.inj (hfill.symm.trans hfill')]

section Settle

variable {r : RunInput} {bar : Bar} {index : ℕ} {s t : LoopState}

lemma handleExit_cases (h : r.handleExit bar index s = .ok t) :
    (t = s ∧ ∀ trade, s.openTrade = some trade →
      evaluateExit r.clock r.runConfig trade bar (r.signalAt index) index
        (maybeNextBar r.normalized index) = .ok none) ∨
    ∃ trade action, s.openTrade = some trade ∧
      evaluateExit r.clock r.runConfig trade bar (r.signalAt index) index
        (maybeNextBar r.normalized index) = .ok (some action) ∧
      t = s.bookExit r.runConfig.costModel trade action := by
  rw [RunInput.handleExit] at h
  cases hopen : s.openTrade with
  | none =>
    simp only [hopen, pure_eq_ok] at h
    exact .inl ⟨h.symm, by simp⟩
  | some trade =>
    simp only [hopen] at h
    obtain ⟨exitAction, hexit, ht⟩ := (bind_eq_ok _ _ _).mp h
    cases exitAction with
    | none =>
      refine .inl ⟨((pure_eq_ok _ _).mp ht).symm, ?_⟩
      rintro _ ⟨⟩
      exact hexit
    | some action => exact .inr ⟨trade, action, rfl, hexit, ((pure_eq_ok _ _).mp ht).symm⟩

lemma flattenSession_cases (h : r.flattenSession bar index s = .ok t) :
    (t = s ∧ (s.openTrade = none ∨ r.atSessionEnd index = false)) ∨
    ∃ trade exitPrice, s.openTrade = some trade ∧ r.atSessionEnd index = true ∧
      r.runConfig.costModel.exitFillPrice bar.close trade.side false = .ok exitPrice ∧
      t = s.bookExit r.runConfig.costModel trade ⟨exitPrice, bar.timestamp, index, .sessionClose⟩ := by
  rw [RunInput.flattenSession] at h
  cases hopen : s.openTrade with
  | none =>
    simp only [hopen, pure_eq_ok] at h
    exact .inl ⟨h.symm, .inl rfl⟩
  | some trade =>
    simp only [hopen] at h
    split_ifs at h with hend
    · obtain ⟨exitPrice, hfill, ht⟩ := (bind_eq_ok _ _ _).mp h
      exact .inr ⟨trade, exitPrice, rfl, hend, hfill, ((pure_eq_ok _ _).mp ht).symm⟩
    · exact .inl ⟨((pure_eq_ok _ _).mp h).symm, .inr (by simpa using hend)⟩

lemma settleBar_cases (h : r.settleBar bar index s = .ok t) :
    ∃ u, t = u.recordSignal index r.delay (r.signalAt index) ∧
      ((u = s ∧ ∀ trade, s.openTrade = some trade → r.atSessionEnd index = false ∧
          evaluateExit r.clock r.runConfig trade bar (r.signalAt index) index
            (maybeNextBar r.normalized index) = .ok none) ∨
        ∃ trade action, s.openTrade = some trade ∧ BarExit r bar index trade action ∧
          u = s.bookExit r.runConfig.costModel trade action) := by
  rw [RunInput.settleBar] at h
  obtain ⟨v, hv, h⟩ := (bind_eq_ok _ _ _).mp h
  obtain ⟨u, hu, h⟩ := (bind_eq_ok _ _ _).mp h
  refine ⟨u, ((pure_eq_ok _ _).mp h).symm, ?_⟩
  rcases handleExit_cases hv with ⟨rfl, hnone⟩ | ⟨trade, action, hopen, hexit, rfl⟩
  · rcases flattenSession_cases hu with ⟨rfl, hflat⟩ | ⟨trade, exitPrice, hopen, hend, hfill, rfl⟩
    · refine .inl ⟨rfl, fun trade hopen => ⟨?_, hnone trade hopen⟩⟩
      simpa [hopen] using hflat
    · exact .inr ⟨trade, _, hopen, .flattened hend (hnone trade hopen) hfill, rfl⟩
  · rcases flattenSession_cases hu with ⟨rfl, _⟩ | ⟨trade', _, hopen', _⟩
    · exact .inr ⟨trade, action, hopen, .evaluated hexit, rfl⟩
    · simp at hopen'

end Settle

section Entry

variable {clock : NewYorkClock} {config : EngineConfig} {signal : Signal} {next : Bar} {cash : ℚ}
  {fillBarIndex : ℕ} {minStopDistance : ℚ} {attempt : EntryAttempt}

structure EntryFill (clock : NewYorkClock) (config : EngineConfig) (signal : Signal) (next : Bar)
    (cash : ℚ) (fillBarIndex : ℕ) (attempt : EntryAttempt) : Prop where
  plan : signal.validPlan = true
  cashAfter : attempt.cashAfterEntry = cash - attempt.openTrade.entryNotional
  barIndex : attempt.openTrade.entryBarIndex = fillBarIndex
  time : attempt.openTrade.entryTime = next.timestamp
  side : attempt.openTrade.side = entrySide config
  price : config.costModel.entryFillPrice next.openPrice (entrySide config)
    (isExtended clock next.timestamp config.barsPerYear) = .ok attempt.openTrade.entryPrice
  quantityPos : 0 < attempt.openTrade.quantity
  notional : attempt.openTrade.entryNotional = attempt.openTrade.quantity * attempt.openTrade.entryPrice

lemma attemptEntry_eq
    (h : attemptEntry clock config signal next cash fillBarIndex minStopDistance = .ok (some attempt)) :
    ∃ fillPrice quantity, signal.validPlan = true ∧ 0 < next.openPrice ∧
      config.costModel.entryFillPrice next.openPrice (entrySide config)
        (isExtended clock next.timestamp config.barsPerYear) = .ok fillPrice ∧
      sizePosition config (entryLevels config signal fillPrice minStopDistance).1 fillPrice cash = .ok quantity ∧
      0 < quantity ∧ config.costModel.acceptsPosition (quantity * fillPrice) = true ∧
      attempt = filledEntry config signal next cash fillBarIndex fillPrice
        (entryLevels config signal fillPrice minStopDistance) quantity := by
  rw [attemptEntry] at h
  dsimp only at h
  split_ifs at h with hreject
  · simp at h
  · push Not at hreject
    obtain ⟨fillPrice, hfill, h⟩ := (bind_eq_ok _ _ _).mp h
    obtain ⟨quantity, hquantity, h⟩ := (bind_eq_ok _ _ _).mp h
    split_ifs at h with hsmall
    · simp at h
    · obtain rfl := Option.some.inj ((pure_eq_ok _ _).mp h)
      push Not at hsmall
      exact ⟨fillPrice, quantity, by simpa using hreject.1, hreject.2.1, hfill, hquantity, hsmall.1,
        by simpa using hsmall.2, rfl⟩

lemma attemptEntry_some
    (h : attemptEntry clock config signal next cash fillBarIndex minStopDistance = .ok (some attempt)) :
    EntryFill clock config signal next cash fillBarIndex attempt := by
  obtain ⟨fillPrice, quantity, hplan, _, hfill, _, hpos, _, rfl⟩ := attemptEntry_eq h
  exact ⟨hplan, rfl, rfl, rfl, rfl, hfill, hpos, rfl⟩

end Entry

section RecentSignals

variable {index delay : ℕ} {s : LoopState}

lemma entrySignal_some {recent : List (ℕ × Option Signal)} {ends : List Bool} {signal : Signal}
    (h : entrySignal recent index delay ends = some signal) :
    ∃ i, (i, some signal) ∈ recent ∧ i + delay = index ∧ ∀ m, i ≤ m → m < index → (ends[m]?).getD false = false := by
  obtain _ | ⟨⟨i, found⟩, rest⟩ := recent
  · cases h
  · rw [entrySignal] at h
    split_ifs at h with hindex hend
    subst h
    refine ⟨i, by simp, not_not.mp hindex, ?_⟩
    intro m him hm
    by_contra hends
    have hget : ends[m]? = some true := by
      cases hm : ends[m]? with
      | none => simp [hm] at hends
      | some flag => simpa [hm] using hends
    apply hend
    refine ⟨by omega, List.any_eq_true.mpr ⟨true, ?_, rfl⟩⟩
    apply List.mem_of_getElem? (i := m - i)
    rw [List.getElem?_drop, Nat.add_sub_cancel' him, List.getElem?_take_of_lt hm, hget]

lemma mem_recordSignal {signal : Option Signal} {p : ℕ × Option Signal} {found : Signal}
    (h : p ∈ (s.recordSignal index delay signal).recentSignals) (hp : p.2 = some found) :
    p ∈ s.recentSignals ∨ (p.1 = index ∧ s.openTrade = none ∧ signal = some found) := by
  have hmem := List.mem_of_mem_drop h
  rw [List.mem_append, List.mem_singleton] at hmem
  rcases hmem with hold | rfl
  · exact .inl hold
  · cases hopen : s.openTrade with
    | none => exact .inr ⟨rfl, rfl, by simpa [hopen] using hp⟩
    | some trade => simp [hopen] at hp

end RecentSignals

section Decide

variable {r : RunInput} {index : ℕ} {s : LoopState}

lemma decideEntry_filled {attempt : EntryAttempt} (h : r.decideEntry index s = .ok (.filled attempt)) :
    ∃ signal next, entrySignal s.recentSignals index r.delay r.sessionEnds = some signal ∧
      s.openTrade = none ∧ r.atSessionEnd index = false ∧
      opensPosition signal r.runConfig.shortEntries = true ∧ r.normalized[index + 1]? = some next ∧
      attemptEntry r.clock r.runConfig signal next s.cash (index + 1) (r.minStopDistance index) =
        .ok (some attempt) := by
  rw [RunInput.decideEntry] at h
  rw [maybeNextBar_eq] at h
  cases hsignal : entrySignal s.recentSignals index r.delay r.sessionEnds with
  | none => simp [hsignal] at h
  | some signal =>
    simp only [hsignal] at h
    split_ifs at h with hcond
    · cases hnext : r.normalized[index + 1]? with
      | none => simp [hnext] at h
      | some next =>
        simp only [hnext] at h
        obtain ⟨result, hattempt, h⟩ := (bind_eq_ok _ _ _).mp h
        cases result with
        | none => simp at h
        | some entry =>
          obtain rfl : entry = attempt := by simpa using h
          obtain ⟨hopen, hend, hopens⟩ := hcond
          exact ⟨signal, next, rfl, by simpa using hopen, by simpa using hend, hopens, rfl, hattempt⟩
    · simp at h

lemma decideEntry_dropped (h : r.decideEntry index s = .ok .dropped) :
    s.openTrade = none ∧ r.atSessionEnd index = false ∧
      ∃ signal, entrySignal s.recentSignals index r.delay r.sessionEnds = some signal ∧
        opensPosition signal r.runConfig.shortEntries = true := by
  rw [RunInput.decideEntry] at h
  cases hsignal : entrySignal s.recentSignals index r.delay r.sessionEnds with
  | none => simp [hsignal] at h
  | some signal =>
    simp only [hsignal] at h
    split_ifs at h with hcond
    · obtain ⟨hopen, hend, hopens⟩ := hcond
      exact ⟨by simpa using hopen, by simpa using hend, signal, rfl, hopens⟩
    · simp at h

end Decide

namespace RunInput

variable (r : RunInput)

def evaluated (index : ℕ) : Prop := ∃ bar, r.normalized[index]? = some bar ∧ r.inWarmup bar = false

end RunInput

variable {r : RunInput} {index : ℕ} {s t : LoopState}

lemma processBar_cases (h : r.processBar index s = .ok t) :
    (¬ r.evaluated index ∧ t = s) ∨
    ∃ bar settled outcome, r.normalized[index]? = some bar ∧ r.inWarmup bar = false ∧
      r.settleBar bar index s = .ok settled ∧ r.decideEntry index settled = .ok outcome ∧
      t = RunInput.applyEntry bar settled outcome := by
  rw [RunInput.processBar] at h
  cases hbar : r.normalized[index]? with
  | none =>
    simp only [hbar, pure_eq_ok] at h
    exact .inl ⟨by simp [RunInput.evaluated, hbar], h.symm⟩
  | some bar =>
    simp only [hbar] at h
    split_ifs at h with hwarm
    · exact .inl ⟨by simp [RunInput.evaluated, hbar, hwarm], ((pure_eq_ok _ _).mp h).symm⟩
    · obtain ⟨settled, hsettled, h⟩ := (bind_eq_ok _ _ _).mp h
      obtain ⟨outcome, houtcome, h⟩ := (bind_eq_ok _ _ _).mp h
      exact .inr ⟨bar, settled, outcome, rfl, by simpa using hwarm, hsettled, houtcome, ((pure_eq_ok _ _).mp h).symm⟩

lemma closeAtEnd_cases (h : r.closeAtEnd s = .ok t) :
    (t = s ∧ (s.openTrade = none ∨ r.normalized = [])) ∨
    ∃ trade finalBar action, s.openTrade = some trade ∧ r.normalized.getLast? = some finalBar ∧
      r.runConfig.costModel.exitFillPrice finalBar.close trade.side false = .ok action.fillPrice ∧
      action.fillTime = finalBar.timestamp ∧ action.fillBarIndex = r.totalBars - 1 ∧
      action.reason = .endOfData ∧ t = (s.bookExit r.runConfig.costModel trade action).markLastCash := by
  rw [RunInput.closeAtEnd] at h
  cases hopen : s.openTrade with
  | none =>
    simp only [hopen, pure_eq_ok] at h
    exact .inl ⟨h.symm, .inl rfl⟩
  | some trade =>
    cases hlast : r.normalized.getLast? with
    | none =>
      simp only [hopen, hlast, pure_eq_ok] at h
      exact .inl ⟨h.symm, .inr (List.getLast?_eq_none_iff.mp hlast)⟩
    | some finalBar =>
      simp only [hopen, hlast] at h
      obtain ⟨exitPrice, hfill, h⟩ := (bind_eq_ok _ _ _).mp h
      exact .inr ⟨trade, finalBar, _, rfl, rfl, hfill, rfl, rfl, rfl, ((pure_eq_ok _ _).mp h).symm⟩

lemma run_of_final {looped final : LoopState} (hlooped : r.stateAt r.totalBars = .ok looped)
    (hfinal : r.closeAtEnd looped = .ok final) : ∃ run, r.run = .ok run ∧ run.final = final := by
  rw [RunInput.run, hlooped, ok_bind, hfinal, ok_bind]
  exact ⟨_, rfl, rfl⟩

lemma run_cases {run : BacktestRun} (h : r.run = .ok run) :
    ∃ looped, r.stateAt r.totalBars = .ok looped ∧ r.closeAtEnd looped = .ok run.final ∧
      run.endingCash = run.final.equityCurve.getLast?.getD r.runConfig.initialCash ∧
      run.metrics = compileMetrics run.final.equityCurve r.runConfig.initialCash run.endingCash := by
  rw [RunInput.run] at h
  obtain ⟨looped, hlooped, h⟩ := (bind_eq_ok _ _ _).mp h
  obtain ⟨final, hfinal, h⟩ := (bind_eq_ok _ _ _).mp h
  obtain rfl := (pure_eq_ok _ _).mp h
  exact ⟨looped, hlooped, hfinal, rfl, rfl⟩

end AlgoTrader.Backtesting
