import AlgoTrader.Broker.Crypto
import AlgoTrader.Broker.EtoroLiveRoom
import AlgoTrader.Models.Trade

/-! The gates and the sizing of the live mirror (``EtoroLiveMirrorService.blockers``,
``_copy_amount`` and ``_trade_amount`` of ``app/broker/etoro_live_mirror.py``). -/

namespace AlgoTrader.Broker.Etoro

open AlgoTrader.Utils.Time
open AlgoTrader.Models

def hardMaxTradePctOfEquity : ℚ := 25
def hardMaxTradeUsd : ℚ := 2500
def minTradeUsd : ℚ := 10
def hardMaxTradesPerDay : ℕ := 3
def hardMaxExposurePctOfEquity : ℚ := 100
def hardMaxOpenPositions : ℕ := 9
def cashReserveUsd : ℚ := 100
def hardDailyLossStopPct : ℚ := 5
def hardMaxRiskPctOfEquity : ℚ := 1 / 2
def hardMaxStopDistancePct : ℚ := 8
def mirrorBuyNowTimingLabels : List String := ["immediate"]
def mirrorMinEvidenceStreakHours : ℚ := 24
def hardMaxReturn20dPct : ℚ := 15
def hardMaxRsi14 : ℚ := 68

def reasonIf (condition : Bool) (reason : String) : List String :=
  if condition then [reason] else []

@[simp]
lemma reasonIf_eq_nil (condition : Bool) (reason : String) :
    reasonIf condition reason = [] ↔ condition = false := by
  cases condition <;> simp [reasonIf]

structure Extension where
  timeframe : String
  return20dPct : Option ℚ
  rsi14 : Option ℚ
  newHigh252Recent : Option Bool

/-- The proposal's order and what the gates read about it. The evidence gate and the paper record
answer with their own reason; ``gateReasons`` are those of the keys, the acknowledgement and the
primary broker. -/
structure CopyRequest where
  order : TradeOrder
  proposalId : String := ""
  paperOnly : Bool := false
  gateReasons : List String := []
  timeframe : Option String := some "1d"
  evidenceReason : Option String := none
  passingHours : Option ℚ := some 24
  paperRecordReason : Option String := none
  timingLabel : Option String := some "immediate"
  backtestValidated : Option Bool := some true
  extension : Option Extension := some ⟨"1d", some 0, some 50, some false⟩

def plannerBlocker (timingLabel : Option String) : List String :=
  match timingLabel.map Text.strip with
  | none | some "" => ["etoro_live_planner_unknown"]
  | some label => reasonIf (label.toLower ∉ mirrorBuyNowTimingLabels) "etoro_live_planner_not_buy_now"

def backtestCheckBlocker : Option Bool → List String
  | some true => []
  | some false => ["etoro_live_backtest_check_failed"]
  | none => ["etoro_live_backtest_check_unknown"]

def evidenceStreakBlocker : Option ℚ → List String
  | none => ["etoro_live_evidence_streak_unknown"]
  | some hours =>
      reasonIf (hours < mirrorMinEvidenceStreakHours) "etoro_live_evidence_streak_too_short"

def extensionBlockers (extension : Option Extension) (timeframe : Option String) : List String :=
  match extension with
  | none => ["etoro_live_extension_unknown"]
  | some extension =>
      if (timeframe.getD "").toLower ≠ "1d" ∨ extension.timeframe ≠ "1d" then
        ["etoro_live_extension_unknown"]
      else
        reasonIf (extension.return20dPct.isNone || extension.rsi14.isNone ||
            extension.newHigh252Recent.isNone) "etoro_live_extension_unknown" ++
          reasonIf (extension.return20dPct.any (hardMaxReturn20dPct < ·))
            "etoro_live_extended_20d_rise" ++
          reasonIf (extension.rsi14.any (hardMaxRsi14 ≤ ·)) "etoro_live_extended_rsi" ++
          reasonIf (extension.newHigh252Recent = some true) "etoro_live_extended_new_high"

def stopDistancePct (entry : ℚ) (stop : Option ℚ) : Option ℚ :=
  match stop with
  | none => none
  | some stop => if 0 < stop ∧ stop < entry then some ((entry - stop) / entry * 100) else none

def orderStopPct (order : TradeOrder) : Option ℚ := stopDistancePct order.proposedPrice order.stopLoss

def stopBlockers (order : TradeOrder) : List String :=
  if order.stopLoss = none ∨ order.takeProfit = none then ["mirror_requires_stop_and_target"]
  else
    match orderStopPct order with
    | none => ["etoro_live_stop_distance_unknown"]
    | some stopPct => reasonIf (hardMaxStopDistancePct < stopPct) "etoro_live_stop_too_wide"

def proposalBlockers (request : CopyRequest) : List String :=
  let order := request.order
  let bare := (Text.strip order.symbol).toUpper
  reasonIf (order.side ≠ .buy) "mirror_long_only" ++
    reasonIf (isCryptoSymbol bare || bare ∈ knownCryptoBases) "mirror_equities_only" ++
    reasonIf (order.assetClass ≠ .equity && order.assetClass ≠ .unknown) "mirror_equities_only" ++
    stopBlockers order ++
    (match request.timeframe with
      | none | some "" => ["mirror_timeframe_unknown"]
      | some _ => request.evidenceReason.toList ++ evidenceStreakBlocker request.passingHours) ++
    request.paperRecordReason.toList ++
    plannerBlocker request.timingLabel ++
    backtestCheckBlocker request.backtestValidated ++
    extensionBlockers request.extension request.timeframe

def effectiveTradePct (settings : Settings) : ℚ :=
  match settings.tradePctOfEquity with
  | none => 0
  | some pct => min (max pct 0) hardMaxTradePctOfEquity

def currentState (state : MirrorState) (today : ℤ) : MirrorState :=
  if state.day = some today then state
  else { state with day := some today, tradesToday := 0, dayStartEquity := state.lastEquity }

@[simp]
lemma currentState_lastEquity (state : MirrorState) (today : ℤ) :
    (currentState state today).lastEquity = state.lastEquity := by
  rw [currentState]
  split_ifs <;> rfl

@[simp]
lemma currentState_openSymbols (state : MirrorState) (today : ℤ) :
    (currentState state today).openSymbols = state.openSymbols := by
  rw [currentState]
  split_ifs <;> rfl

@[simp]
lemma currentState_day (state : MirrorState) (today : ℤ) :
    (currentState state today).day = some today := by
  rw [currentState]
  split_ifs with h
  · exact h
  · rfl

lemma currentState_of_day {state : MirrorState} {today : ℤ} (h : state.day = some today) :
    currentState state today = state := if_pos h

def tradeAmount (settings : Settings) (state : MirrorState) (stopPct : Option ℚ) : Option ℚ :=
  match state.lastEquity, stopPct with
  | some equity, some stopPct =>
      if equity ≤ 0 ∨ stopPct ≤ 0 then none
      else
        let pct := effectiveTradePct settings
        let atRisk := equity * hardMaxRiskPctOfEquity / stopPct
        let amount := Rounding.toDigits 2 (min (min (equity * pct / 100) hardMaxTradeUsd) atRisk)
        if 0 < amount then some amount else none
  | _, _ => none

lemma tradeAmount_pos {settings : Settings} {state : MirrorState} {stopPct : Option ℚ} {amount : ℚ}
    (h : tradeAmount settings state stopPct = some amount) : 0 < amount := by
  unfold tradeAmount at h
  split at h
  · dsimp only at h
    split_ifs at h with _ hpos
    exact Option.some.inj h ▸ hpos
  · cases h

section Gates

variable (settings : Settings) (store : Store) (state : MirrorState) (now : Timestamp)

def copyAmount (stake : Option ℚ) : Option ℚ × List String :=
  match stake, state.lastEquity with
  | some stake, some equity =>
      if stake < minTradeUsd ∨ equity ≤ 0 then (none, [])
      else
        match openExposureUsd store state now with
        | none => (none, ["etoro_live_exposure_unknown"])
        | some exposure =>
            let spare := sellableUsd settings state
            let cashRoom := state.lastCash.toList.map fun cash =>
              ("etoro_live_insufficient_cash", cash - cashReserveUsd + spare)
            fitToRoom stake
              (("etoro_live_exposure_cap",
                equity * hardMaxExposurePctOfEquity / 100 - exposure + spare) :: cashRoom)
  | _, _ => (none, [])

def lossStopBlockers : List String :=
  match state.dayStartEquity.filter (0 < ·) with
  | none => ["etoro_live_day_start_unknown"]
  | some start =>
      reasonIf (state.lastEquity.any (start * hardDailyLossStopPct / 100 ≤ start - ·))
        "etoro_live_daily_loss_stop"

def sizeBlockers (order : TradeOrder) : List String :=
  let stopPct := orderStopPct order
  let amount := tradeAmount settings state stopPct
  let equity := state.lastEquity.filter (0 < ·)
  reasonIf equity.isNone "etoro_live_equity_unknown" ++
    reasonIf (amount.isNone && equity.isSome && stopPct.isSome) "etoro_live_unsized" ++
    reasonIf (amount.any (· < minTradeUsd)) "etoro_live_trade_below_minimum" ++
    (copyAmount settings store state now amount).2

def capBlockers (order : TradeOrder) : List String :=
  let held := effectiveOpenSymbols store state
  let trades := countedSymbols settings held
  reasonIf (hardMaxTradesPerDay ≤ state.tradesToday) "etoro_live_daily_trade_cap" ++
    reasonIf (order.symbol.toUpper ∈ held) "etoro_live_symbol_already_open" ++
    reasonIf (hardMaxOpenPositions ≤ trades.length) "etoro_live_open_position_cap" ++
    bucketBlockers settings order.symbol trades ++
    lossStopBlockers state ++
    sizeBlockers settings store state now order

def blockers (request : CopyRequest) : List String :=
  if !settings.mirrorEnabled then ["etoro_live_mirror_disabled"]
  else if request.paperOnly then ["etoro_live_paper_only"]
  else
    request.gateReasons ++
      reasonIf store.halted "etoro_live_mirror_halted" ++
      proposalBlockers request ++
      capBlockers settings store (currentState store.mirror (utcDate now)) now request.order

lemma blockers_eq_nil {settings : Settings} {store : Store} {now : Timestamp}
    {request : CopyRequest} (h : blockers settings store now request = []) :
    proposalBlockers request = [] ∧
      capBlockers settings store (currentState store.mirror (utcDate now)) now request.order = [] := by
  rw [blockers] at h
  split_ifs at h
  rw [List.append_eq_nil_iff, List.append_eq_nil_iff] at h
  exact ⟨h.1.2, h.2⟩

lemma gateReasons_of_blockers {settings : Settings} {store : Store} {now : Timestamp}
    {request : CopyRequest} (h : blockers settings store now request = []) : request.gateReasons = [] := by
  rw [blockers] at h
  split_ifs at h
  simp only [List.append_eq_nil_iff] at h
  exact h.1.1.1

lemma stop_of_proposalBlockers {request : CopyRequest} (h : proposalBlockers request = []) :
    ∃ stopPct, orderStopPct request.order = some stopPct := by
  have hstop : stopBlockers request.order = [] := by
    simp only [proposalBlockers, List.append_eq_nil_iff] at h
    exact h.1.1.1.1.1.2
  rw [stopBlockers] at hstop
  split_ifs at hstop
  cases hpct : orderStopPct request.order with
  | none => simp [hpct] at hstop
  | some stopPct => exact ⟨stopPct, rfl⟩

lemma caps_of_capBlockers {settings : Settings} {store : Store} {state : MirrorState}
    {now : Timestamp} {order : TradeOrder} (h : capBlockers settings store state now order = []) :
    state.tradesToday < hardMaxTradesPerDay ∧
      order.symbol.toUpper ∉ effectiveOpenSymbols store state ∧
      (countedSymbols settings (effectiveOpenSymbols store state)).length < hardMaxOpenPositions := by
  simp only [capBlockers, List.append_eq_nil_iff, reasonIf_eq_nil, decide_eq_false_iff_not,
    not_le] at h
  exact ⟨h.1.1.1.1.1, h.1.1.1.1.2, h.1.1.1.2⟩

end Gates

end AlgoTrader.Broker.Etoro
