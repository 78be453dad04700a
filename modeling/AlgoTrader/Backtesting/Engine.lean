import AlgoTrader.Backtesting.CostModel
import AlgoTrader.Backtesting.Intraday
import AlgoTrader.Lib.BoundedLoop
import AlgoTrader.Lib.Rounding
import AlgoTrader.Models.Signal

/-! The bar loop of ``app/backtesting/engine.py``. Money and prices are exact rationals.
Bar indices that the source keeps implicit (the bar a fill belongs to) are carried along
with the records the source writes. -/

namespace AlgoTrader.Backtesting

open Utils.Time Models

def dailyBarsPerYear : ℤ := 252

structure OpenTrade where
  entryTime : Timestamp
  entryPrice : ℚ
  quantity : ℚ
  side : Side
  stopLoss : Option ℚ
  takeProfit : Option ℚ
  entryNotional : ℚ
  entrySpreadUsd : ℚ := 0
  entryBarIndex : ℕ
  maxHoldBars : Option ℤ := none
  deriving DecidableEq

structure EngineConfig where
  initialCash : ℚ := 10000
  riskPerTradePct : Option ℚ := some 1
  leverage : ℤ := 1
  barsPerYear : ℤ := dailyBarsPerYear
  costModel : CostModel := {}
  allowExtendedHours : Bool := false
  flattenAtSessionEnd : Bool := false
  minStopSessionAtrMultiple : ℚ := 0
  shortEntries : Bool := false
  entryDelayBars : ℤ := 0
  deriving DecidableEq

inductive ExitReason
  | timeStop
  | stopLoss
  | takeProfit
  | strategyExit
  | sessionClose
  | endOfData
  deriving DecidableEq, Repr

structure ExitAction where
  fillPrice : ℚ
  fillTime : Timestamp
  fillBarIndex : ℕ
  reason : ExitReason
  deriving DecidableEq

structure EntryAttempt where
  openTrade : OpenTrade
  cashAfterEntry : ℚ
  deriving DecidableEq

structure TradeRecord where
  entryTime : Timestamp
  exitTime : Timestamp
  entryPrice : ℚ
  exitPrice : ℚ
  quantity : ℚ
  notionalUsd : ℚ
  pnlUsd : ℚ
  pnlPct : ℚ
  reason : ExitReason
  spreadUsd : ℚ
  financingUsd : ℚ
  fxUsd : ℚ
  commissionUsd : ℚ
  slippageUsd : ℚ
  regulatoryUsd : ℚ
  short : Bool
  deriving DecidableEq

structure CostEvent where
  spreadUsd : ℚ
  financingUsd : ℚ
  fxUsd : ℚ
  commissionUsd : ℚ
  slippageUsd : ℚ
  regulatoryUsd : ℚ
  deriving DecidableEq

inductive Warning
  | suspiciousTradeReturn
  deriving DecidableEq, Repr

structure ClosedTrade where
  trade : OpenTrade
  exitBarIndex : ℕ
  record : TradeRecord
  deriving DecidableEq

abbrev Strategy := Frame → Option Signal

def opensPosition (signal : Signal) (short : Bool) : Bool :=
  if !short then signal.action = .buy
  else signal.action = .sell ∧ signal.metadata.signalRole = some "entry_short" ∧
    signal.stopLoss.isSome ∧ signal.takeProfit.isSome

def isExtended (clock : NewYorkClock) (barTime : Timestamp) (barsPerYear : ℤ) : Bool :=
  if barsPerYear ≤ dailyBarsPerYear then false else isExtendedHours clock barTime

-- The deque's newest entry is last; ``recent[0]`` is its head.
def entrySignal (recent : List (ℕ × Option Signal)) (index delay : ℕ) (sessionEnds : List Bool) :
    Option Signal :=
  match recent with
  | [] => none
  | (signalIndex, signal) :: _ =>
    if signalIndex + delay ≠ index then none
    else if delay ≠ 0 ∧ ((sessionEnds.take index).drop signalIndex).any id then none
    else signal

def closingAction : Side → SignalAction
  | .sell => .buy
  | .buy => .sell

def timeStopDue (trade : OpenTrade) (barIndex : ℕ) : Bool :=
  match trade.maxHoldBars with
  | some held => held ≤ (barIndex : ℤ) - trade.entryBarIndex
  | none => false

def stopOrTarget (trade : OpenTrade) (bar : Bar) : Option (ℚ × ExitReason) :=
  match trade.side with
  | .buy =>
    match trade.stopLoss.filter (bar.low ≤ ·), trade.takeProfit.filter (· ≤ bar.high) with
    | some stop, _ => some (min stop bar.openPrice, .stopLoss)
    | none, some target => some (min target bar.high, .takeProfit)
    | none, none => none
  | .sell =>
    match trade.stopLoss.filter (· ≤ bar.high), trade.takeProfit.filter (bar.low ≤ ·) with
    | some stop, _ => some (max stop bar.openPrice, .stopLoss)
    | none, some target => some (max target bar.low, .takeProfit)
    | none, none => none

def evaluateExit (clock : NewYorkClock) (config : EngineConfig) (trade : OpenTrade) (bar : Bar)
    (signal : Option Signal) (barIndex : ℕ) (nextBar : Option Bar) :
    Except EngineError (Option ExitAction) :=
  let extended := isExtended clock bar.timestamp config.barsPerYear
  if timeStopDue trade barIndex then do
    let fill ← config.costModel.exitFillPrice bar.openPrice trade.side extended
    pure (some ⟨fill, bar.timestamp, barIndex, .timeStop⟩)
  else match stopOrTarget trade bar with
    | some (rawFill, reason) => do
      let fill ← config.costModel.exitFillPrice rawFill trade.side extended
      pure (some ⟨fill, bar.timestamp, barIndex, reason⟩)
    | none =>
      match signal, nextBar with
      | some sig, some next =>
        if sig.action = closingAction trade.side then do
          let extendedNext := isExtended clock next.timestamp config.barsPerYear
          let fill ← config.costModel.exitFillPrice next.openPrice trade.side extendedNext
          pure (some ⟨fill, next.timestamp, barIndex + 1, .strategyExit⟩)
        else pure none
      | _, _ => pure none

def maxHoldBars (signal : Signal) : Option ℤ := signal.metadata.maxHoldBars.filter (0 < ·)

def sizePosition (config : EngineConfig) (stop : Option ℚ) (fillPrice cash : ℚ) :
    Except EngineError ℚ :=
  let allIn := if fillPrice ≤ 0 then 0 else cash / fillPrice
  match config.riskPerTradePct, stop with
  | some riskPct, some stop =>
    if stop ≤ 0 then .ok allIn
    else
      let stopDistance := |fillPrice - stop|
      if stopDistance ≤ 0 then .ok 0
      else
        let riskBudget := cash * (riskPct / 100)
        let notionalCap := cash * (max config.leverage 1 : ℤ)
        let rawQuantity := riskBudget / stopDistance
        if notionalCap < rawQuantity * fillPrice then
          if fillPrice = 0 then .error .zeroDivision else .ok (notionalCap / fillPrice)
        else .ok rawQuantity
  | _, _ => .ok allIn

def entrySide (config : EngineConfig) : Side := if config.shortEntries then .sell else .buy

def entryLevels (config : EngineConfig) (signal : Signal) (fillPrice minStopDistance : ℚ) :
    Option ℚ × Option ℚ :=
  match signal.stopLoss with
  | some stop =>
    if 0 < minStopDistance ∧ entrySide config = .buy then
      let signalPrice := match signal.price with
        | some price => if price = 0 then fillPrice else price
        | none => fillPrice
      let levels := flooredStopAndTarget fillPrice signalPrice stop signal.takeProfit minStopDistance
      (some levels.1, levels.2)
    else (some stop, signal.takeProfit)
  | none => (none, signal.takeProfit)

def filledEntry (config : EngineConfig) (signal : Signal) (nextBar : Bar) (cash : ℚ) (fillBarIndex : ℕ)
    (fillPrice : ℚ) (levels : Option ℚ × Option ℚ) (quantity : ℚ) : EntryAttempt :=
  let side := entrySide config
  let notional := quantity * fillPrice
  let entrySpread := notional - quantity * nextBar.openPrice
  { openTrade := {
      entryTime := nextBar.timestamp
      entryPrice := fillPrice
      quantity := quantity
      side := side
      stopLoss := levels.1
      takeProfit := levels.2
      entryNotional := notional
      entrySpreadUsd := if side = .buy then max entrySpread 0 else |entrySpread|
      entryBarIndex := fillBarIndex
      maxHoldBars := maxHoldBars signal }
    cashAfterEntry := cash - notional }

def attemptEntry (clock : NewYorkClock) (config : EngineConfig) (signal : Signal) (nextBar : Bar)
    (cash : ℚ) (fillBarIndex : ℕ) (minStopDistance : ℚ) : Except EngineError (Option EntryAttempt) :=
  let extended := isExtended clock nextBar.timestamp config.barsPerYear
  if !signal.validPlan ∨ nextBar.openPrice ≤ 0 ∨ (extended ∧ !config.allowExtendedHours) then pure none
  else do
    let fillPrice ← config.costModel.entryFillPrice nextBar.openPrice (entrySide config) extended
    let levels := entryLevels config signal fillPrice minStopDistance
    let quantity ← sizePosition config levels.1 fillPrice cash
    if quantity ≤ 0 ∨ !config.costModel.acceptsPosition (quantity * fillPrice) then pure none
    else pure (some (filledEntry config signal nextBar cash fillBarIndex fillPrice levels quantity))

def unadjustedExitPrice (exitPrice : ℚ) (trade : OpenTrade) (m : CostModel) : ℚ :=
  let drag := m.halfSpreadFraction false
  match trade.side with
  | .buy => exitPrice / max (1 - drag) (1 / 1000000000)
  | .sell => exitPrice / max (1 + drag) (1 / 1000000000)

def tradeCosts (m : CostModel) (trade : OpenTrade) (action : ExitAction) : CostEvent :=
  let short := trade.side = .sell
  let exitNotional := trade.quantity * action.fillPrice
  let exitSpreadUsd :=
    |exitNotional - trade.quantity * unadjustedExitPrice action.fillPrice trade m|
  { spreadUsd := trade.entrySpreadUsd + exitSpreadUsd
    financingUsd :=
      if short then m.shortHoldingCostUsd trade.entryNotional trade.entryTime action.fillTime
      else m.holdingCostUsd trade.entryNotional trade.entryTime action.fillTime
    fxUsd := m.fxRoundTripCostUsd trade.entryNotional
    commissionUsd :=
      2 * m.commissionUsd trade.quantity + m.legFeeUsd trade.entryNotional + m.legFeeUsd exitNotional
    slippageUsd := m.slippageUsd trade.entryNotional + m.slippageUsd exitNotional
    regulatoryUsd :=
      m.regulatorySellFeeUsd (if short then trade.entryNotional else exitNotional) trade.quantity }

/-- What closing returns to cash: a long its exit notional, a short its collateral plus its
gain, less every cost but the spread, which the fill price already carries. -/
def realizedProceeds (m : CostModel) (trade : OpenTrade) (action : ExitAction) : ℚ :=
  let exitNotional := trade.quantity * action.fillPrice
  let proceeds :=
    if trade.side = .sell then 2 * trade.entryNotional - exitNotional else exitNotional
  let costs := tradeCosts m trade action
  proceeds - costs.financingUsd - costs.fxUsd - costs.commissionUsd - costs.slippageUsd
    - costs.regulatoryUsd

structure Closing where
  realized : ℚ
  costEvent : CostEvent
  tradeRecord : TradeRecord
  warning : Option Warning

def closeTrade (m : CostModel) (trade : OpenTrade) (action : ExitAction) : Closing :=
  let realized := realizedProceeds m trade action
  let invested := trade.entryNotional
  let pnlUsd := realized - invested
  let pnlPct := if invested = 0 then 0 else pnlUsd / invested * 100
  let costs := tradeCosts m trade action
  { realized := realized
    costEvent := costs
    tradeRecord := {
      entryTime := trade.entryTime
      exitTime := action.fillTime
      entryPrice := trade.entryPrice
      exitPrice := action.fillPrice
      quantity := trade.quantity
      notionalUsd := trade.entryNotional
      pnlUsd := pnlUsd
      pnlPct := pnlPct
      reason := action.reason
      spreadUsd := Rounding.toDigits 6 costs.spreadUsd
      financingUsd := Rounding.toDigits 6 costs.financingUsd
      fxUsd := Rounding.toDigits 6 costs.fxUsd
      commissionUsd := Rounding.toDigits 6 costs.commissionUsd
      slippageUsd := Rounding.toDigits 6 costs.slippageUsd
      regulatoryUsd := Rounding.toDigits 6 costs.regulatoryUsd
      short := trade.side = .sell }
    warning := if 75 < pnlPct ∧ action.reason ≠ .takeProfit then some .suspiciousTradeReturn else none }

def marketValue (trade : OpenTrade) (bar : Bar) : ℚ :=
  match trade.side with
  | .sell => trade.entryNotional + trade.quantity * (trade.entryPrice - bar.close)
  | .buy => trade.quantity * bar.close

def markToMarket (cash : ℚ) (openTrade : Option OpenTrade) (bar : Bar) : ℚ :=
  match openTrade with
  | none => cash
  | some trade => cash + marketValue trade bar

end AlgoTrader.Backtesting
