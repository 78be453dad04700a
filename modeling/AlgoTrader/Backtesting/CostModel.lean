import AlgoTrader.Utils.Time
import Mathlib.Data.Rat.Floor

/-! Costs of a backtest fill (``app/backtesting/cost_model.py``), in exact rationals. -/

namespace AlgoTrader.Backtesting

open Utils.Time

inductive Side
  | buy
  | sell
  deriving DecidableEq, Repr

inductive EngineError
  | referencePriceNotPositive
  | zeroDivision
  deriving DecidableEq, Repr

def bps : ℚ := 1 / 10000

structure CostModel where
  spreadBps : ℚ := 10
  extendedHoursSpreadBps : ℚ := 30
  overnightFeeDailyPct : ℚ := 15 / 100000
  weekendMultiplier : ℚ := 3
  fxSpreadBps : ℚ := 0
  minPositionUsd : ℚ := 50
  includeWeekendFinancing : Bool := true
  commissionPerShare : ℚ := 0
  commissionMinUsd : ℚ := 0
  commissionFlatUsdPerLeg : ℚ := 0
  commissionPctPerLeg : ℚ := 0
  slippageBps : ℚ := 0
  secFeePerDollar : ℚ := 0
  finraTafPerShare : ℚ := 0
  finraTafMaxUsd : ℚ := 0
  shortBorrowFeeDailyPct : ℚ := 0
  deriving DecidableEq

def zeroCostModel : CostModel :=
  { spreadBps := 0, extendedHoursSpreadBps := 0, overnightFeeDailyPct := 0, weekendMultiplier := 1,
    fxSpreadBps := 0, minPositionUsd := 0, includeWeekendFinancing := false }

def countFridayClosesCrossed (entryTime exitTime : Timestamp) : ℕ :=
  if exitTime ≤ entryTime then 0
  else (List.range (utcDate exitTime - utcDate entryTime + 1).toNat).countP fun k =>
    let day := utcDate entryTime + k
    weekday day = 4 ∧ entryTime < midnight day

namespace CostModel

variable (m : CostModel)

def halfSpreadFraction (extendedHours : Bool) : ℚ :=
  (if extendedHours then m.extendedHoursSpreadBps else m.spreadBps) / 2 * bps

def entryFillPrice (referencePrice : ℚ) (side : Side) (extendedHours : Bool) : Except EngineError ℚ :=
  if referencePrice ≤ 0 then .error .referencePriceNotPositive
  else
    let drag := m.halfSpreadFraction extendedHours
    match side with
    | .buy => .ok (referencePrice * (1 + drag))
    | .sell => .ok (referencePrice * (1 - drag))

def exitFillPrice (referencePrice : ℚ) (side : Side) (extendedHours : Bool) : Except EngineError ℚ :=
  if referencePrice ≤ 0 then .error .referencePriceNotPositive
  else
    let drag := m.halfSpreadFraction extendedHours
    match side with
    | .buy => .ok (referencePrice * (1 - drag))
    | .sell => .ok (referencePrice * (1 + drag))

def holdingCostUsd (notionalUsd : ℚ) (entryTime exitTime : Timestamp) : ℚ :=
  if notionalUsd ≤ 0 then 0
  else if exitTime ≤ entryTime then 0
  else
    let holdingDays := utcDate exitTime - utcDate entryTime
    if holdingDays ≤ 0 then 0
    else
      let weekendCrossings :=
        if m.includeWeekendFinancing then countFridayClosesCrossed entryTime exitTime else 0
      let effectiveDays : ℚ := holdingDays + weekendCrossings * (m.weekendMultiplier - 1)
      notionalUsd * m.overnightFeeDailyPct * effectiveDays

def shortHoldingCostUsd (notionalUsd : ℚ) (entryTime exitTime : Timestamp) : ℚ :=
  let overnight := m.holdingCostUsd notionalUsd entryTime exitTime
  if notionalUsd ≤ 0 ∨ m.shortBorrowFeeDailyPct ≤ 0 ∨ exitTime ≤ entryTime then overnight
  else overnight + notionalUsd * m.shortBorrowFeeDailyPct * max (utcDate exitTime - utcDate entryTime) 0

def fxRoundTripCostUsd (notionalUsd : ℚ) : ℚ :=
  if notionalUsd ≤ 0 ∨ m.fxSpreadBps ≤ 0 then 0 else notionalUsd * m.fxSpreadBps * bps

def commissionUsd (quantity : ℚ) : ℚ :=
  if quantity ≤ 0 ∨ (m.commissionPerShare ≤ 0 ∧ m.commissionMinUsd ≤ 0) then 0
  else
    let raw := |quantity| * m.commissionPerShare
    if 0 < m.commissionMinUsd ∧ raw < m.commissionMinUsd then m.commissionMinUsd else raw

def legFeeUsd (notionalUsd : ℚ) : ℚ :=
  if notionalUsd ≤ 0 ∨ (m.commissionFlatUsdPerLeg ≤ 0 ∧ m.commissionPctPerLeg ≤ 0) then 0
  else m.commissionFlatUsdPerLeg + |notionalUsd| * m.commissionPctPerLeg

def slippageUsd (notionalUsd : ℚ) : ℚ :=
  if notionalUsd ≤ 0 ∨ m.slippageBps ≤ 0 then 0 else |notionalUsd| * m.slippageBps * bps

def regulatorySellFeeUsd (notionalUsd quantity : ℚ) : ℚ :=
  if notionalUsd ≤ 0 then 0
  else
    let sec := if 0 < m.secFeePerDollar then |notionalUsd| * m.secFeePerDollar else 0
    let taf :=
      if 0 < m.finraTafPerShare ∧ 0 < quantity then
        let raw := |quantity| * m.finraTafPerShare
        if 0 < m.finraTafMaxUsd then min raw m.finraTafMaxUsd else raw
      else 0
    sec + taf

def acceptsPosition (notionalUsd : ℚ) : Bool := m.minPositionUsd ≤ notionalUsd

end CostModel

def isExtendedHours (clock : NewYorkClock) (t : Timestamp) : Bool :=
  let hour := clock.minuteOfDay t / 60
  let minute := clock.minuteOfDay t % 60
  if hour < 9 ∨ (hour = 9 ∧ minute < 30) then true
  else if 16 ≤ hour then true
  else false

end AlgoTrader.Backtesting
