import Mathlib.Data.Rat.Defs
import Mathlib.Algebra.Order.Ring.Rat

/-! Trading signals (``app/models/signal.py``) and the trade-plan check of
``app/strategies/base.py``. -/

namespace AlgoTrader.Models

inductive SignalAction
  | buy
  | sell
  deriving DecidableEq, Repr

-- Of the metadata only the two keys the engine reads are kept; ``maxHoldBars`` is the raw
-- value after ``int()``, none where that key is absent, empty or not a number.
structure SignalMetadata where
  signalRole : Option String := none
  maxHoldBars : Option ℤ := none
  deriving DecidableEq

structure Signal where
  action : SignalAction
  price : Option ℚ := none
  stopLoss : Option ℚ := none
  takeProfit : Option ℚ := none
  metadata : SignalMetadata := {}
  deriving DecidableEq

def validTradePlan (action : SignalAction) (price stopLoss takeProfit : Option ℚ) : Bool :=
  if [price, stopLoss, takeProfit].any (fun raw => raw.any (fun value => value ≤ 0)) then false
  else
    match price, stopLoss, takeProfit with
    | some entry, some stop, some target =>
      match action with
      | .buy => stop < entry ∧ entry < target
      | .sell => target < entry ∧ entry < stop
    | _, _, _ => true

def Signal.validPlan (signal : Signal) : Bool :=
  validTradePlan signal.action signal.price signal.stopLoss signal.takeProfit

end AlgoTrader.Models
