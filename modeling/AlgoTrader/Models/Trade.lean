import Mathlib.Data.Rat.Defs
import Mathlib.Algebra.Order.Ring.Rat

/-! Trade orders (``app/models/trade.py``), proposals (``app/models/approval.py``) and quotes. -/

namespace AlgoTrader.Models

inductive OrderSide
  | buy
  | sell
  deriving DecidableEq, Repr

inductive AssetClass
  | equity
  | gold
  | crypto
  | unknown
  deriving DecidableEq, Repr

structure TradeOrder where
  symbol : String
  side : OrderSide := .buy
  amountUsd : ℚ
  leverage : ℕ := 1
  proposedPrice : ℚ
  stopLoss : Option ℚ := none
  takeProfit : Option ℚ := none
  assetClass : AssetClass := .unknown
  strategyName : String := ""
  deriving DecidableEq

inductive ApprovalStatus
  | pending
  | approved
  | rejected
  | expired
  | executed
  deriving DecidableEq, Repr

def ApprovalStatus.value : ApprovalStatus → String
  | .pending => "pending"
  | .approved => "approved"
  | .rejected => "rejected"
  | .expired => "expired"
  | .executed => "executed"

-- The amount of a stored order is a ``PositiveFloat``.
structure TradeProposal where
  id : String
  order : TradeOrder
  status : ApprovalStatus
  amountPos : 0 < order.amountUsd

structure MarketQuote where
  lastExecution : Option ℚ := none
  ask : Option ℚ := none
  bid : Option ℚ := none

/-- ``last_execution or ask or bid or fallback``: a price that is missing or zero is skipped. -/
def MarketQuote.price (quote : MarketQuote) (fallback : ℚ) : ℚ :=
  (([quote.lastExecution, quote.ask, quote.bid].filterMap id).find? (· ≠ 0)).getD fallback

end AlgoTrader.Models
