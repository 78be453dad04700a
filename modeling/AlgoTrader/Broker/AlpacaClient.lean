import Mathlib.Data.Rat.Defs

/-! The broker state the Alpaca client reads (``app/broker/alpaca_client.py``): orders with
their nested legs, positions, and the payload an order is handed on as. Timestamps, prices and
client order ids are left out. -/

namespace AlgoTrader.Broker

structure BrokerLeg where
  id : String
  symbol : String
  side : String
  type : String
  status : String
  qty : ℚ
  filledQty : ℚ := 0
  deriving DecidableEq

structure BrokerOrder extends BrokerLeg where
  orderClass : String := ""
  legs : List BrokerLeg := []

-- The keys ``order_type`` and ``type`` are looked up in a payload but may be missing from it.
structure OrderPayload where
  brokerOrderId : String
  symbol : String
  side : String
  orderType : Option String := none
  type : Option String := none
  qty : ℚ
  status : String
  filledQty : ℚ
  orderClass : String
  legs : List BrokerLeg

structure ExecutionRecord where
  brokerOrderId : String
  responsePayload : OrderPayload

structure PortfolioPosition where
  symbol : String
  quantity : ℚ
  deriving DecidableEq

structure AccountIdentity where
  accountNumber : String
  tradingBlocked : Bool := false

/-- The record of an order. A leg keeps its type; the order's own type is not in the payload. -/
def executionRecord (order : BrokerOrder) : ExecutionRecord where
  brokerOrderId := order.id
  responsePayload :=
    { brokerOrderId := order.id
      symbol := order.symbol.toUpper
      side := order.side
      qty := order.qty
      status := order.status
      filledQty := order.filledQty
      orderClass := order.orderClass
      legs := order.legs.map fun leg => { leg with symbol := leg.symbol.toUpper } }

end AlgoTrader.Broker
