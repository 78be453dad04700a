import AlgoTrader.Broker.AlpacaClient
import AlgoTrader.Lib.Text
import Mathlib.Data.Finset.Insert
import Mathlib.Data.List.Sort
import Mathlib.Algebra.Order.Ring.Rat

/-! One reconciliation sweep (``app/automation/reconciliation.py``): what the open orders say
about each position, and which positions end as an issue. The rows the sweep writes back to the
database are left out. -/

namespace AlgoTrader.Automation

open Broker Text

def liveLegStatuses : List String :=
  ["new", "accepted", "held", "pending_new", "partially_filled", "accepted_for_bidding",
    "calculated"]

def legIsLive (status : String) : Bool := liveLegStatuses.contains status.toLower

def qtyHeldMarkers : List String :=
  ["insufficient qty available", "40310000", "held_for_orders"]

def alreadyFlatMarkers : List String := ["position not found", "40410000"]

def protectiveOrderTypes : List String :=
  ["stop", "stop_limit", "stop-limit", "limit", "trailing_stop"]

def isStopType (type : String) : Bool := containsText "stop" type.toLower

def mentions (markers : List String) (message : String) : Bool :=
  markers.any fun marker => containsText marker message.toLower

def closingSide (position : PortfolioPosition) : String :=
  if position.quantity < 0 then "buy" else "sell"

structure Settings where
  expectedAccountNumber : String := ""
  flattenUnprotectedPositions : Bool := true
  executionMode : String := "paper"
  enableRealTrading : Bool := false

structure Execution where
  id : String
  brokerOrderId : String := ""

/-- What a sweep reads: the account, the orders and positions at the broker, our own executions,
and what the broker would answer to a request to close a symbol (`none`: the client has no such
call). -/
structure Snapshot where
  settings : Settings := {}
  account : AccountIdentity
  orders : List BrokerOrder
  positions : List PortfolioPosition
  executions : List Execution
  closePosition : Option (String → Except String Unit)

inductive SweepLog
  | closingInFlight (symbol : String) (quantity : ℚ)
  | alreadyFlat (symbol error : String)
  | flattenDeferred (symbol error : String)
  | flattenFailed (symbol error : String)
  | flattened (symbol : String) (quantity : ℚ)
  deriving DecidableEq

structure OrderScan where
  ownedSymbols : Finset String := ∅
  protectedSymbols : Finset String := ∅
  liveCloseSides : Finset (String × String) := ∅
  liveProtectiveSides : Finset (String × String) := ∅

structure Review where
  issues : List String
  logs : List SweepLog := []

structure SweepResult where
  ordersSeen : ℕ
  positionsSeen : ℕ
  issues : List String
  logs : List SweepLog

def missingBracketProtection (symbol : String) : String := "missing_bracket_protection:" ++ symbol

def unknownPosition (symbol : String) : String := "unknown_position:" ++ symbol

section Sweep

variable (snapshot : Snapshot)

def executionByOrder (brokerOrderId : String) : Option Execution :=
  (snapshot.executions.filter (·.brokerOrderId ≠ "")).reverse.find?
    (·.brokerOrderId = brokerOrderId)

def liveLegs (payload : OrderPayload) : List BrokerLeg :=
  payload.legs.filter fun leg => legIsLive leg.status && isStopType leg.type

def scanOrder (scan : OrderScan) (order : ExecutionRecord) : OrderScan :=
  let payload := order.responsePayload
  let owned := (executionByOrder snapshot order.brokerOrderId).isSome
  let symbol := payload.symbol.toUpper
  let live := symbol ≠ "" ∧ legIsLive payload.status = true
  let orderType := (orText payload.orderType (orText payload.type "")).toLower
  let collect (due : Bool) (sides : Finset (String × String)) :=
    if due then insert (symbol, payload.side.toLower) sides else sides
  { ownedSymbols := if owned then insert symbol scan.ownedSymbols else scan.ownedSymbols
    protectedSymbols :=
      if owned ∧ payload.orderClass = "bracket" ∧ liveLegs payload ≠ [] then
        insert symbol scan.protectedSymbols
      else scan.protectedSymbols
    liveCloseSides := collect (live ∧ orderType ∉ protectiveOrderTypes) scan.liveCloseSides
    liveProtectiveSides :=
      collect (live ∧ orderType ∈ protectiveOrderTypes) scan.liveProtectiveSides }

def scanOrders : OrderScan :=
  (snapshot.orders.map executionRecord).foldl (scanOrder snapshot) {}

/-- Close an owned position that lost its protection: whether it counts as dealt with, and what
is logged about it. -/
def flattenUnprotected (symbol : String) (position : PortfolioPosition) : Bool × List SweepLog :=
  if snapshot.settings.flattenUnprotectedPositions = false then (false, [])
  else if snapshot.settings.executionMode ≠ "paper" then (false, [])
  else if snapshot.settings.enableRealTrading = true then (false, [])
  else
    match snapshot.closePosition with
    | none => (false, [])
    | some close =>
      match close symbol with
      | .ok () => (true, [.flattened symbol position.quantity])
      | .error message =>
        if mentions alreadyFlatMarkers message then (true, [.alreadyFlat symbol message])
        else if mentions qtyHeldMarkers message then (true, [.flattenDeferred symbol message])
        else (false, [.flattenFailed symbol message])

def noteUnknown (scan : OrderScan) (review : Review) (symbol : String) : Review :=
  if symbol ∈ scan.ownedSymbols then review
  else { review with issues := review.issues ++ [unknownPosition symbol] }

def reviewPosition (scan : OrderScan) (review : Review) (position : PortfolioPosition) : Review :=
  let symbol := position.symbol.toUpper
  let review := noteUnknown scan review symbol
  if symbol ∈ scan.protectedSymbols then review
  else if (symbol, closingSide position) ∈ scan.liveProtectiveSides then review
  else if (symbol, closingSide position) ∈ scan.liveCloseSides then
    { review with logs := review.logs ++ [.closingInFlight symbol position.quantity] }
  else if symbol ∈ scan.ownedSymbols then
    let (dealtWith, logs) := flattenUnprotected snapshot symbol position
    if dealtWith then { review with logs := review.logs ++ logs }
    else
      { issues := review.issues ++ [missingBracketProtection symbol]
        logs := review.logs ++ logs }
  else { review with issues := review.issues ++ [missingBracketProtection symbol] }

def accountIssues : List String :=
  let expected := strip snapshot.settings.expectedAccountNumber
  let actual := snapshot.account.accountNumber
  (if expected = "" ∨ actual = expected then []
    else ["account_mismatch:expected=" ++ expected ++ ":actual=" ++ actual]) ++
  (if snapshot.account.tradingBlocked then ["alpaca_trading_blocked"] else [])

def reviewPositions : Review :=
  snapshot.positions.foldl (reviewPosition snapshot (scanOrders snapshot))
    { issues := accountIssues snapshot }

def reconcile : SweepResult :=
  let review := reviewPositions snapshot
  { ordersSeen := snapshot.orders.length
    positionsSeen := snapshot.positions.length
    issues := review.issues.dedup.mergeSort (· ≤ ·)
    logs := review.logs }

end Sweep

end AlgoTrader.Automation
