import AlgoTrader.Lib.Runs
import Mathlib.Data.String.Basic
import Mathlib.Data.List.Basic

/-! The extended-hours order book (``app/experiments/extended_hours.py`` over
``ExtendedHoursExperimentRepository`` and ``AlpacaClient``), and the broker's orders it is about. -/

namespace AlgoTrader.Experiments.ExtendedHours

def openStatuses : List String :=
  ["submitted", "accepted", "new", "partially_filled", "filled", "pending_exit", "exit_submitted"]

def expirableStatuses : List String := ["submitted", "accepted", "new"]

-- After one of these the broker does nothing more with an order.
def closedStatuses : List String :=
  ["filled", "canceled", "cancelled", "expired", "rejected", "replaced", "done_for_day"]

def isLive (status : String) : Bool := status ∉ closedStatuses

/-- An order at the broker. ``clientOrderId`` is ``none`` when it was generated: no other order has it. -/
structure BrokerOrder where
  clientOrderId : Option String
  status : String
  deriving DecidableEq

/-- A row of the book; orders of the broker are named by their place in its list. -/
structure ExperimentOrder where
  status : String
  clientOrderId : Option String
  brokerOrderId : Option ℕ := none
  exitBrokerOrderId : Option ℕ := none
  failureReason : Option String := none
  expiresAt : Option ℕ := none
  deriving DecidableEq

structure Book where
  clock : ℕ := 0
  broker : List BrokerOrder := []
  orders : List ExperimentOrder := []
  deriving DecidableEq

structure ExperimentSettings where
  submitEnabled : Bool := true
  maxOpenOrders : ℕ := 1
  orderTtlSeconds : ℕ := 300

/-- What a submission meets: the order is taken and answered for, or taken and the answer is lost, or refused. -/
inductive Answer
  | taken (status : String)
  | lost (status : String)
  | refused
  deriving DecidableEq

/-- What a cancel meets: the broker accepts it and the order is ``after`` then, or the client reads from the
error that there is nothing to cancel, or it raises. -/
inductive CancelReply
  | accepted (after : String)
  | nothingToCancel
  | raised (message : String)
  deriving DecidableEq

-- ``blocked`` stands for the gates that do not look at the book, ``planned`` for the order plan's checks.
structure Probe where
  clientOrderId : Option String := none
  blocked : Bool := false
  planned : Bool := true
  answer : Answer := .taken "accepted"

structure Exit where
  clientOrderId : Option String := none
  positionHeld : Bool := true
  planned : Bool := true
  answer : Answer := .taken "accepted"

namespace Book

variable (b : Book)

section Client

-- A client order id the broker knows names the order it has.
def duplicate (clientOrderId : Option String) : Option ℕ :=
  if clientOrderId.isNone then none
  else (b.broker.findIdx? fun order => order.clientOrderId = clientOrderId)

def addBrokerOrder (clientOrderId : Option String) (status : String) : Book :=
  { b with broker := b.broker ++ [⟨clientOrderId, status⟩] }

def submitOrder (clientOrderId : Option String) (answer : Answer) : Option ℕ × Book :=
  match answer, b.duplicate clientOrderId with
  | .refused, _ => (none, b)
  | .taken _, some known => (some known, b)
  | .lost _, some _ => (none, b)
  | .taken status, none => (some b.broker.length, b.addBrokerOrder clientOrderId status)
  | .lost status, none => (none, b.addBrokerOrder clientOrderId status)

def statusOf (brokerOrderId : ℕ) : String := (b.broker[brokerOrderId]?).elim "" BrokerOrder.status

def isLiveOrder (brokerOrderId : ℕ) : Bool := (b.broker[brokerOrderId]?).any fun order => isLive order.status

def move (brokerOrderId : ℕ) (status : String) : Book :=
  { b with
    broker := b.broker.modify brokerOrderId fun order =>
      if isLive order.status then { order with status := status } else order }

end Client

section Repository

def getByClientOrderId (clientOrderId : String) : Option ExperimentOrder :=
  b.orders.find? fun order => order.clientOrderId = some clientOrderId

def openOrderCount : ℕ := b.orders.countP fun order => order.status ∈ openStatuses

def updateOrder (id : ℕ) (f : ExperimentOrder → ExperimentOrder) : Book :=
  { b with orders := b.orders.modify id f }

def isExpired (order : ExperimentOrder) : Bool :=
  order.status ∈ expirableStatuses ∧ order.brokerOrderId.isSome ∧ order.expiresAt.any (· ≤ b.clock)

def listExpiredOpenOrders : List ℕ :=
  (List.range b.orders.length).filter fun id => (b.orders[id]?).any b.isExpired

end Repository

section Service

def recordCanceled (id : ℕ) (reason : String) : Book :=
  b.updateOrder id fun order => { order with status := "canceled", failureReason := some reason }

def cancelOrder (id : ℕ) (reason : String) (reply : CancelReply) : Option String × Book :=
  match b.orders[id]? with
  | none => (some "order not found", b)
  | some order =>
      match order.brokerOrderId, reply with
      | none, _ => (none, b.recordCanceled id reason)
      | some _, .raised message => (some message, b)
      | some brokerOrderId, .accepted after => (none, (b.move brokerOrderId after).recordCanceled id reason)
      | some _, .nothingToCancel => (none, b.recordCanceled id reason)

def cancelExpired (reply : CancelReply) (id : ℕ) : Book :=
  match b.cancelOrder id "ttl_expired" reply with
  | (none, b') => b'
  | (some message, b') =>
      b'.updateOrder id fun order => { order with failureReason := some ("ttl_cancel_failed:" ++ message) }

def cancelExpiredOrders (replies : ℕ → CancelReply) : Book :=
  b.listExpiredOpenOrders.foldl (fun b id => b.cancelExpired (replies id) id) b

def existing (clientOrderId : Option String) : Option ExperimentOrder := clientOrderId.bind b.getByClientOrderId

def recordedStatus (status : String) : String := if status = "" then "submitted" else status

def createOrder (order : ExperimentOrder) : Book := { b with orders := b.orders ++ [order] }

def submits (s : ExperimentSettings) (probe : Probe) : Bool :=
  ¬ probe.blocked ∧ b.openOrderCount < s.maxOpenOrders ∧ probe.planned

/-- ``probe_alpaca`` from its gates on. -/
def placeOrder (s : ExperimentSettings) (probe : Probe) : Book :=
  if ¬ b.submits s probe then b
  else if ¬ s.submitEnabled then b.createOrder { status := "dry_run", clientOrderId := probe.clientOrderId }
  else
    match b.submitOrder probe.clientOrderId probe.answer with
    | (none, b') => b'
    | (some brokerOrderId, b') =>
        b'.createOrder
          { status := recordedStatus (b'.statusOf brokerOrderId)
            clientOrderId := probe.clientOrderId
            brokerOrderId := some brokerOrderId
            expiresAt := some (b'.clock + s.orderTtlSeconds) }

def probeAlpaca (s : ExperimentSettings) (replies : ℕ → CancelReply) (probe : Probe) : Book :=
  if (b.existing probe.clientOrderId).isSome then b else (b.cancelExpiredOrders replies).placeOrder s probe

def exits (id : ℕ) (exit : Exit) : Bool := b.orders[id]?.isSome ∧ exit.positionHeld ∧ exit.planned

def submitExit (id : ℕ) (exit : Exit) : Book :=
  if ¬ b.exits id exit then b
  else
    match b.submitOrder exit.clientOrderId exit.answer with
    | (none, b') => b'
    | (some brokerOrderId, b') =>
        b'.updateOrder id fun order =>
          { order with status := "exit_submitted", exitBrokerOrderId := some brokerOrderId }

end Service

end Book

/-- ``refresh`` is ``status`` and ``list_orders``, which cancel what has expired. -/
inductive Action
  | probe (replies : ℕ → CancelReply) (probe : Probe)
  | refresh (replies : ℕ → CancelReply)
  | cancel (id : ℕ) (reason : String) (reply : CancelReply)
  | exit (id : ℕ) (exit : Exit)
  | brokerMoves (brokerOrderId : ℕ) (status : String)
  | tick (seconds : ℕ)

def step (s : ExperimentSettings) (b : Book) : Action → Book
  | .probe replies probe => b.probeAlpaca s replies probe
  | .refresh replies => b.cancelExpiredOrders replies
  | .cancel id reason reply => (b.cancelOrder id reason reply).2
  | .exit id exit => b.submitExit id exit
  | .brokerMoves brokerOrderId status => b.move brokerOrderId status
  | .tick seconds => { b with clock := b.clock + seconds }

end AlgoTrader.Experiments.ExtendedHours
