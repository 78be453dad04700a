import AlgoTrader.Lib.Runs
import AlgoTrader.Lib.Rounding
import AlgoTrader.Utils.Time

/-! Broker fills mirrored into the paper ledger (``app/paper/broker_ledger.py`` and the parts of
``app/paper/service.py`` it calls). Labels that rows only carry along are left out. -/

namespace AlgoTrader.Paper

open AlgoTrader.Utils.Time

structure OrderLeg where
  side : String
  orderType : String
  status : String
  filledAvgPrice : Option ℚ
  limitPrice : Option ℚ
  stopPrice : Option ℚ
  filledAt : String
deriving DecidableEq

/-- What the broker answered for an order. A missing text is empty. -/
structure OrderPayload where
  side : String := ""
  type : String := ""
  status : String := ""
  filledQty : Option ℚ := none
  filledAvgPrice : Option ℚ := none
  limitPrice : Option ℚ := none
  stopPrice : Option ℚ := none
  createdAt : IsoText := ⟨"", none⟩
  filledAt : IsoText := ⟨"", none⟩
  legs : Option (List OrderLeg) := none

structure OrderSnapshot where
  brokerOrderId : String
  parentOrderId : String
  executionId : String
  symbol : String
  side : String
  status : String
  filledQty : Option ℚ
  filledAvgPrice : Option ℚ
  createdAt : IsoText
  payload : OrderPayload

structure ExecutionRow where
  id : String
  brokerOrderId : String
  symbol : String
  side : String
  stopLoss : Option ℚ
  brokerExecution : OrderPayload

structure PaperBrokerExecutionRecord where
  executionId : String
  side : String
  filledQty : ℚ
  entryFillPrice : Option ℚ
  exitFillPrice : Option ℚ
  legs : List OrderLeg
  stopLoss : Option ℚ

def orNumber (first second : Option ℚ) : Option ℚ :=
  match first with
  | some value => if value = 0 then second else some value
  | none => second

def orText (first second : String) : String := if first = "" then second else first

def orStamp (first second : IsoText) : IsoText := if first.text = "" then second else first

def OrderPayload.merge (old new : OrderPayload) : OrderPayload where
  side := orText new.side old.side
  type := orText new.type old.type
  status := orText new.status old.status
  filledQty := new.filledQty.or old.filledQty
  filledAvgPrice := new.filledAvgPrice.or old.filledAvgPrice
  limitPrice := new.limitPrice.or old.limitPrice
  stopPrice := new.stopPrice.or old.stopPrice
  createdAt := orStamp new.createdAt old.createdAt
  filledAt := orStamp new.filledAt old.filledAt
  legs := new.legs.or old.legs

section Records

variable (execution : ExecutionRow) (snapshots : List OrderSnapshot)

def parentSnapshot : Option OrderSnapshot :=
  (snapshots.find? (·.brokerOrderId = execution.brokerOrderId)).or (snapshots.find? (·.parentOrderId = ""))

def legFromSnapshot (item : OrderSnapshot) : OrderLeg where
  side := orText item.side item.payload.side
  orderType := item.payload.type
  status := orText item.status item.payload.status
  filledAvgPrice := orNumber item.filledAvgPrice item.payload.filledAvgPrice
  limitPrice := item.payload.limitPrice
  stopPrice := item.payload.stopPrice
  filledAt := item.payload.filledAt.text

def brokerLegs (payload : OrderPayload) : List OrderLeg :=
  match snapshots.filter fun item =>
      execution.brokerOrderId ≠ "" ∧ item.parentOrderId = execution.brokerOrderId with
  | [] => payload.legs.getD []
  | items => (items.mergeSort fun a b => decide (a.createdAt.text ≤ b.createdAt.text)).map legFromSnapshot

def OrderLeg.isExit (leg : OrderLeg) : Bool :=
  leg.status.toLower == "filled" && leg.side.toLower == "sell" && leg.filledAvgPrice.isSome

def snapshotTimestamp (item : OrderSnapshot) : Option Timestamp :=
  (orStamp (orStamp item.payload.filledAt item.payload.createdAt) item.createdAt).time

def separateExitDays : ℤ := 7
def quantityTolerance : ℚ := 1 / 1000000

def isMatchingSeparateExitSnapshot (filledQty : ℚ) (parentTime : Timestamp) (item : OrderSnapshot) : Bool :=
  item.executionId == "" && item.side.toLower == "sell" && item.status.toLower == "filled" &&
    (match snapshotTimestamp item with
      | none => false
      | some time => parentTime ≤ time ∧ time ≤ parentTime + separateExitDays * microsPerDay) &&
    match orNumber item.filledQty item.payload.filledQty with
    | none => false
    | some quantity => quantity - filledQty ≤ quantityTolerance ∧ filledQty - quantity ≤ quantityTolerance

def nearestExitSnapshot (payload : OrderPayload) (symbolSnapshots : List OrderSnapshot) (filledQty : ℚ) :
    Option OrderSnapshot :=
  match (orStamp payload.filledAt payload.createdAt).time with
  | none => none
  | some parentTime =>
      (symbolSnapshots.filter (isMatchingSeparateExitSnapshot filledQty parentTime)).minOn?
        fun item => (snapshotTimestamp item).getD parentTime

def brokerExecutionRecord (symbolSnapshots : List OrderSnapshot) : PaperBrokerExecutionRecord :=
  let parent := parentSnapshot execution snapshots
  let payload := match parent with
    | none => execution.brokerExecution
    | some item => execution.brokerExecution.merge item.payload
  let side := orText payload.side execution.side
  let entryPrice := orNumber payload.filledAvgPrice (parent.bind (·.filledAvgPrice))
  let filledQty := (orNumber payload.filledQty (parent.bind (·.filledQty))).getD 0
  let legs := brokerLegs execution snapshots payload
  let exitPrice := match legs.find? (·.isExit) with
    | some leg => leg.filledAvgPrice
    | none =>
        if side.toLower = "buy" ∧ 0 < filledQty ∧ entryPrice ≠ none then
          (nearestExitSnapshot payload symbolSnapshots filledQty).bind (·.filledAvgPrice)
        else none
  { executionId := execution.id, side, filledQty, entryFillPrice := entryPrice, exitFillPrice := exitPrice, legs
    stopLoss := execution.stopLoss }

end Records

def brokerExecutions (executions : List ExecutionRow) (snapshots : List OrderSnapshot) :
    List PaperBrokerExecutionRecord :=
  executions.map fun execution =>
    brokerExecutionRecord execution (snapshots.filter (·.executionId = execution.id))
      (snapshots.filter (·.symbol.toUpper = execution.symbol.toUpper))

inductive PositionStatus
  | opened | closed
deriving DecidableEq

/-- ``executionId`` is ``none`` for a position that is not broker-backed. -/
structure Position where
  id : ℕ
  executionId : Option String
  side : String
  quantity : ℚ
  entryPrice : ℚ
  currentPrice : ℚ
  stopLoss : Option ℚ
  target1 : Option ℚ
  status : PositionStatus
  updatedAt : String
  closedAt : Option String
  realizedPnlUsd : ℚ
deriving DecidableEq

structure Trade where
  positionId : ℕ
  executionId : Option String
  side : String
  outcome : String
  entryPrice : ℚ
  exitPrice : ℚ
  quantity : ℚ
  realizedPnlUsd : ℚ
  realizedPnlPct : ℚ
  realizedRMultiple : ℚ
  closedAt : String
deriving DecidableEq

structure Ledger where
  positions : List Position := []
  trades : List Trade := []

inductive Write
  | createPosition (position : Position)
  | updatePosition (position : Position)
  | createTrade (trade : Trade)

def Position.updated (old position : Position) : Position :=
  { old with
    status := position.status
    currentPrice := position.currentPrice
    updatedAt := position.updatedAt
    closedAt := position.closedAt
    realizedPnlUsd := position.realizedPnlUsd }

def Ledger.apply (ledger : Ledger) : Write → Ledger
  | .createPosition position => { ledger with positions := ledger.positions ++ [position] }
  | .updatePosition position =>
      { ledger with positions := ledger.positions.map fun old =>
          if old.id = position.id then old.updated position else old }
  | .createTrade trade => { ledger with trades := ledger.trades ++ [trade] }

def listingLimit : ℕ := 2000

def Ledger.list (ledger : Ledger) : List Position :=
  (ledger.positions.mergeSort fun a b => decide (b.updatedAt ≤ a.updatedAt)).take listingLimit

def pnl (side : String) (quantity entryPrice price : ℚ) : ℚ :=
  if side = "sell" then (entryPrice - price) * quantity else (price - entryPrice) * quantity

def Position.pnlUsd (position : Position) (price : ℚ) : ℚ :=
  pnl position.side position.quantity position.entryPrice price

def Position.realizedRMultiple (position : Position) (price : ℚ) : ℚ :=
  match position.stopLoss with
  | none => 0
  | some stopLoss =>
      let unitRisk := max (position.entryPrice - stopLoss) (stopLoss - position.entryPrice)
      if unitRisk ≤ 0 then 0
      else if position.side = "sell" then Rounding.toDigits 3 ((position.entryPrice - price) / unitRisk)
      else Rounding.toDigits 3 ((price - position.entryPrice) / unitRisk)

section Sync

variable (now : String)

def openPosition (id : ℕ) (record : PaperBrokerExecutionRecord) : Position where
  id := id
  executionId := some record.executionId
  side := (orText record.side "buy").toLower
  quantity := record.filledQty
  entryPrice := record.entryFillPrice.getD 0
  currentPrice := record.entryFillPrice.getD 0
  stopLoss :=
    match record.legs.find? (·.stopPrice.isSome) with
    | some leg => leg.stopPrice
    | none => record.stopLoss
  target1 := (record.legs.find? (·.limitPrice.isSome)).bind (·.limitPrice)
  status := .opened
  updatedAt := now
  closedAt := none
  realizedPnlUsd := 0

def exitOutcome (record : PaperBrokerExecutionRecord) : String :=
  match record.legs.find? (·.isExit) with
  | none => "broker_close"
  | some leg =>
      if leg.stopPrice.isSome ∨ leg.orderType.toLower = "stop" then "stop_loss"
      else if leg.limitPrice.isSome ∨ leg.orderType.toLower = "limit" then "target_1"
      else "broker_close"

def exitFilledAt (record : PaperBrokerExecutionRecord) : Option String :=
  (record.legs.find? fun leg =>
    leg.status.toLower = "filled" ∧ leg.side.toLower = "sell" ∧ leg.filledAt ≠ "").map (·.filledAt)

def Position.closed (position : Position) (exitPrice : ℚ) (closedAt : String) : Position :=
  { position with
    status := .closed
    closedAt := some closedAt
    updatedAt := closedAt
    currentPrice := exitPrice
    realizedPnlUsd := Rounding.toDigits 2 (position.pnlUsd exitPrice) }

def closingTrade (position : Position) (exitPrice : ℚ) (outcome closedAt : String) : Trade where
  positionId := position.id
  executionId := position.executionId
  side := position.side
  outcome := outcome
  entryPrice := position.entryPrice
  exitPrice := exitPrice
  quantity := position.quantity
  realizedPnlUsd := Rounding.toDigits 2 (position.pnlUsd exitPrice)
  realizedPnlPct := Rounding.toDigits 2
    (Rounding.toDigits 2 (position.pnlUsd exitPrice) / max (position.entryPrice * position.quantity) (1 / 100) * 100)
  realizedRMultiple := position.realizedRMultiple exitPrice
  closedAt := closedAt

def closePosition (position : Position) (exitPrice : ℚ) (outcome closedAt : String) : List Write :=
  [.updatePosition (position.closed exitPrice closedAt),
    .createTrade (closingTrade position exitPrice outcome closedAt)]

-- Of two listed positions of one execution the one listed later is kept.
def positionOf (known : List Position) (executionId : String) : Option Position :=
  known.reverse.find? (·.executionId = some executionId)

def positionsByExecution (ledger : Ledger) : List Position := ledger.list.filter (·.executionId.isSome)

def PaperBrokerExecutionRecord.HasFill (record : PaperBrokerExecutionRecord) : Prop :=
  0 < record.filledQty ∧ record.entryFillPrice ≠ none

instance (record : PaperBrokerExecutionRecord) : Decidable record.HasFill := inferInstanceAs (Decidable (_ ∧ _))

structure Pass where
  writes : List Write := []
  known : List Position

def closeRecord (known : List Position) (position : Position) (record : PaperBrokerExecutionRecord) : Pass :=
  match position.status, record.exitFillPrice with
  | .opened, some exitPrice =>
      let closedAt := (exitFilledAt record).getD now
      { writes := closePosition position exitPrice (exitOutcome record) closedAt
        known := known ++ [position.closed exitPrice closedAt] }
  | _, _ => { known }

def syncRecord (nextId : ℕ) (known : List Position) (record : PaperBrokerExecutionRecord) : Pass :=
  if record.HasFill then
    match positionOf known record.executionId with
    | some position => closeRecord now known position record
    | none =>
        let position := openPosition now nextId record
        let closing := closeRecord now (known ++ [position]) position record
        { closing with writes := .createPosition position :: closing.writes }
  else { known }

def syncRecords : Ledger → List Position → List PaperBrokerExecutionRecord → List Write
  | _, _, [] => []
  | ledger, known, record :: rest =>
      let pass := syncRecord now ledger.positions.length known record
      pass.writes ++ syncRecords (Runs.run Ledger.apply ledger pass.writes) pass.known rest

end Sync

/-- What one sync reads. An execution's id is its primary key. -/
structure Sync where
  executions : List ExecutionRow
  snapshots : List OrderSnapshot
  now : String
  ids_nodup : (executions.map (·.id)).Nodup

def Sync.records (sync : Sync) : List PaperBrokerExecutionRecord := brokerExecutions sync.executions sync.snapshots

def syncBrokerBackedPositions (ledger : Ledger) (sync : Sync) : List Write :=
  syncRecords sync.now ledger (positionsByExecution ledger) sync.records

end AlgoTrader.Paper
