import AlgoTrader.Lib.Runs
import AlgoTrader.Lib.Sha256
import AlgoTrader.Models.Trade
import Mathlib.Logic.Function.Basic

/-! The execution queue with several workers (``app/execution/coordinator.py`` over
``ExecutionQueueRepository``). Each database statement and each broker call of a worker is one
step, and the steps of different workers interleave. What the validation of an order and the
broker answer is left to the run. Reading a proposal and expiring it are one step, and so are
reading and writing it to mark it executed. -/

namespace AlgoTrader.Execution

open Models

inductive QueueStatus
  | queued
  | processing
  | executed
  | cancelled
  | blocked
  | failed
  deriving DecidableEq, Repr

def QueueStatus.isOpen (status : QueueStatus) : Bool := status = .queued ∨ status = .processing

def QueueStatus.isFinal (status : QueueStatus) : Bool :=
  status = .executed ∨ status = .cancelled ∨ status = .failed

inductive ExecutionStatus
  | validated
  | submitted
  | failed
  | blocked
  deriving DecidableEq, Repr

structure QueueRow where
  id : String
  proposalId : String
  symbol : String
  clientOrderId : String
  status : QueueStatus := .queued
  executionId : Option ℕ := none
  updatedAt : ℕ
  deriving DecidableEq

structure StoredProposal where
  symbol : String
  status : ApprovalStatus
  expiresAt : ℕ
  deriving DecidableEq

structure Submission where
  proposalId : String
  queueId : String
  clientOrderId : String
  deriving DecidableEq

inductive Route
  | selfSimulated
  | broker
  | trader
  deriving DecidableEq

/-- How far a call that claimed its row has come. ``called`` tells whether the broker was called,
``guarded`` whether an exception still counts as a failed submission. -/
inductive Stage
  | claimed
  | reloaded
  | blocking
  | armed
  | routed (route : Route)
  | traderChecked
  | traderValidated (executionId : ℕ)
  | traderAnswered (executionId : ℕ) (status : ExecutionStatus)
  | answered (status : ExecutionStatus)
  | recorded (executionId : ℕ) (guarded called : Bool)
  | marked (executionId : ℕ) (guarded : Bool)
  | failing (called : Bool)
  | failed (executionId : ℕ) (called : Bool)
  deriving DecidableEq

def Stage.pending : Stage → Bool
  | .traderAnswered _ _ => true
  | .answered _ => true
  | .recorded _ _ called => called
  | .failing called => called
  | .failed _ called => called
  | _ => false

inductive Worker
  | idle
  | enqueueing (proposalId symbol : String) (unique : Bool)
  | loaded (record : QueueRow)
  | checked (record : QueueRow)
  | found (record : QueueRow) (executionId : ℕ)
  | ready (record : QueueRow) (staleBefore : ℕ)
  | attempt (record : QueueRow) (stage : Stage)
  deriving DecidableEq

-- What the world outside answers at a step.
inductive Choice
  | proceed
  | insertAs (id : String)
  | block
  | route (route : Route)
  | answer (status : ExecutionStatus)
  | refuse
  | fallBack
  | raise
  deriving DecidableEq

inductive QueueAction (n : ℕ)
  | enqueue (worker : Fin n) (proposalId : String)
  | process (worker : Fin n) (queueId : String)
  | advance (worker : Fin n) (choice : Choice)
  | stop (worker : Fin n)
  | tick (seconds : ℕ)

-- ``executions`` is in the order of creation. ``unsettled`` lists the queue items whose broker
-- call was over before their proposal was marked executed; the program has no such list.
structure QueueState (n : ℕ) where
  clock : ℕ := 0
  proposals : String → Option StoredProposal
  rows : List QueueRow := []
  executions : List (String × ExecutionStatus) := []
  workers : Fin n → Worker := fun _ => .idle
  submitted : List Submission := []
  unsettled : List (String × String) := []

def clientOrderId (proposalId queueId : String) : String :=
  String.ofList ((Sha256.hexdigest (proposalId ++ ":" ++ queueId ++ ":v1")).toList.take 32)

namespace QueueState

variable {n : ℕ} (s : QueueState n) (worker : Fin n)

def setWorker (state : Worker) : QueueState n :=
  { s with workers := Function.update s.workers worker state }

def leave : QueueState n :=
  match s.workers worker with
  | .attempt record stage =>
    if stage.pending then
      { s.setWorker worker .idle with
        unsettled := (record.proposalId, record.id) :: s.unsettled }
    else s.setWorker worker .idle
  | _ => s.setWorker worker .idle

def setStatus (proposalId : String) (status : ApprovalStatus) : QueueState n :=
  { s with
    proposals := Function.update s.proposals proposalId
      ((s.proposals proposalId).map fun proposal => { proposal with status := status }) }

def isDue (proposal : StoredProposal) : Bool :=
  (proposal.status = .pending ∨ proposal.status = .approved) ∧ proposal.expiresAt ≤ s.clock

def expireIfNeeded (proposalId : String) : QueueState n :=
  if (s.proposals proposalId).any s.isDue then s.setStatus proposalId .expired else s

def isApproved (proposalId : String) : Bool :=
  (s.proposals proposalId).any fun proposal => proposal.status = .approved

def addExecution (proposalId : String) (status : ExecutionStatus) : QueueState n :=
  { s with executions := s.executions ++ [(proposalId, status)] }

def updateExecution (executionId : ℕ) (status : ExecutionStatus) : QueueState n :=
  { s with executions := s.executions.modify executionId fun execution => (execution.1, status) }

def executionExists (executionId : Option ℕ) : Bool :=
  executionId.any (· < s.executions.length)

def latestExecution (proposalId : String) : Option (ℕ × ExecutionStatus) :=
  ((s.executions.zipIdx.reverse).find? fun entry => entry.1.1 = proposalId).map
    fun entry => (entry.2, entry.1.2)

def row? (queueId : String) : Option QueueRow := s.rows.find? (·.id = queueId)

def openElsewhere (symbol queueId : String) : Bool :=
  s.rows.any fun row => row.status.isOpen ∧ row.symbol = symbol ∧ row.id ≠ queueId

def updateRow (queueId : String) (status : QueueStatus) (executionId : Option ℕ) : QueueState n :=
  { s with
    rows := s.rows.map fun row =>
      if row.id = queueId then
        { row with status := status, executionId := executionId, updatedAt := s.clock }
      else row }

def insertRow (proposalId symbol queueId : String) : QueueState n :=
  { s with
    rows := s.rows ++
      [{ id := queueId
         proposalId := proposalId
         symbol := symbol.toUpper
         clientOrderId := clientOrderId proposalId queueId
         updatedAt := s.clock }] }

def claimable (row : QueueRow) (staleBefore : ℕ) : Bool :=
  row.status = .queued ∨ row.status = .blocked ∨
    row.status = .processing ∧ row.updatedAt < staleBefore

def submit (record : QueueRow) : QueueState n :=
  { s with
    submitted := s.submitted ++ [⟨record.proposalId, record.id, record.clientOrderId⟩] }

def setStage (record : QueueRow) (stage : Stage) : QueueState n :=
  s.setWorker worker (.attempt record stage)

/-- The row is claimed when its status allows it; an open row of the same symbol raises. -/
def claimed? (record : QueueRow) (staleBefore : ℕ) : Option QueueRow :=
  (s.row? record.id).filter fun row =>
    claimable row staleBefore ∧ s.openElsewhere row.symbol row.id = false

def claimForProcessing (record : QueueRow) (staleBefore : ℕ) : QueueState n :=
  match s.claimed? record staleBefore with
  | some row => (s.updateRow row.id .processing row.executionId).setStage worker record .claimed
  | none => s.leave worker

def finish (record : QueueRow) (status : QueueStatus) (executionId : Option ℕ) : QueueState n :=
  (s.updateRow record.id status executionId).leave worker

-- The order is refused before it is sent, or the broker is called and answers or raises.
def callBroker (record : QueueRow) (answered : ExecutionStatus → Stage) :
    Choice → QueueState n
  | .answer status => (s.submit record).setStage worker record (answered status)
  | .refuse => s.setStage worker record (.failing false)
  | .raise => (s.submit record).setStage worker record (.failing true)
  | _ => s

def advanceAttempt (record : QueueRow) : Stage → Choice → QueueState n
  | .claimed, .proceed => s.setStage worker ((s.row? record.id).getD record) .reloaded
  | .reloaded, .proceed =>
    let s' := s.expireIfNeeded record.proposalId
    if s'.isApproved record.proposalId then s'.setStage worker record .armed
    else s'.setStage worker record .blocking
  | .blocking, .proceed => s.finish worker record .blocked record.executionId
  | .armed, .block => s.setStage worker record .blocking
  | .armed, .route route => s.setStage worker record (.routed route)
  | .routed .selfSimulated, .proceed =>
    (s.addExecution record.proposalId .submitted).setStage worker record
      (.recorded s.executions.length false false)
  | .routed .broker, choice =>
    if s.executionExists record.executionId then s.leave worker
    else s.callBroker worker record .answered choice
  | .routed .trader, .proceed =>
    let s' := s.expireIfNeeded record.proposalId
    if s'.isApproved record.proposalId then s'.setStage worker record .traderChecked
    else (s'.addExecution record.proposalId .blocked).setStage worker record (.failing false)
  | .traderChecked, .block =>
    (s.addExecution record.proposalId .blocked).setStage worker record (.failing false)
  | .traderChecked, .proceed =>
    (s.addExecution record.proposalId .validated).setStage worker record
      (.traderValidated s.executions.length)
  | .traderValidated executionId, choice =>
    s.callBroker worker record (.traderAnswered executionId) choice
  | .traderAnswered executionId status, .proceed =>
    (s.updateExecution executionId status).setStage worker record
      (.recorded executionId true true)
  | .answered status, .proceed =>
    (s.addExecution record.proposalId status).setStage worker record
      (.recorded s.executions.length true true)
  | .traderAnswered _ _, .raise => s.setStage worker record (.failing true)
  | .answered _, .raise => s.setStage worker record (.failing true)
  | .recorded executionId guarded _, .proceed =>
    (s.setStatus record.proposalId .executed).setStage worker record (.marked executionId guarded)
  | .recorded _ true called, .raise => s.setStage worker record (.failing called)
  | .marked executionId _, .proceed => s.finish worker record .executed (some executionId)
  | .marked _ true, .raise => s.setStage worker record (.failing false)
  | .failing called, .fallBack =>
    (s.addExecution record.proposalId .submitted).setStage worker record
      (.recorded s.executions.length false called)
  | .failing called, .proceed =>
    (s.addExecution record.proposalId .failed).setStage worker record
      (.failed s.executions.length called)
  | .failed executionId _, .proceed => s.finish worker record .blocked (some executionId)
  | _, _ => s

/-- One step of a worker's call; ``timeout`` is the age at which a claimed row counts as
abandoned. -/
def advance (timeout : ℕ) (choice : Choice) : QueueState n :=
  match s.workers worker with
  | .idle => s
  | .enqueueing proposalId symbol false =>
    if s.rows.any fun row => row.status.isOpen ∧ row.symbol = symbol.toUpper then s.leave worker
    else s.setWorker worker (.enqueueing proposalId symbol true)
  | .enqueueing proposalId symbol true =>
    match choice with
    | .insertAs queueId =>
      if (s.row? queueId).isSome ∨ s.openElsewhere symbol.toUpper queueId then s.leave worker
      else (s.insertRow proposalId symbol queueId).leave worker
    | _ => s
  | .loaded record =>
    if s.executionExists record.executionId then s.leave worker
    else s.setWorker worker (.checked record)
  | .checked record =>
    match s.latestExecution record.proposalId with
    | some (executionId, status) =>
      if status ≠ .failed ∧ status ≠ .blocked then s.setWorker worker (.found record executionId)
      else if record.status.isFinal then s.leave worker
      else s.setWorker worker (.ready record (s.clock - timeout))
    | none =>
      if record.status.isFinal then s.leave worker
      else s.setWorker worker (.ready record (s.clock - timeout))
  | .found record executionId => s.finish worker record .executed (some executionId)
  | .ready record staleBefore => s.claimForProcessing worker record staleBefore
  | .attempt record stage => s.advanceAttempt worker record stage choice

def step (timeout : ℕ) (s : QueueState n) : QueueAction n → QueueState n
  | .enqueue worker proposalId =>
    if s.workers worker = .idle then
      let s' := s.expireIfNeeded proposalId
      match s'.proposals proposalId with
      | some proposal =>
        if proposal.status = .approved then
          s'.setWorker worker (.enqueueing proposalId proposal.symbol false)
        else s'
      | none => s'
    else s
  | .process worker queueId =>
    if s.workers worker = .idle then
      match s.row? queueId with
      | some row => s.setWorker worker (.loaded row)
      | none => s
    else s
  | .advance worker choice => s.advance worker timeout choice
  | .stop worker => s.leave worker
  | .tick seconds => { s with clock := s.clock + seconds }

end QueueState

end AlgoTrader.Execution
