import AlgoTrader.Execution.Stranded
import AlgoTrader.Lib.Fallible

/-! How a paper-only proposal is executed in its pass (``PaperOnlyPass.execute`` of
``app/workflow/paper_only.py`` over ``approve_enqueue_execute`` of ``app/automation/unattended.py``): every call
that is not a statement on the proposal or on its executions may raise. -/

namespace AlgoTrader.Workflow.PaperOnlyExecute

open Models Execution

inductive ExecutionStatus
  | created
  | validated
  | submitted
  | filled
  | canceled
  | failed
  | blocked
  deriving DecidableEq, Repr

def ExecutionStatus.isRefusal (status : ExecutionStatus) : Bool := status = .failed ∨ status = .blocked

structure QueueItem where
  status : QueueStatus := .queued
  executionId : Option ℕ := none
  deriving DecidableEq

/-- The proposal's row, its executions in the order of creation and its queue item. ``reached`` tells that a
broker, or the simulator in its place, has taken the order. -/
structure World where
  proposal : ApprovalStatus := .pending
  executions : List ExecutionStatus := []
  queue : Option QueueItem := none
  reached : Bool := false
  deriving DecidableEq

inductive Load
  | approve
  | enqueue
  | process
  | trader
  | mark
  | simulatedMark
  | reject
  deriving DecidableEq

inductive PassSite
  | candidateBlockers
  | blockedLog
  | approvedLog
  | enqueuedLog
  | processedLog
  | announcement
  | notice
  | rejectedLog
  deriving DecidableEq

-- The calls inside the ``try`` around the submission.
inductive SubmissionSite
  | proposalEvent
  | executionEvent
  | answerEvent
  | executedLog
  | submittedLog
  | mirror
  deriving DecidableEq

-- ``due`` tells at which load the proposal has expired, ``claimed`` what the calls of the coordinator return
-- and which of them raise, ``answer`` the status in the broker's answer.
structure Outside where
  candidateBlockers : List String := []
  due : Load → Bool := fun _ => false
  duplicate : Bool := false
  symbolTaken : Bool := false
  stale : Bool := false
  claimed : ClaimedRun
  answer : String := "accepted"
  knownOrder : Bool := false
  passRaises : PassSite → Option String := fun _ => none
  submissionRaises : SubmissionSite → Option String := fun _ => none

abbrev Step (α : Type) := EStateM String World α

def isOpen (status : ApprovalStatus) : Bool := status = .pending ∨ status = .approved

def World.latest (w : World) : Option ExecutionStatus := w.executions.getLast?

def World.hasExecution (w : World) (item : QueueItem) : Bool := item.executionId.any (· < w.executions.length)

def World.setQueue (w : World) (status : QueueStatus) (executionId : Option ℕ) : World :=
  { w with queue := some ⟨status, executionId⟩ }

def World.newest (w : World) : Option ℕ := if w.executions = [] then none else some (w.executions.length - 1)

section Statements

def raiseAt (error : Option String) : Step Unit := error.elim (pure ()) throw

def getProposal (due : Bool) : Step ApprovalStatus := do
  let w ← get
  if isOpen w.proposal ∧ due then
    set { w with proposal := .expired }
    pure .expired
  else pure w.proposal

def updateProposal (status : ApprovalStatus) : Step Unit := modify fun w => { w with proposal := status }

def addExecution (status : ExecutionStatus) : Step Unit :=
  modify fun w => { w with executions := w.executions ++ [status] }

-- The execution that was added last.
def updateExecution (status : ExecutionStatus) : Step Unit :=
  modify fun w => { w with executions := w.executions.dropLast ++ [status] }

def reach (taken : Bool) : Step Unit := modify fun w => { w with reached := w.reached || taken }

end Statements

section Statuses

def mapBrokerExecutionStatus (status : String) : ExecutionStatus :=
  let normalized := status.toLower
  if normalized ∈ ["failed", "rejected", "canceled", "cancelled"] then .failed
  else if normalized = "blocked" then .blocked
  else .submitted

def mapBrokerStatus (status : String) : ExecutionStatus :=
  if "simulated".toList <+: status.toList then .submitted
  else if status = "failed" then .failed
  else if status = "blocked" then .blocked
  else .submitted

def mapAmountStatus (status : String) : ExecutionStatus :=
  if status = "failed" then .failed else if status = "blocked" then .blocked else .submitted

end Statuses

section Process

variable (o : Outside)

def callAt (site : CallSite) : Step Unit := raiseAt (o.claimed.raises site)

def submissionAt (site : SubmissionSite) : Step Unit := raiseAt (o.submissionRaises site)

def passAt (site : PassSite) : Step Unit := raiseAt (o.passRaises site)

def callAll (sites : List CallSite) : Step Unit := sites.forM (callAt o)

def markExecuted (load : Load) (log : Option String) : Step Unit := do
  let _ ← getProposal (o.due load)
  updateProposal .executed
  raiseAt log

/-- The broker is called: it takes the order under ``status``, or raises. -/
def ask (attempt : Attempt) (status : ExecutionStatus) : Step Unit :=
  match attempt.result with
  | .error message => throw message
  | .ok () => reach (status = .submitted)

def refuse (message : String) : Step Unit := do
  addExecution .blocked
  submissionAt o .executionEvent
  throw message

def executeProposal : Step Unit := do
  let trader := o.claimed.input.trader
  let order := o.claimed.input.proposal.order
  let status ← getProposal (o.due .trader)
  if status ≠ .approved then refuse o "Proposal must be approved before execution"
  else if trader.riskReasons order ≠ [] then refuse o ("; ".intercalate (trader.riskReasons order))
  else
    submissionAt o .proposalEvent
    addExecution .validated
    submissionAt o .executionEvent
    ask (if order.side = .sell then trader.broker.send (.closePosition order.symbol)
      else trader.broker.send (.openMarketOrderByAmount order)) (mapBrokerStatus o.answer)
    updateExecution (mapBrokerStatus o.answer)
    submissionAt o .answerEvent
    markExecuted o .mark (o.submissionRaises .executedLog)
    submissionAt o .submittedLog

def recordSubmission (attempt : Attempt) (status : ExecutionStatus) (known : Bool) : Step Unit := do
  ask attempt status
  if known then markExecuted o .mark (o.submissionRaises .executedLog)
  else
    addExecution status
    submissionAt o .executionEvent
    markExecuted o .mark (o.submissionRaises .executedLog)
    submissionAt o .submittedLog
    submissionAt o .mirror

def executeWithBroker (broker : BrokerClient) (brokerName : String) : Step Unit := do
  let input := o.claimed.input
  let order := governedOrder input
  if brokerName = "etoro" ∧ broker.key = input.trader.broker.key then executeProposal o
  else
    submissionAt o .proposalEvent
    if broker.submitsOrders then
      recordSubmission o (submitShares input.settings order broker brokerName (quotePrice input))
        (mapBrokerExecutionStatus o.answer) o.knownOrder
    else if broker.opensByAmount then
      recordSubmission o (broker.send (.openMarketOrderByAmount order)) (mapAmountStatus o.answer) false
    else
      throw ("Selected broker '" ++ brokerName ++ "' does not expose a supported order submission method")

def block : Step QueueStatus := do
  callAt o .updateQueue
  modify fun w => w.setQueue .blocked (w.queue.bind QueueItem.executionId)
  callAt o .log
  pure .blocked

def finish : Step QueueStatus := do
  callAt o .updateQueue
  modify fun w => w.setQueue .executed w.newest
  callAt o .log
  pure .executed

def simulate : Step Unit := do
  callAt o .openPaperPosition
  reach true
  addExecution .submitted
  callAt o .createExecution
  markExecuted o .simulatedMark (o.claimed.raises .markExecuted)

def settleFailure : Step QueueStatus := do
  if o.claimed.simulatesFallback then
    simulate o
    finish o
  else
    addExecution .failed
    callAt o .createExecution
    callAt o .updateQueue
    modify fun w => w.setQueue .blocked w.newest
    callAt o .log
    pure .blocked

def sendOrder (broker : BrokerClient) (brokerName : String) : Step QueueStatus := do
  if o.claimed.selfSimulated then
    simulate o
    finish o
  else if o.claimed.supportedMode then
    callAt o .loadExecution
    let w ← get
    if w.queue.any w.hasExecution then pure .processing
    else
      let submitted ← tryCatch (executeWithBroker o broker brokerName *> pure true) fun _ => pure false
      if submitted then finish o else settleFailure o
  else throw ("Unsupported execution mode: " ++ o.claimed.input.settings.executionMode)

def processClaimed : Step QueueStatus := do
  callAll o [.reload, .getProposal]
  let status ← getProposal (o.due .process)
  if status ≠ .approved then block o
  else
    callAll o [.selectBroker]
    match o.claimed.input.broker with
    | .error _ => block o
    | .ok (broker, brokerName) =>
      callAll o ClaimedRun.validationCalls
      if o.claimed.input.validationReasons ≠ [] then block o
      else
        callAll o ClaimedRun.riskCalls
        if o.claimed.input.riskReasons ≠ [] then block o
        else
          callAll o [.drawdownGovernor]
          if o.claimed.bracketFailures brokerName ≠ [] then block o else sendOrder o broker brokerName

def claimable (item : QueueItem) : Bool :=
  item.status = .queued ∨ item.status = .blocked ∨ (item.status = .processing ∧ o.stale)

def processQueueItem : Step QueueStatus := do
  let w ← get
  match w.queue with
  | none => throw "Execution queue item was not found"
  | some item =>
    if w.hasExecution item then pure item.status
    else if w.latest.any fun status => ¬ status.isRefusal then
      set (w.setQueue .executed w.newest)
      pure .executed
    else if item.status.isFinal then pure item.status
    else if ¬ claimable o item then pure item.status
    else if o.symbolTaken then throw "UNIQUE constraint failed"
    else
      set (w.setQueue .processing item.executionId)
      processClaimed o

end Process

section Pass

variable (o : Outside)

def approveProposal : Step Unit := do
  let status ← getProposal (o.due .approve)
  if status ≠ .pending then throw "Only pending proposals can be approved"
  else
    updateProposal .approved
    passAt o .approvedLog

def enqueueApprovedProposal : Step Unit := do
  let status ← getProposal (o.due .enqueue)
  if status ≠ .approved then throw "Proposal must be approved before it can be queued"
  else if o.duplicate then throw "Duplicate execution queue item already exists"
  else
    modify fun w => w.setQueue .queued none
    passAt o .enqueuedLog

def approveEnqueueExecute : Step (Option QueueStatus) := do
  passAt o .candidateBlockers
  if o.candidateBlockers ≠ [] then
    passAt o .blockedLog
    pure none
  else
    approveProposal o
    enqueueApprovedProposal o
    let processed ← processQueueItem o
    passAt o .processedLog
    passAt o .announcement
    passAt o .notice
    pure (some processed)

def rejectProposal : Step Unit := do
  let status ← getProposal (o.due .reject)
  if ¬ isOpen status then throw "Only pending or approved proposals can be rejected"
  else
    updateProposal .rejected
    passAt o .rejectedLog

def placed (w : World) : Bool := w.latest.any fun status => status = .submitted ∨ status = .filled

def withdraw : Step Unit := do
  let w ← get
  if placed w then pure () else tryCatch (rejectProposal o) fun _ => pure ()

def execute : Step (Option QueueStatus × Unit) :=
  tryFinally' (approveEnqueueExecute o) fun processed =>
    if processed.join = some .executed then pure () else withdraw o

end Pass

end AlgoTrader.Workflow.PaperOnlyExecute
