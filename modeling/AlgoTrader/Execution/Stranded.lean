import AlgoTrader.Execution.Coordinator
import AlgoTrader.Execution.Queue
import Mathlib.Tactic.MkIffOfInductiveProp

/-! How a queue item is left (``_process_queue_item`` of ``app/execution/coordinator.py``): every
call between the claim of its row and the row's last update may raise. Only the submission runs
inside a ``try``. -/

namespace AlgoTrader.Execution

open Models

inductive CallSite
  | reload
  | getProposal
  | selectBroker
  | automationBlockers
  | getQuote
  | accountReasons
  | marketDirection
  | paperOnlyHeld
  | countSince
  | logDriftBypass
  | riskContext
  | roomVerdict
  | validateOrder
  | drawdownGovernor
  | loadExecution
  | openPaperPosition
  | createExecution
  | markExecuted
  | updateQueue
  | log
  deriving DecidableEq, Repr

-- What ``input`` says the calls return, and which of them raise instead. A call that is not made does
-- not raise. ``submissionError`` is what the submission raises besides the refusals of the broker.
structure ClaimedRun where
  input : QueueInput
  raises : CallSite → Option String := fun _ => none
  submissionError : Option String := none

structure Exit where
  status : QueueStatus
  result : Except String Unit

def QueueStatus.isSettled : QueueStatus → Bool
  | .queued => true
  | .executed => true
  | .blocked => true
  | .failed => true
  | .processing => false
  | .cancelled => false

namespace ClaimedRun

variable (run : ClaimedRun)

def calls (sites : List CallSite) (rest : Exit) : Exit :=
  match sites.findSome? run.raises with
  | some message => ⟨.processing, .error message⟩
  | none => rest

-- What is logged after the update of the row may still raise.
def update (status : QueueStatus) : Exit :=
  run.calls [.updateQueue] ⟨status, (run.raises .log).elim (.ok ()) .error⟩

def paperCalls : List CallSite := [.openPaperPosition, .createExecution, .markExecuted]

def validationCalls : List CallSite :=
  [.automationBlockers, .getQuote, .accountReasons, .marketDirection, .paperOnlyHeld, .countSince, .logDriftBypass]

def riskCalls : List CallSite := [.riskContext, .roomVerdict, .validateOrder]

def selfSimulated : Bool :=
  run.input.settings.executionMode = "paper" ∧ run.input.settings.paperBroker = "self_simulated"

def supportedMode : Bool :=
  run.input.settings.executionMode = "paper" ∨ run.input.settings.executionMode = "live"

def simulatesFallback : Bool :=
  run.input.settings.executionMode = "paper" ∧ run.input.settings.paperSimulatedFallbackEnabled = true ∧
    run.input.roomAuthority = "paper"

def submission (broker : BrokerClient) (brokerName : String) : Except String Unit :=
  match (executeWithBroker run.input (governedOrder run.input) broker brokerName (quotePrice run.input)).result with
  | .error message => .error message
  | .ok () => run.submissionError.elim (.ok ()) .error

def settleFailure : Exit :=
  if run.simulatesFallback then run.calls paperCalls (run.update .executed)
  else run.calls [.createExecution] (run.update .blocked)

def sendOrder (broker : BrokerClient) (brokerName : String) : Exit :=
  if run.selfSimulated then run.calls paperCalls (run.update .executed)
  else if run.supportedMode then
    run.calls [.loadExecution] <|
    if run.input.alreadyExecuted then ⟨.processing, .ok ()⟩
    else
      match run.submission broker brokerName with
      | .ok () => run.update .executed
      | .error _ => run.settleFailure
  else ⟨.processing, .error ("Unsupported execution mode: " ++ run.input.settings.executionMode)⟩

def bracketFailures (brokerName : String) : List String :=
  bracketReasons run.input.settings (governedOrder run.input) brokerName (quotePrice run.input)

/-- ``_process_queue_item`` from the claim of its row on. -/
def processClaimed : Exit :=
  run.calls [.reload, .getProposal] <|
  if run.input.proposal.status ≠ .approved then run.update .blocked
  else
    run.calls [.selectBroker] <|
    match run.input.broker with
    | .error _ => run.update .blocked
    | .ok (broker, brokerName) =>
      run.calls validationCalls <|
      if run.input.validationReasons ≠ [] then run.update .blocked
      else
        run.calls riskCalls <|
        if run.input.riskReasons ≠ [] then run.update .blocked
        else
          run.calls [.drawdownGovernor] <|
          if run.bracketFailures brokerName ≠ [] then run.update .blocked
          else run.sendOrder broker brokerName

def Quiet (sites : List CallSite) : Prop := ∀ site ∈ sites, run.raises site = none

def failureCalls : List CallSite := if run.simulatesFallback then paperCalls else [.createExecution]

def SubmissionSettles (broker : BrokerClient) (brokerName : String) : Prop :=
  if run.selfSimulated then run.Quiet paperCalls
  else
    run.supportedMode = true ∧ run.Quiet [.loadExecution] ∧ run.input.alreadyExecuted = false ∧
      ((run.submission broker brokerName).isOk = false → run.Quiet run.failureCalls)

-- The broker a run has chosen when it comes to the validation, the risk check, the drawdown governor
-- and the submission.
def validating? : Option (BrokerClient × String) :=
  if run.input.proposal.status = .approved then run.input.broker.toOption else none

def assessing? : Option (BrokerClient × String) :=
  if run.input.validationReasons = [] then run.validating? else none

def governing? : Option (BrokerClient × String) :=
  if run.input.riskReasons = [] then run.assessing? else none

def submitting? : Option (BrokerClient × String) :=
  run.governing?.filter fun choice => run.bracketFailures choice.2 = []

/-- No call that the run makes before its row is updated raises, outside the submission, and the
submission is of a kind that ends in an update. -/
@[mk_iff]
structure ReachesUpdate : Prop where
  loaded : run.Quiet [.reload, .getProposal]
  routed : run.input.proposal.status = .approved → run.Quiet [.selectBroker]
  validated : ∀ choice ∈ run.validating?, run.Quiet validationCalls
  assessed : ∀ choice ∈ run.assessing?, run.Quiet riskCalls
  governed : ∀ choice ∈ run.governing?, run.Quiet [.drawdownGovernor]
  submitted : ∀ choice ∈ run.submitting?, run.SubmissionSettles choice.1 choice.2
  updated : run.Quiet [.updateQueue]

def Exit.Settled (exit : Exit) : Prop := exit.status.isSettled = true

variable {run} {sites : List CallSite} {rest : Exit} {status : QueueStatus} {broker : BrokerClient}
  {brokerName : String}

lemma findSome?_raises (run : ClaimedRun) (sites : List CallSite) :
    sites.findSome? run.raises = none ↔ run.Quiet sites := by
  rw [List.findSome?_eq_none_iff, Quiet]

lemma settled_calls : Exit.Settled (run.calls sites rest) ↔ run.Quiet sites ∧ Exit.Settled rest := by
  rw [calls, ← findSome?_raises]
  cases sites.findSome? run.raises with
  | some message => simp [Exit.Settled, QueueStatus.isSettled]
  | none => simp

lemma settled_update (h : status.isSettled = true) : Exit.Settled (run.update status) ↔ run.Quiet [.updateQueue] := by
  rw [update, settled_calls]
  exact and_iff_left h

lemma settled_settleFailure : Exit.Settled run.settleFailure ↔
    run.Quiet run.failureCalls ∧ run.Quiet [.updateQueue] := by
  rw [settleFailure, failureCalls]
  split_ifs
  · rw [settled_calls, settled_update rfl]
  · rw [settled_calls, settled_update rfl]

lemma not_settled {result : Except String Unit} : ¬ Exit.Settled ⟨.processing, result⟩ := by
  intro h
  cases h

lemma settled_sendOrder : Exit.Settled (run.sendOrder broker brokerName) ↔
    run.SubmissionSettles broker brokerName ∧ run.Quiet [.updateQueue] := by
  rw [sendOrder, SubmissionSettles]
  cases run.selfSimulated with
  | true =>
    rw [if_pos rfl, if_pos rfl, settled_calls, settled_update rfl]
  | false =>
    rw [if_neg Bool.false_ne_true, if_neg Bool.false_ne_true]
    cases run.supportedMode with
    | false => simp [not_settled]
    | true =>
      rw [if_pos rfl, settled_calls]
      cases run.input.alreadyExecuted with
      | true => simp [not_settled]
      | false =>
        rw [if_neg Bool.false_ne_true]
        cases run.submission broker brokerName with
        | ok value =>
          rw [settled_update rfl]
          simp [Except.isOk, Except.toBool]
        | error message =>
          rw [settled_settleFailure]
          simp [Except.isOk, Except.toBool, and_assoc]

/-- The row a worker has claimed is left settled exactly when every call up to the row's update, outside
the submission, returns, the execution mode is supported and the row has not been executed before. -/
theorem claimed_row_settled (run : ClaimedRun) : run.processClaimed.status.isSettled = true ↔ run.ReachesUpdate := by
  change Exit.Settled run.processClaimed ↔ _
  rw [processClaimed, settled_calls, reachesUpdate_iff]
  by_cases happroved : run.input.proposal.status = .approved
  · rw [if_neg (not_not.mpr happroved), settled_calls]
    cases hbroker : run.input.broker with
    | error message =>
      have hnobody : run.validating? = none := by simp [validating?, hbroker, Except.toOption]
      rw [settled_update rfl]
      simp [happroved, hnobody, assessing?, governing?, submitting?]
    | ok choice =>
      have hvalidating : run.validating? = some choice := by
        simp [validating?, happroved, hbroker, Except.toOption]
      rw [settled_calls]
      by_cases hvalidation : run.input.validationReasons = []
      · rw [if_neg (not_not.mpr hvalidation), settled_calls]
        have hassessing : run.assessing? = some choice := by simp [assessing?, hvalidation, hvalidating]
        by_cases hrisk : run.input.riskReasons = []
        · rw [if_neg (not_not.mpr hrisk), settled_calls]
          have hgoverning : run.governing? = some choice := by simp [governing?, hrisk, hassessing]
          by_cases hbracket : run.bracketFailures choice.2 = []
          · have hsubmitting : run.submitting? = some choice := by simp [submitting?, hgoverning, hbracket]
            rw [if_neg (not_not.mpr hbracket), settled_sendOrder]
            simp [happroved, hvalidating, hassessing, hgoverning, hsubmitting]
          · have hsubmitting : run.submitting? = none := by simp [submitting?, hgoverning, hbracket]
            rw [if_pos hbracket, settled_update rfl]
            simp [happroved, hvalidating, hassessing, hgoverning, hsubmitting]
        · have hgoverning : run.governing? = none := by simp [governing?, hrisk]
          rw [if_pos hrisk, settled_update rfl]
          simp [happroved, hvalidating, hassessing, hgoverning, submitting?]
      · have hassessing : run.assessing? = none := by simp [assessing?, hvalidation]
        rw [if_pos hvalidation, settled_update rfl]
        simp [happroved, hvalidating, hassessing, governing?, submitting?]
  · have hnobody : run.validating? = none := by simp [validating?, happroved]
    rw [if_pos happroved, settled_update rfl]
    simp [happroved, hnobody, assessing?, governing?, submitting?]

lemma calls_quiet (h : ∀ site, run.raises site = none) : run.calls sites rest = rest := by
  have hnone := (findSome?_raises run sites).mpr fun site _ => h site
  rw [calls, hnone]

end ClaimedRun

def QueueOutcome.status : QueueOutcome → QueueStatus
  | .unchanged => .processing
  | .executed => .executed
  | .blocked _ => .blocked
  | .raised _ => .processing

namespace ClaimedRun

variable {run : ClaimedRun} {broker : BrokerClient} {brokerName : String}

lemma update_status (hquiet : ∀ site, run.raises site = none) (status : QueueStatus) :
    (run.update status).status = status := by
  rw [update, calls_quiet hquiet]

lemma settleFailure_status (hquiet : ∀ site, run.raises site = none) :
    run.settleFailure.status = if run.simulatesFallback then .executed else .blocked := by
  rw [settleFailure]
  split_ifs
  · rw [calls_quiet hquiet, update_status hquiet]
  · rw [calls_quiet hquiet, update_status hquiet]

lemma settleAttempt_status (order : TradeOrder) (attempt : Attempt) :
    (settleAttempt run.input order attempt).outcome.status =
      match attempt.result with
      | .ok () => .executed
      | .error _ => if run.simulatesFallback then .executed else .blocked := by
  rw [settleAttempt, simulatesFallback]
  cases attempt.result with
  | ok value => rfl
  | error message =>
    simp only [decide_eq_true_eq]
    split_ifs <;> rfl

lemma sendOrder_status (hquiet : ∀ site, run.raises site = none) (hsubmission : run.submissionError = none) :
    (run.sendOrder broker brokerName).status =
      (Execution.sendOrder run.input (governedOrder run.input) broker brokerName
        (quotePrice run.input)).outcome.status := by
  rw [sendOrder, Execution.sendOrder, selfSimulated, supportedMode]
  simp only [decide_eq_true_eq]
  by_cases hself : run.input.settings.executionMode = "paper" ∧ run.input.settings.paperBroker = "self_simulated"
  · rw [if_pos hself, if_pos hself, calls_quiet hquiet, update_status hquiet]
    rfl
  · rw [if_neg hself, if_neg hself]
    by_cases hmode : run.input.settings.executionMode = "paper" ∨ run.input.settings.executionMode = "live"
    · rw [if_pos hmode, if_pos hmode, calls_quiet hquiet]
      cases run.input.alreadyExecuted with
      | true => rfl
      | false =>
        rw [if_neg Bool.false_ne_true, if_neg Bool.false_ne_true, settleAttempt_status, submission, hsubmission]
        cases (executeWithBroker run.input (governedOrder run.input) broker brokerName
          (quotePrice run.input)).result with
        | ok value => exact update_status hquiet _
        | error message => exact settleFailure_status hquiet
    · rw [if_neg hmode, if_neg hmode]
      rfl

theorem processClaimed_status (hquiet : ∀ site, run.raises site = none) (hsubmission : run.submissionError = none) :
    run.processClaimed.status = (processQueueItem run.input).outcome.status := by
  rw [processClaimed, processQueueItem, calls_quiet hquiet]
  by_cases happroved : run.input.proposal.status = .approved
  · rw [if_neg (not_not.mpr happroved), if_neg (not_not.mpr happroved), calls_quiet hquiet]
    cases run.input.broker with
    | error message => exact update_status hquiet _
    | ok choice =>
      dsimp only
      rw [calls_quiet hquiet, calls_quiet hquiet, calls_quiet hquiet]
      by_cases hvalidation : run.input.validationReasons = []
      · rw [if_neg (not_not.mpr hvalidation), if_neg (not_not.mpr hvalidation)]
        by_cases hrisk : run.input.riskReasons = []
        · rw [if_neg (not_not.mpr hrisk), if_neg (not_not.mpr hrisk), bracketFailures]
          split_ifs with hbracket
          · exact update_status hquiet _
          · exact sendOrder_status hquiet hsubmission
        · rw [if_pos hrisk, if_pos hrisk]
          exact update_status hquiet _
      · rw [if_pos hvalidation, if_pos hvalidation]
        exact update_status hquiet _
  · rw [if_pos happroved, if_pos happroved]
    exact update_status hquiet _

-- An approved proposal whose quote the market data provider fails to deliver.
private def quoteTimesOut : ClaimedRun where
  input :=
    { settings := {}
      trader := ⟨{ key := "etoro", answer := fun _ => .ok () }, fun _ => []⟩
      proposal := ⟨"prop_1", { symbol := "NVDA", amountUsd := 1000, proposedPrice := 120 }, .approved, by norm_num⟩
      statusAtReload := .approved
      broker := .ok ({ key := "alpaca", submitsOrders := true, answer := fun _ => .ok () }, "alpaca")
      quote := {}
      validationReasons := []
      riskContext := ⟨0, 10000⟩
      riskReasons := [] }
  raises := fun site => if site = .getQuote then some "quote provider timed out" else none

theorem quote_failure_strands : ¬ ∀ run : ClaimedRun, run.processClaimed.status.isSettled = true := by
  intro h
  have hsettled := h quoteTimesOut
  revert hsettled
  decide

end ClaimedRun

namespace QueueState

variable {n : ℕ} {s : QueueState n} {worker : Fin n} {row : QueueRow}

theorem enqueue_refused {proposalId symbol : String} {unique : Bool} (hrow : row ∈ s.rows)
    (hstatus : row.status = .processing) (hsymbol : row.symbol = symbol.toUpper)
    (hworker : s.workers worker = .enqueueing proposalId symbol unique) (timeout : ℕ) (choice : Choice) :
    (s.advance worker timeout choice).rows = s.rows := by
  have hleave (s' : QueueState n) : (s'.leave worker).rows = s'.rows := by
    rw [leave]
    split
    · split_ifs <;> rfl
    · rfl
  have hopen : row.status.isOpen = true := by rw [hstatus]; rfl
  cases unique with
  | false =>
    have hany : (s.rows.any fun row => row.status.isOpen ∧ row.symbol = symbol.toUpper) = true :=
      List.any_eq_true.mpr ⟨row, hrow, by simp [hopen, hsymbol]⟩
    simp only [advance, hworker]
    rw [if_pos hany, hleave]
  | true =>
    cases choice with
    | insertAs queueId =>
      have htaken : (s.row? queueId).isSome = true ∨ s.openElsewhere symbol.toUpper queueId = true := by
        by_cases hid : row.id = queueId
        · left
          rw [row?, List.find?_isSome]
          exact ⟨row, hrow, by simp [hid]⟩
        · right
          exact List.any_eq_true.mpr ⟨row, hrow, by simp [hopen, hsymbol, hid]⟩
      simp only [advance, hworker]
      rw [if_pos htaken, hleave]
    | _ => simp only [advance, hworker]

end QueueState

end AlgoTrader.Execution
