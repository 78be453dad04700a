import AlgoTrader.Workflow.PaperOnlyExecute

/-! What a paper-only proposal is left as: no longer open, unless its order was taken. -/

namespace AlgoTrader.Workflow.PaperOnlyExecute

open Models Execution Fallible

/-- An execution that counts as placed belongs to an order that was taken. -/
def Honest (w : World) : Prop := placed w = true → w.reached = true

def Executed (w : World) : Prop := Honest w ∧ w.proposal = .executed

def Returned (status : QueueStatus) (w : World) : Prop := Honest w ∧ (status = .executed → w.proposal = .executed)

def Settled (w : World) : Prop := isOpen w.proposal = false ∨ w.reached = true

section Statements

variable {P E : World → Prop} {o : Outside} {w : World}

lemma keeps_raiseAt (error : Option String) : Keeps P (raiseAt error) := by
  cases error with
  | none => exact meets_pure fun _ h => h
  | some message => exact meets_throw fun _ h => h

lemma meets_getProposal {due : Bool} {Q : ApprovalStatus → World → Prop} (hsame : ∀ w, P w → Q w.proposal w)
    (hexpired : ∀ w, P w → isOpen w.proposal = true → Q .expired { w with proposal := .expired }) :
    Meets P (getProposal due) Q E := by
  refine meets_get fun w hw => ?_
  split_ifs with hdue
  · rintro _ rfl
    exact hexpired _ hw hdue.1
  · rintro _ rfl
    exact hsame _ hw

lemma keeps_callAll (sites : List CallSite) : Keeps P (callAll o sites) := Keeps.forM fun _ _ => keeps_raiseAt _

lemma Honest.setProposal (h : Honest w) (status : ApprovalStatus) : Honest { w with proposal := status } := h

lemma honest_add {executions : List ExecutionStatus} {status : ExecutionStatus}
    (h : status = .submitted → w.reached = true) (hfilled : status ≠ .filled) :
    Honest { w with executions := executions ++ [status] } := by
  intro hplaced
  simp only [placed, World.latest, List.getLast?_concat, Option.any_some, decide_eq_true_eq] at hplaced
  exact h (hplaced.resolve_right hfilled)

lemma meets_addExecution {status : ExecutionStatus} (hfilled : status ≠ .filled) :
    Meets (fun w => Honest w ∧ (status = .submitted → w.reached = true)) (addExecution status) (fun _ => Honest) E :=
  meets_modify fun _ h => honest_add h.2 hfilled

lemma meets_refusal {status : ExecutionStatus} (h : status = .failed ∨ status = .blocked ∨ status = .validated) :
    Meets Honest (addExecution status) (fun _ => Honest) E := by
  refine (meets_addExecution ?_).pre fun w hw => ⟨hw, fun hsubmitted => ?_⟩
  · rintro rfl
    simp at h
  · rw [hsubmitted] at h
    simp at h

lemma mapBrokerExecutionStatus_ne_filled (status : String) : mapBrokerExecutionStatus status ≠ .filled := by
  rw [mapBrokerExecutionStatus]
  split_ifs <;> simp

lemma mapBrokerStatus_ne_filled (status : String) : mapBrokerStatus status ≠ .filled := by
  rw [mapBrokerStatus]
  split_ifs <;> simp

lemma mapAmountStatus_ne_filled (status : String) : mapAmountStatus status ≠ .filled := by
  rw [mapAmountStatus]
  split_ifs <;> simp

end Statements

section Submission

variable {o : Outside}

lemma meets_markExecuted (load : Load) (log : Option String) :
    Meets Honest (markExecuted o load log) (fun _ => Executed) Honest := by
  refine (meets_getProposal (fun _ h => h) fun _ h _ => h.setProposal _).bind (R := fun _ => Honest) fun _ => ?_
  have hstored : Meets Honest (updateProposal .executed) (fun _ => Executed) Honest :=
    meets_modify fun _ h => ⟨h.setProposal _, rfl⟩
  refine hstored.bind fun _ => (keeps_raiseAt log).weaken (fun _ h => h) (fun _ _ h => h) fun _ h => h.1

lemma meets_ask (attempt : Attempt) (status : ExecutionStatus) :
    Meets Honest (ask attempt status) (fun _ w => Honest w ∧ (status = .submitted → w.reached = true)) Honest := by
  rw [ask]
  cases attempt.result with
  | error message => exact meets_throw fun _ h => h
  | ok _ =>
    refine meets_modify fun w h => ⟨fun hplaced => ?_, fun hstatus => ?_⟩
    · rw [Bool.or_eq_true]
      exact .inl (h hplaced)
    · simp [hstatus]

lemma meets_refuse (message : String) : Meets Honest (refuse o message) (fun _ => Executed) Honest :=
  (meets_refusal (.inr (.inl rfl))).bind fun _ =>
    (keeps_raiseAt _).bind fun _ => meets_throw fun _ h => h

lemma meets_marked (load : Load) {rest : Step Unit} (hrest : Keeps Executed rest) :
    Meets Honest (markExecuted o load (o.submissionRaises .executedLog) >>= fun _ => rest) (fun _ => Executed) Honest :=
  (meets_markExecuted load _).bind fun _ => hrest.weaken (fun _ h => h) (fun _ _ h => h) fun _ h => h.1

lemma meets_executeProposal : Meets Honest (executeProposal o) (fun _ => Executed) Honest := by
  rw [executeProposal]
  refine (meets_getProposal (fun _ h => h) fun _ h _ => h.setProposal _).bind (R := fun _ => Honest) fun status => ?_
  split_ifs
  · exact meets_refuse _
  · exact meets_refuse _
  all_goals
    refine (keeps_raiseAt _).bind fun _ => (meets_refusal (.inr (.inr rfl))).bind fun _ => (keeps_raiseAt _).bind fun _ => ?_
    refine (meets_ask _ _).bind fun _ => ?_
    have hstored : Meets (fun w => Honest w ∧ (mapBrokerStatus o.answer = .submitted → w.reached = true))
        (updateExecution (mapBrokerStatus o.answer)) (fun _ => Honest) Honest :=
      meets_modify fun _ h => honest_add h.2 (mapBrokerStatus_ne_filled _)
    exact hstored.bind fun _ => (keeps_raiseAt _).bind fun _ => meets_marked _ (keeps_raiseAt _)

lemma meets_recordSubmission (attempt : Attempt) {status : ExecutionStatus} (known : Bool) (hfilled : status ≠ .filled) :
    Meets Honest (recordSubmission o attempt status known) (fun _ => Executed) Honest := by
  refine (meets_ask attempt status).bind fun _ => ?_
  split_ifs
  · exact (meets_markExecuted _ _).pre fun _ h => h.1
  · refine (meets_addExecution hfilled).bind fun _ => (keeps_raiseAt _).bind fun _ => ?_
    exact meets_marked _ ((keeps_raiseAt _).bind fun _ => keeps_raiseAt _)

lemma meets_executeWithBroker (broker : BrokerClient) (brokerName : String) :
    Meets Honest (executeWithBroker o broker brokerName) (fun _ => Executed) Honest := by
  rw [executeWithBroker]
  split_ifs
  · exact meets_executeProposal
  all_goals refine (keeps_raiseAt _).bind fun _ => ?_
  · exact meets_recordSubmission _ _ (mapBrokerExecutionStatus_ne_filled _)
  · exact meets_recordSubmission _ _ (mapAmountStatus_ne_filled _)
  · exact meets_throw fun _ h => h

end Submission

section Process

variable {o : Outside}

lemma meets_block : Meets Honest (block o) Returned Honest := by
  have hstored : Keeps Honest
      (modify fun w : World => w.setQueue .blocked (w.queue.bind QueueItem.executionId) : Step Unit) :=
    meets_modify fun _ h => h
  refine (keeps_raiseAt _).bind fun _ => hstored.bind fun _ => (keeps_raiseAt _).bind fun _ => ?_
  exact meets_pure fun _ h => ⟨h, fun hstatus => absurd hstatus (by decide)⟩

lemma meets_finish : Meets Executed (finish o) Returned Honest := by
  have hstored : Keeps Executed (modify fun w : World => w.setQueue .executed w.newest : Step Unit) :=
    meets_modify fun _ h => h
  have hdone : Meets Executed (finish o) Returned Executed :=
    (keeps_raiseAt _).bind fun _ => hstored.bind fun _ => (keeps_raiseAt _).bind fun _ =>
      meets_pure fun _ h => ⟨h.1, fun _ => h.2⟩
  exact hdone.weaken (fun _ h => h) (fun _ _ h => h) fun _ h => h.1

lemma meets_simulate : Meets Honest (simulate o) (fun _ => Executed) Honest := by
  have htaken : Meets Honest (reach true) (fun _ w => Honest w ∧ (ExecutionStatus.submitted = .submitted →
      w.reached = true)) Honest := by
    refine meets_modify fun w _ => ⟨fun _ => ?_, fun _ => ?_⟩
    · exact Bool.or_true w.reached
    · exact Bool.or_true w.reached
  refine (keeps_raiseAt _).bind fun _ => htaken.bind fun _ => (meets_addExecution (by decide)).bind fun _ => ?_
  exact (keeps_raiseAt _).bind fun _ => meets_markExecuted _ _

lemma meets_settleFailure : Meets Honest (settleFailure o) Returned Honest := by
  rw [settleFailure]
  split_ifs
  · exact meets_simulate.bind fun _ => meets_finish
  · have hstored : Keeps Honest (modify fun w : World => w.setQueue .blocked w.newest : Step Unit) :=
      meets_modify fun _ h => h
    refine (meets_refusal (.inl rfl)).bind fun _ => (keeps_raiseAt _).bind fun _ => (keeps_raiseAt _).bind fun _ => ?_
    refine hstored.bind fun _ => (keeps_raiseAt _).bind fun _ => ?_
    exact meets_pure fun _ h => ⟨h, fun hstatus => absurd hstatus (by decide)⟩

lemma meets_sendOrder (broker : BrokerClient) (brokerName : String) :
    Meets Honest (sendOrder o broker brokerName) Returned Honest := by
  rw [sendOrder]
  split_ifs
  · exact meets_simulate.bind fun _ => meets_finish
  · refine (keeps_raiseAt _).bind fun _ => meets_get fun w hw => ?_
    split_ifs
    · rintro _ rfl
      exact ⟨hw, fun hstatus => absurd hstatus (by decide)⟩
    · have hsent : Meets Honest (executeWithBroker o broker brokerName *> pure true)
          (fun submitted w => if submitted then Executed w else Honest w) Honest :=
        (meets_executeWithBroker broker brokerName).bind fun _ => meets_pure fun _ h => h
      have hsubmitted : Meets Honest (tryCatch (executeWithBroker o broker brokerName *> pure true) fun _ => pure false)
          (fun submitted w => if submitted then Executed w else Honest w) Honest :=
        hsent.tryCatch fun _ => meets_pure fun _ h => h
      refine (hsubmitted.bind fun submitted => ?_).pre fun _ heq => heq ▸ hw
      cases submitted with
      | true => exact meets_finish
      | false => exact meets_settleFailure
  · exact meets_throw fun _ h => h

lemma meets_processClaimed : Meets Honest (processClaimed o) Returned Honest := by
  refine (keeps_callAll _).bind fun _ => ?_
  refine (meets_getProposal (fun _ h => h) fun _ h _ => h.setProposal _).bind (R := fun _ => Honest) fun status => ?_
  refine meets_ite (fun _ => meets_block) fun _ => (keeps_callAll _).bind fun _ => ?_
  cases o.claimed.input.broker with
  | error _ => exact meets_block
  | ok choice =>
    refine (keeps_callAll _).bind fun _ => meets_ite (fun _ => meets_block) fun _ => ?_
    refine (keeps_callAll _).bind fun _ => meets_ite (fun _ => meets_block) fun _ => ?_
    refine (keeps_callAll _).bind fun _ => meets_ite (fun _ => meets_block) fun _ => ?_
    exact meets_sendOrder choice.1 choice.2

end Process

section Pass

variable {o : Outside}

def Queued (w : World) : Prop := w.executions = [] ∧ w.queue = some {}

lemma meets_processQueueItem : Meets (fun w => Honest w ∧ Queued w) (processQueueItem o) Returned Honest := by
  refine meets_get fun w hw => ?_
  obtain ⟨hhonest, hnone, hqueue⟩ := hw
  have hplain : ¬ w.hasExecution {} := by simp [World.hasExecution]
  have hfresh : ¬ w.latest.any fun status => ¬ status.isRefusal := by simp [World.latest, hnone]
  simp only [hqueue]
  refine meets_ite (fun h => absurd h hplain) fun _ => meets_ite (fun h => absurd h hfresh) fun _ => ?_
  refine meets_ite (fun h => absurd h (by decide)) fun _ => meets_ite (fun h => absurd ?_ h) fun _ => ?_
  · simp [claimable]
  refine meets_ite (fun _ => meets_throw fun _ heq => heq ▸ hhonest) fun _ => ?_
  have hclaimed : Meets (· = w) (set (w.setQueue .processing none) : Step Unit) (fun _ => Honest) Honest :=
    fun _ _ => hhonest
  exact hclaimed.bind fun _ => meets_processClaimed

lemma meets_approveProposal : Meets (fun w => Honest w ∧ w.executions = []) (approveProposal o)
    (fun _ w => Honest w ∧ w.executions = []) Honest := by
  have hkept : Keeps (fun w => Honest w ∧ w.executions = []) (approveProposal o) := by
    refine (meets_getProposal (fun _ h => h) fun _ h _ => h).bind
      (R := fun _ w => Honest w ∧ w.executions = []) fun _ => meets_ite (fun _ => meets_throw fun _ h => h) fun _ => ?_
    have hstored : Keeps (fun w => Honest w ∧ w.executions = []) (updateProposal .approved) :=
      meets_modify fun _ h => h
    exact hstored.bind fun _ => keeps_raiseAt _
  exact hkept.weaken (fun _ h => h) (fun _ _ h => h) fun _ h => h.1

lemma meets_enqueue : Meets (fun w => Honest w ∧ w.executions = []) (enqueueApprovedProposal o)
    (fun _ w => Honest w ∧ Queued w) Honest := by
  refine (meets_getProposal (fun _ h => h) fun _ h _ => h).bind (R := fun _ w => Honest w ∧ w.executions = [])
    fun _ => meets_ite (fun _ => meets_throw fun _ h => h.1) fun _ => ?_
  refine meets_ite (fun _ => meets_throw fun _ h => h.1) fun _ => ?_
  have hstored : Meets (fun w => Honest w ∧ w.executions = [])
      (modify fun w : World => w.setQueue .queued none : Step Unit) (fun _ w => Honest w ∧ Queued w) Honest :=
    meets_modify fun _ h => ⟨h.1, h.2, rfl⟩
  have hlogged : Meets (fun w => Honest w ∧ Queued w) (passAt o .enqueuedLog) (fun _ w => Honest w ∧ Queued w) Honest :=
    (keeps_raiseAt _).weaken (fun _ h => h) (fun _ _ h => h) fun _ h => h.1
  exact hstored.bind fun _ => hlogged

lemma meets_approveEnqueueExecute : Meets (fun w => Honest w ∧ w.executions = []) (approveEnqueueExecute o)
    (fun processed w => Honest w ∧ (processed = some .executed → w.proposal = .executed)) Honest := by
  have hcall {site : PassSite} {P : World → Prop} (hP : ∀ w, P w → Honest w) :
      Meets P (passAt o site) (fun _ => P) Honest :=
    (keeps_raiseAt _).weaken (fun _ h => h) (fun _ _ h => h) hP
  refine (hcall fun _ h => h.1).bind fun _ => meets_ite (fun _ => ?_) fun _ => ?_
  · exact (hcall fun _ h => h.1).bind fun _ => meets_pure fun _ h => ⟨h.1, fun hnone => nomatch hnone⟩
  refine meets_approveProposal.bind fun _ => meets_enqueue.bind fun _ => meets_processQueueItem.bind fun status => ?_
  refine (hcall fun _ h => h.1).bind fun _ => (hcall fun _ h => h.1).bind fun _ => (hcall fun _ h => h.1).bind fun _ => ?_
  exact meets_pure fun _ h => ⟨h.1, fun heq => h.2 (Option.some.inj heq)⟩

lemma meets_rejectProposal : Meets (fun _ => True) (rejectProposal o) (fun _ => Settled) Settled := by
  have hloaded : Meets (fun _ => True) (getProposal (o.due .reject)) (fun status w => w.proposal = status) Settled :=
    meets_getProposal (fun _ _ => rfl) fun _ _ _ => rfl
  refine hloaded.bind fun status => meets_ite (fun hclosed => meets_throw fun w hw => ?_) fun _ => ?_
  · rw [Settled, hw]
    exact .inl (by simpa using hclosed)
  have hstored : Meets (fun w => w.proposal = status) (updateProposal .rejected) (fun _ => Settled) Settled :=
    meets_modify fun _ _ => .inl rfl
  exact hstored.bind fun _ => keeps_raiseAt _

lemma meets_withdraw : Meets Honest (withdraw o) (fun _ => Settled) Settled := by
  refine meets_get fun w hw => meets_ite (fun hplaced => ?_) fun _ => ?_
  · exact meets_pure fun _ heq => .inr (heq ▸ hw hplaced)
  · have hrejected : Meets (fun _ => True) (tryCatch (rejectProposal o) fun _ => pure ()) (fun _ => Settled) Settled :=
      meets_rejectProposal.tryCatch fun _ => meets_pure fun _ h => h
    exact hrejected.pre fun _ _ => trivial

lemma settled_execute (o : Outside) : Settled (state (execute o {})) := by
  have hexecute : Meets (fun w => Honest w ∧ w.executions = []) (execute o) (fun _ => Settled) Settled := by
    refine meets_approveEnqueueExecute.tryFinally (fun processed => meets_ite (fun hexecuted => ?_) fun _ => ?_)
      (meets_ite (fun hnone => nomatch hnone) fun _ => meets_withdraw)
    · exact meets_pure fun w hw => .inl (by rw [hw.2 hexecuted]; rfl)
    · exact meets_withdraw.pre fun _ h => h.1
  exact hexecute.state ⟨fun hplaced => absurd hplaced (by decide), rfl⟩

-- A later run takes the queue item up again, and goes on whatever it raises.
def processAgain (later : Outside) : Step Unit :=
  tryCatch (processQueueItem later *> pure ()) fun _ => pure ()

def Withdrawn (w : World) : Prop := isOpen w.proposal = false ∧ w.reached = false

lemma keeps_processQueueItem : Keeps Withdrawn (processQueueItem o) := by
  have hblock : Keeps Withdrawn (block o) := by
    have hstored : Keeps Withdrawn
        (modify fun w : World => w.setQueue .blocked (w.queue.bind QueueItem.executionId) : Step Unit) :=
      meets_modify fun _ h => h
    exact (keeps_raiseAt _).bind fun _ => hstored.bind fun _ => (keeps_raiseAt _).bind fun _ => meets_pure fun _ h => h
  have hclaimed : Keeps Withdrawn (processClaimed o) := by
    have hloaded : Meets Withdrawn (getProposal (o.due .process)) (fun status w => Withdrawn w ∧ status ≠ .approved)
        Withdrawn := by
      refine meets_getProposal (fun w h => ⟨h, fun happroved => ?_⟩) fun w h hopen => ?_
      · have hclosed := h.1
        rw [happroved] at hclosed
        cases hclosed
      · exact absurd hopen (by simp [h.1])
    refine (keeps_callAll _).bind fun _ => hloaded.bind fun status => meets_ite (fun _ => ?_) fun happroved => ?_
    · exact hblock.pre fun _ h => h.1
    · exact fun _ h => absurd h.2 happroved
  refine meets_get fun w hw => ?_
  cases w.queue with
  | none => exact meets_throw fun _ heq => heq ▸ hw
  | some item =>
    have hstay {status : QueueStatus} : Meets (· = w) (pure status : Step QueueStatus) (fun _ => Withdrawn) Withdrawn :=
      meets_pure fun _ heq => heq ▸ hw
    refine meets_ite (fun _ => hstay) fun _ => meets_ite (fun _ => ?_) fun _ => meets_ite (fun _ => hstay) fun _ => ?_
    · exact fun _ _ => hw
    refine meets_ite (fun _ => hstay) fun _ => meets_ite (fun _ => meets_throw fun _ heq => heq ▸ hw) fun _ => ?_
    have hset : Meets (· = w) (set (w.setQueue .processing item.executionId) : Step Unit) (fun _ => Withdrawn)
        Withdrawn := fun _ _ => hw
    exact hset.bind fun _ => hclaimed

lemma keeps_processAgain (later : Outside) : Keeps Withdrawn (processAgain later) := by
  have htried : Keeps Withdrawn (processQueueItem later *> pure ()) :=
    keeps_processQueueItem.bind fun _ => meets_pure fun _ h => h
  exact htried.tryCatch fun _ => meets_pure fun _ h => h

theorem paper_only_none_waits (o : Outside) :
    (state (execute o {})).reached = true ∨
      isOpen (state (execute o {})).proposal = false ∧
        ∀ laters : List Outside, (state (laters.forM processAgain (state (execute o {})))).reached = false := by
  by_cases hreached : (state (execute o {})).reached = true
  · exact .inl hreached
  · have hclosed := (settled_execute o).resolve_right hreached
    refine .inr ⟨hclosed, fun laters => ?_⟩
    have hwithdrawn : Withdrawn (state (execute o {})) := ⟨hclosed, by simpa using hreached⟩
    have hlaters : Keeps Withdrawn (laters.forM processAgain) := Keeps.forM fun later _ => keeps_processAgain later
    exact (hlaters.state hwithdrawn).2

end Pass

end AlgoTrader.Workflow.PaperOnlyExecute
