import AlgoTrader.Execution.Queue
import AlgoTrader.Lib.Table
import Mathlib.Data.List.Nodup

/-! At most one order for each proposal. Two calls never hold rows of one symbol, so an order is
sent twice only after a broker call that left its proposal approved. -/

namespace AlgoTrader.Execution

def Worker.held? : Worker → Option QueueRow
  | .attempt record _ => some record
  | _ => none

namespace QueueState

variable {n : ℕ}

def AtMostOneOrder (s : QueueState n) : Prop :=
  ∀ a ∈ s.submitted, ∀ b ∈ s.submitted, a.proposalId = b.proposalId →
    a.clientOrderId = b.clientOrderId

instance (s : QueueState n) : Decidable s.AtMostOneOrder :=
  inferInstanceAs (Decidable (∀ _ ∈ _, ∀ _ ∈ _, _ → _))

def Busy (s : QueueState n) (queueId : String) : Prop :=
  ∃ worker, ∃ record stage, s.workers worker = .attempt record stage ∧ record.id = queueId

instance (s : QueueState n) (queueId : String) : Decidable (s.Busy queueId) :=
  decidable_of_iff (∃ worker, ((s.workers worker).held?.any (·.id = queueId)) = true) (by
    apply exists_congr
    intro worker
    cases s.workers worker <;> simp [Worker.held?])

/-- A row is claimed, or marked executed on the strength of an earlier execution, only when no
call still holds it; and it is not claimed when the broker call of another queue item of its
proposal was over before the proposal was marked executed. -/
def WorkerAllowed (s : QueueState n) : Worker → Prop
  | .found record _ => ¬s.Busy record.id
  | .ready record staleBefore =>
    (s.claimed? record staleBefore).isSome = true →
      ¬s.Busy record.id ∧
        ∀ entry ∈ s.unsettled, entry.1 = record.proposalId → entry.2 = record.id
  | _ => True

instance (s : QueueState n) : ∀ worker, Decidable (s.WorkerAllowed worker)
  | .idle => isTrue trivial
  | .enqueueing _ _ _ => isTrue trivial
  | .loaded _ => isTrue trivial
  | .checked _ => isTrue trivial
  | .found record _ => inferInstanceAs (Decidable ¬s.Busy record.id)
  | .ready _ _ => inferInstanceAs (Decidable (_ → _ ∧ _))
  | .attempt _ _ => isTrue trivial

def StepAllowed (s : QueueState n) : QueueAction n → Prop
  | .advance worker _ => s.WorkerAllowed (s.workers worker)
  | _ => True

instance (s : QueueState n) : ∀ action, Decidable (s.StepAllowed action)
  | .advance worker _ => inferInstanceAs (Decidable (s.WorkerAllowed (s.workers worker)))
  | .enqueue _ _ => isTrue trivial
  | .process _ _ => isTrue trivial
  | .stop _ => isTrue trivial
  | .tick _ => isTrue trivial

def Live (s : QueueState n) (proposalId : String) : Prop :=
  ∃ proposal, s.proposals proposalId = some proposal ∧ proposal.status = .approved ∧
    s.clock < proposal.expiresAt

structure Copies (row record : QueueRow) : Prop where
  id : row.id = record.id
  proposalId : row.proposalId = record.proposalId
  symbol : row.symbol = record.symbol
  clientOrderId : row.clientOrderId = record.clientOrderId

lemma Copies.symm {a b : QueueRow} (h : Copies a b) : Copies b a :=
  ⟨h.id.symm, h.proposalId.symm, h.symbol.symm, h.clientOrderId.symm⟩

lemma Copies.trans {a b c : QueueRow} (hab : Copies a b) (hbc : Copies b c) : Copies a c :=
  ⟨hab.id.trans hbc.id, hab.proposalId.trans hbc.proposalId, hab.symbol.trans hbc.symbol,
    hab.clientOrderId.trans hbc.clientOrderId⟩

def Known (s : QueueState n) (record : QueueRow) : Prop := ∃ row ∈ s.rows, Copies row record

end QueueState

def Stage.fresh : Stage → Bool
  | .claimed => true
  | .reloaded => true
  | _ => false

def Stage.mayCall : Stage → Bool
  | .armed => true
  | .routed _ => true
  | .traderChecked => true
  | .traderValidated _ => true
  | _ => false

def Worker.record? : Worker → Option QueueRow
  | .loaded record => some record
  | .checked record => some record
  | .found record _ => some record
  | .ready record _ => some record
  | .attempt record _ => some record
  | _ => none

namespace QueueState

variable {n : ℕ}

def OnlyFor (s : QueueState n) (record : QueueRow) : Prop :=
  ∀ order ∈ s.submitted, order.proposalId = record.proposalId → order.queueId = record.id

def Pending (s : QueueState n) (queueId : String) : Prop :=
  ∃ worker record stage, s.workers worker = .attempt record stage ∧ stage.pending = true ∧
    record.id = queueId

structure Inv (s : QueueState n) : Prop where
  ids : (s.rows.map (·.id)).Nodup
  symbols : ∀ row ∈ s.rows, ∃ proposal, s.proposals row.proposalId = some proposal ∧
    row.symbol = proposal.symbol.toUpper
  index : ∀ a ∈ s.rows, ∀ b ∈ s.rows, a.status.isOpen = true → b.status.isOpen = true →
    a.symbol = b.symbol → a.id = b.id
  records : ∀ worker record, (s.workers worker).record? = some record → s.Known record
  enqueues : ∀ worker proposalId symbol unique,
    s.workers worker = .enqueueing proposalId symbol unique →
      ∃ proposal, s.proposals proposalId = some proposal ∧ proposal.symbol = symbol
  processing : ∀ worker record stage, s.workers worker = .attempt record stage →
    ∃ row ∈ s.rows, Copies row record ∧ row.status = .processing
  exclusive : ∀ worker₁ worker₂ record₁ record₂ stage₁ stage₂,
    s.workers worker₁ = .attempt record₁ stage₁ → s.workers worker₂ = .attempt record₂ stage₂ →
      record₁.id = record₂.id → worker₁ = worker₂
  fresh : ∀ worker record stage, s.workers worker = .attempt record stage → stage.fresh = true →
    s.Live record.proposalId → s.OnlyFor record
  armed : ∀ worker record stage, s.workers worker = .attempt record stage → stage.mayCall = true →
    s.OnlyFor record
  accounted : ∀ order ∈ s.submitted, s.Pending order.queueId ∨
    (order.proposalId, order.queueId) ∈ s.unsettled ∨ ¬s.Live order.proposalId
  sent : ∀ order ∈ s.submitted, ∃ row ∈ s.rows, row.id = order.queueId ∧
    row.proposalId = order.proposalId ∧ row.clientOrderId = order.clientOrderId
  single : ∀ a ∈ s.submitted, ∀ b ∈ s.submitted, a.proposalId = b.proposalId →
    a.queueId = b.queueId

section Frame

variable {s t : QueueState n}

structure Frames (s t : QueueState n) : Prop where
  rows : t.rows = s.rows
  workers : t.workers = s.workers
  submitted : t.submitted = s.submitted
  unsettled : t.unsettled = s.unsettled
  proposals : ∀ proposalId proposal, s.proposals proposalId = some proposal →
    ∃ changed, t.proposals proposalId = some changed ∧ changed.symbol = proposal.symbol
  live : ∀ proposalId, t.Live proposalId → s.Live proposalId

lemma Inv.frame (h : Inv s) (hframe : Frames s t) : Inv t := by
  obtain ⟨hrows, hworkers, hsubmitted, hunsettled, hproposals, hlive⟩ := hframe
  have hknown (record : QueueRow) : t.Known record ↔ s.Known record := by
    unfold Known
    rw [hrows]
  have honly (record : QueueRow) : t.OnlyFor record ↔ s.OnlyFor record := by
    unfold OnlyFor
    rw [hsubmitted]
  have hpending (queueId : String) : t.Pending queueId ↔ s.Pending queueId := by
    unfold Pending
    rw [hworkers]
  constructor
  · rw [hrows]
    exact h.ids
  · rw [hrows]
    intro row hrow
    obtain ⟨proposal, hproposal, hsymbol⟩ := h.symbols row hrow
    obtain ⟨changed, hchanged, hsame⟩ := hproposals _ _ hproposal
    exact ⟨changed, hchanged, hsame ▸ hsymbol⟩
  · rw [hrows]
    exact h.index
  · rw [hworkers]
    exact fun worker record hrecord => (hknown record).mpr (h.records worker record hrecord)
  · rw [hworkers]
    intro worker proposalId symbol unique hworker
    obtain ⟨proposal, hproposal, hsymbol⟩ := h.enqueues _ _ _ _ hworker
    obtain ⟨changed, hchanged, hsame⟩ := hproposals _ _ hproposal
    exact ⟨changed, hchanged, hsame.trans hsymbol⟩
  · rw [hrows, hworkers]
    exact h.processing
  · rw [hworkers]
    exact h.exclusive
  · rw [hworkers]
    exact fun worker record stage hworker hfresh halive =>
      (honly record).mpr (h.fresh worker record stage hworker hfresh (hlive _ halive))
  · rw [hworkers]
    exact fun worker record stage hworker hcall =>
      (honly record).mpr (h.armed worker record stage hworker hcall)
  · rw [hsubmitted, hunsettled]
    intro order horder
    rw [hpending]
    exact (h.accounted order horder).imp_right (Or.imp_right (mt (hlive _)))
  · rw [hrows, hsubmitted]
    exact h.sent
  · rw [hsubmitted]
    exact h.single

lemma frames_refl : Frames s s :=
  ⟨rfl, rfl, rfl, rfl, fun _ proposal hproposal => ⟨proposal, hproposal, rfl⟩, fun _ h => h⟩

lemma frames_setStatus (proposalId : String) {status : Models.ApprovalStatus}
    (hstatus : status ≠ .approved) : Frames s (s.setStatus proposalId status) := by
  refine ⟨rfl, rfl, rfl, rfl, ?_, ?_⟩
  · intro other proposal hproposal
    by_cases hsame : other = proposalId
    · subst hsame
      exact ⟨{ proposal with status := status }, by simp [setStatus, hproposal], rfl⟩
    · exact ⟨proposal, by simp [setStatus, hsame, hproposal], rfl⟩
  · rintro other ⟨proposal, hproposal, happroved, hclock⟩
    by_cases hsame : other = proposalId
    · subst hsame
      simp only [setStatus, Function.update_self, Option.map_eq_some_iff] at hproposal
      obtain ⟨old, -, rfl⟩ := hproposal
      exact absurd happroved hstatus
    · refine ⟨proposal, ?_, happroved, hclock⟩
      simpa [setStatus, hsame] using hproposal

lemma frames_expireIfNeeded (proposalId : String) : Frames s (s.expireIfNeeded proposalId) := by
  rw [expireIfNeeded]
  split_ifs
  · exact frames_setStatus proposalId (by decide)
  · exact frames_refl

lemma frames_addExecution (proposalId : String) (status : ExecutionStatus) :
    Frames s (s.addExecution proposalId status) :=
  ⟨rfl, rfl, rfl, rfl, fun _ proposal hproposal => ⟨proposal, hproposal, rfl⟩, fun _ h => h⟩

lemma frames_updateExecution (executionId : ℕ) (status : ExecutionStatus) :
    Frames s (s.updateExecution executionId status) :=
  ⟨rfl, rfl, rfl, rfl, fun _ proposal hproposal => ⟨proposal, hproposal, rfl⟩, fun _ h => h⟩

lemma frames_tick (seconds : ℕ) : Frames s { s with clock := s.clock + seconds } := by
  refine ⟨rfl, rfl, rfl, rfl, fun _ proposal hproposal => ⟨proposal, hproposal, rfl⟩, ?_⟩
  rintro proposalId ⟨proposal, hproposal, happroved, hclock⟩
  exact ⟨proposal, hproposal, happroved, lt_of_le_of_lt (Nat.le_add_right _ _) hclock⟩

end Frame

section Rows

variable {s : QueueState n}

lemma Inv.row_unique (h : Inv s) {a b : QueueRow} (ha : a ∈ s.rows) (hb : b ∈ s.rows)
    (hid : a.id = b.id) : a = b :=
  List.inj_on_of_nodup_map h.ids ha hb hid

lemma Inv.copied (h : Inv s) {row record : QueueRow} (hrow : row ∈ s.rows) (hid : row.id = record.id)
    (hknown : s.Known record) : Copies row record := by
  obtain ⟨other, hother, hcopies⟩ := hknown
  rw [h.row_unique hrow hother (hid.trans hcopies.id.symm)]
  exact hcopies

lemma Inv.order_of_row (h : Inv s) {order : Submission} (horder : order ∈ s.submitted)
    {record : QueueRow} (hknown : s.Known record) (hid : order.queueId = record.id) :
    order.proposalId = record.proposalId ∧ order.clientOrderId = record.clientOrderId := by
  obtain ⟨row, hrow, hrowId, hproposal, hclient⟩ := h.sent order horder
  have hcopies := h.copied hrow (hrowId.trans hid) hknown
  exact ⟨hproposal.symm.trans hcopies.proposalId, hclient.symm.trans hcopies.clientOrderId⟩

lemma Inv.symbol_eq (h : Inv s) {a b : QueueRow} (ha : a ∈ s.rows) (hb : b ∈ s.rows)
    (hproposal : a.proposalId = b.proposalId) : a.symbol = b.symbol := by
  obtain ⟨p, hp, hsymbol⟩ := h.symbols a ha
  obtain ⟨q, hq, hsymbol'⟩ := h.symbols b hb
  rw [hproposal, hq] at hp
  cases hp
  exact hsymbol.trans hsymbol'.symm

lemma Inv.same_row (h : Inv s) {worker₁ worker₂ : Fin n} {record₁ record₂ : QueueRow}
    {stage₁ stage₂ : Stage} (h₁ : s.workers worker₁ = .attempt record₁ stage₁)
    (h₂ : s.workers worker₂ = .attempt record₂ stage₂)
    (hproposal : record₁.proposalId = record₂.proposalId) : record₁.id = record₂.id := by
  obtain ⟨a, ha, hcopies₁, hstatus₁⟩ := h.processing _ _ _ h₁
  obtain ⟨b, hb, hcopies₂, hstatus₂⟩ := h.processing _ _ _ h₂
  have hsymbol := h.symbol_eq ha hb
    (hcopies₁.proposalId.trans (hproposal.trans hcopies₂.proposalId.symm))
  have hopen := h.index a ha b hb (by rw [hstatus₁]; rfl) (by rw [hstatus₂]; rfl) hsymbol
  exact hcopies₁.id.symm.trans (hopen.trans hcopies₂.id)

end Rows

section Workers

variable {s : QueueState n} {worker : Fin n}

lemma setWorker_other {state : Worker} {other : Fin n} (h : other ≠ worker) :
    (s.setWorker worker state).workers other = s.workers other :=
  Function.update_of_ne h _ _

lemma setWorker_self {state : Worker} : (s.setWorker worker state).workers worker = state :=
  Function.update_self _ _ _

lemma attempt_of_setWorker {state : Worker} (hnone : ∀ record stage, state ≠ .attempt record stage)
    {other : Fin n} {record : QueueRow} {stage : Stage}
    (h : (s.setWorker worker state).workers other = .attempt record stage) :
    other ≠ worker ∧ s.workers other = .attempt record stage := by
  by_cases hother : other = worker
  · subst hother
    rw [setWorker_self] at h
    exact absurd h (hnone record stage)
  · rw [setWorker_other hother] at h
    exact ⟨hother, h⟩

lemma Inv.setWorker (h : Inv s) {state : Worker}
    (hnone : ∀ record stage, state ≠ .attempt record stage)
    (hrecord : ∀ record, state.record? = some record → s.Known record)
    (henqueue : ∀ proposalId symbol unique, state = .enqueueing proposalId symbol unique →
      ∃ proposal, s.proposals proposalId = some proposal ∧ proposal.symbol = symbol)
    (hsettled : ∀ record stage, s.workers worker = .attempt record stage →
      stage.pending = true → ∀ order ∈ s.submitted, order.queueId = record.id →
        (order.proposalId, order.queueId) ∈ s.unsettled) :
    Inv (s.setWorker worker state) where
  ids := h.ids
  symbols := h.symbols
  index := h.index
  records := by
    intro other record hother
    by_cases hself : other = worker
    · subst hself
      rw [setWorker_self] at hother
      exact hrecord record hother
    · rw [setWorker_other hself] at hother
      exact h.records other record hother
  enqueues := by
    intro other proposalId symbol unique hother
    by_cases hself : other = worker
    · subst hself
      rw [setWorker_self] at hother
      exact henqueue proposalId symbol unique hother
    · rw [setWorker_other hself] at hother
      exact h.enqueues other proposalId symbol unique hother
  processing := fun other record stage hother =>
    h.processing other record stage (attempt_of_setWorker hnone hother).2
  exclusive := fun _ _ _ _ _ _ h₁ h₂ =>
    h.exclusive _ _ _ _ _ _ (attempt_of_setWorker hnone h₁).2 (attempt_of_setWorker hnone h₂).2
  fresh := fun other record stage hother =>
    h.fresh other record stage (attempt_of_setWorker hnone hother).2
  armed := fun other record stage hother =>
    h.armed other record stage (attempt_of_setWorker hnone hother).2
  accounted := by
    intro order horder
    rcases h.accounted order horder with ⟨other, record, stage, hother, hpending, hid⟩ | hrest
    · by_cases hself : other = worker
      · subst hself
        exact .inr (.inl (hsettled record stage hother hpending order horder hid.symm))
      · exact .inl ⟨other, record, stage, (setWorker_other hself).trans hother, hpending, hid⟩
    · exact .inr hrest
  sent := h.sent
  single := h.single

lemma Inv.leave (h : Inv s) : Inv (s.leave worker) := by
  have hidle (record : QueueRow) (stage : Stage) : Worker.idle ≠ .attempt record stage :=
    Worker.noConfusion
  rw [QueueState.leave]
  split
  · rename_i record stage hworker
    split_ifs with hpending
    · -- the orders of this row go to the unsettled ones before the worker is free
      have hknown := h.records worker record (by rw [hworker]; rfl)
      have hmore : Inv { s with unsettled := (record.proposalId, record.id) :: s.unsettled } :=
        { h with
          accounted := fun order horder =>
            (h.accounted order horder).imp_right (Or.imp_left (List.mem_cons_of_mem _)) }
      apply hmore.setWorker hidle (by rintro _ ⟨⟩) (by rintro _ _ _ ⟨⟩)
      intro other stage' hother hpending' order horder hid
      obtain ⟨rfl, rfl⟩ : other = record ∧ stage' = stage := by
        have heq := hother.symm.trans hworker
        simpa using heq
      rw [(h.order_of_row horder hknown hid).1, hid]
      exact List.mem_cons_self
    · apply h.setWorker hidle (by rintro _ ⟨⟩) (by rintro _ _ _ ⟨⟩)
      intro other stage' hother hpending'
      have heq := hother.symm.trans hworker
      simp only [Worker.attempt.injEq] at heq
      rw [heq.2] at hpending'
      exact absurd hpending' hpending
  · rename_i hworker
    apply h.setWorker hidle (by rintro _ ⟨⟩) (by rintro _ _ _ ⟨⟩)
    intro record stage hother
    exact absurd hother (hworker record stage)

section Stages

variable {record next : QueueRow} {stage after : Stage}

lemma attempt_of_setStage {other : Fin n} {r : QueueRow} {st : Stage}
    (h : (s.setStage worker next after).workers other = .attempt r st) :
    (other = worker ∧ r = next ∧ st = after) ∨
      (other ≠ worker ∧ s.workers other = .attempt r st) := by
  by_cases hself : other = worker
  · subst hself
    have heq := (setWorker_self).symm.trans h
    simp only [Worker.attempt.injEq] at heq
    exact .inl ⟨rfl, heq.1.symm, heq.2.symm⟩
  · exact .inr ⟨hself, (setWorker_other hself).symm.trans h⟩

lemma Inv.records_setStage (h : Inv s) (hknown : s.Known next) {other : Fin n} {r : QueueRow}
    (hother : ((s.setStage worker next after).workers other).record? = some r) : s.Known r := by
  by_cases hself : other = worker
  · subst hself
    rw [QueueState.setStage, setWorker_self] at hother
    cases hother
    exact hknown
  · rw [QueueState.setStage, setWorker_other hself] at hother
    exact h.records other r hother

lemma Inv.enqueues_setStage (h : Inv s) {other : Fin n} {proposalId symbol : String} {unique : Bool}
    (hother : (s.setStage worker next after).workers other = .enqueueing proposalId symbol unique) :
    ∃ proposal, s.proposals proposalId = some proposal ∧ proposal.symbol = symbol := by
  by_cases hself : other = worker
  · subst hself
    rw [QueueState.setStage, setWorker_self] at hother
    cases hother
  · rw [QueueState.setStage, setWorker_other hself] at hother
    exact h.enqueues other proposalId symbol unique hother

lemma Inv.setStage (h : Inv s) (hworker : s.workers worker = .attempt record stage)
    (hnext : Copies next record) (hfresh : after.fresh = true → stage.fresh = true)
    (harmed : after.mayCall = true → s.OnlyFor record)
    (hpending : stage.pending = true → after.pending = true ∨ ¬s.Live record.proposalId) :
    Inv (s.setStage worker next after) := by
  -- whoever holds a row afterwards held the same row before
  have hheld {other : Fin n} {r : QueueRow} {st : Stage}
      (hother : (s.setStage worker next after).workers other = .attempt r st) :
      ∃ r' st', s.workers other = .attempt r' st' ∧ r'.id = r.id := by
    rcases attempt_of_setStage hother with ⟨rfl, rfl, -⟩ | ⟨-, hsame⟩
    · exact ⟨record, stage, hworker, hnext.id.symm⟩
    · exact ⟨r, st, hsame, rfl⟩
  have honly (h : s.OnlyFor record) : s.OnlyFor next := by
    intro order horder hproposal
    rw [hnext.id]
    exact h order horder (hproposal.trans hnext.proposalId)
  constructor
  · exact h.ids
  · exact h.symbols
  · exact h.index
  · obtain ⟨row, hrow, hcopies⟩ := h.records worker record (by rw [hworker]; rfl)
    exact fun other r hother => h.records_setStage ⟨row, hrow, hcopies.trans hnext.symm⟩ hother
  · exact fun other proposalId symbol unique hother => h.enqueues_setStage hother
  · intro other r st hother
    rcases attempt_of_setStage hother with ⟨rfl, rfl, -⟩ | ⟨-, hsame⟩
    · obtain ⟨row, hrow, hcopies, hstatus⟩ := h.processing _ _ _ hworker
      exact ⟨row, hrow, hcopies.trans hnext.symm, hstatus⟩
    · exact h.processing other r st hsame
  · intro w₁ w₂ r₁ r₂ st₁ st₂ h₁ h₂ hid
    obtain ⟨r₁', st₁', h₁', hid₁⟩ := hheld h₁
    obtain ⟨r₂', st₂', h₂', hid₂⟩ := hheld h₂
    exact h.exclusive _ _ _ _ _ _ h₁' h₂' (hid₁.trans (hid.trans hid₂.symm))
  · intro other r st hother hst halive
    rcases attempt_of_setStage hother with ⟨rfl, rfl, rfl⟩ | ⟨-, hsame⟩
    · apply honly
      apply h.fresh _ _ _ hworker (hfresh hst)
      rw [← hnext.proposalId]
      exact halive
    · exact h.fresh other r st hsame hst halive
  · intro other r st hother hst
    rcases attempt_of_setStage hother with ⟨rfl, rfl, rfl⟩ | ⟨-, hsame⟩
    · exact honly (harmed hst)
    · exact h.armed other r st hsame hst
  · intro order horder
    rcases h.accounted order horder with ⟨other, r, st, hother, hpend, hid⟩ | hrest
    · by_cases hself : other = worker
      · subst hself
        have heq := hworker.symm.trans hother
        simp only [Worker.attempt.injEq] at heq
        obtain ⟨rfl, rfl⟩ := heq
        rcases hpending hpend with hstill | hdead
        · exact .inl ⟨other, next, after, setWorker_self, hstill, hnext.id.trans hid⟩
        · have hknown := h.records other record (by rw [hworker]; rfl)
          rw [← (h.order_of_row horder hknown hid.symm).1] at hdead
          exact .inr (.inr hdead)
      · exact .inl ⟨other, r, st, (setWorker_other hself).trans hother, hpend, hid⟩
    · exact .inr hrest
  · exact h.sent
  · exact h.single

end Stages

end Workers

section Database

variable {s : QueueState n} {worker : Fin n}

lemma openElsewhere_eq_false {symbol queueId : String}
    (h : s.openElsewhere symbol queueId = false) {row : QueueRow} (hrow : row ∈ s.rows)
    (hopen : row.status.isOpen = true) (hsymbol : row.symbol = symbol) : row.id = queueId := by
  by_contra hid
  have hfound : s.openElsewhere symbol queueId = true :=
    List.any_eq_true.mpr ⟨row, hrow, by simp [hopen, hsymbol, hid]⟩
  rw [h] at hfound
  cases hfound

lemma mem_updateRow {queueId : String} {status : QueueStatus} {executionId : Option ℕ}
    {row : QueueRow} (hrow : row ∈ (s.updateRow queueId status executionId).rows) :
    ∃ old ∈ s.rows, Copies old row ∧
      (row.status = old.status ∧ row.id ≠ queueId ∨ row.status = status ∧ row.id = queueId) := by
  obtain ⟨old, hold, rfl⟩ := List.mem_map.mp hrow
  refine ⟨old, hold, ?_⟩
  split_ifs with hid
  · exact ⟨⟨rfl, rfl, rfl, rfl⟩, .inr ⟨rfl, hid⟩⟩
  · exact ⟨⟨rfl, rfl, rfl, rfl⟩, .inl ⟨rfl, hid⟩⟩

lemma updateRow_mem (queueId : String) (status : QueueStatus) (executionId : Option ℕ)
    {old : QueueRow} (hold : old ∈ s.rows) :
    ∃ row ∈ (s.updateRow queueId status executionId).rows, Copies row old ∧
      (row.status = old.status ∧ row.id ≠ queueId ∨ row.status = status ∧ row.id = queueId) := by
  refine ⟨_, List.mem_map.mpr ⟨old, hold, rfl⟩, ?_⟩
  split_ifs with hid
  · exact ⟨⟨rfl, rfl, rfl, rfl⟩, .inr ⟨rfl, hid⟩⟩
  · exact ⟨⟨rfl, rfl, rfl, rfl⟩, .inl ⟨rfl, hid⟩⟩

lemma Inv.updateRow (h : Inv s) {queueId : String} {status : QueueStatus} {executionId : Option ℕ}
    (hindex : status.isOpen = true → ∀ row ∈ s.rows, row.id = queueId →
      s.openElsewhere row.symbol queueId = false)
    (hheld : status ≠ .processing →
      ∀ worker record stage, s.workers worker = .attempt record stage → record.id ≠ queueId) :
    Inv (s.updateRow queueId status executionId) := by
  have hknown {record : QueueRow} (hrecord : s.Known record) :
      (s.updateRow queueId status executionId).Known record := by
    obtain ⟨old, hold, hcopies⟩ := hrecord
    obtain ⟨row, hrow, hsame, -⟩ := updateRow_mem queueId status executionId hold
    exact ⟨row, hrow, hsame.trans hcopies⟩
  constructor
  · have hids : (s.updateRow queueId status executionId).rows.map (·.id) = s.rows.map (·.id) := by
      rw [QueueState.updateRow]
      exact Table.map_key_where fun _ _ => rfl
    rw [hids]
    exact h.ids
  · intro row hrow
    obtain ⟨old, hold, hsame, -⟩ := mem_updateRow hrow
    rw [← hsame.proposalId, ← hsame.symbol]
    exact h.symbols old hold
  · intro a ha b hb hopenA hopenB hsymbol
    obtain ⟨oldA, holdA, hsameA, hstatusA⟩ := mem_updateRow ha
    obtain ⟨oldB, holdB, hsameB, hstatusB⟩ := mem_updateRow hb
    have hsymbols : oldA.symbol = oldB.symbol :=
      hsameA.symbol.trans (hsymbol.trans hsameB.symbol.symm)
    rcases hstatusA with ⟨hA, hidA⟩ | ⟨hA, hidA⟩ <;> rcases hstatusB with ⟨hB, hidB⟩ | ⟨hB, hidB⟩
    · have hid := h.index oldA holdA oldB holdB (hA ▸ hopenA) (hB ▸ hopenB) hsymbols
      exact hsameA.id.symm.trans (hid.trans hsameB.id)
    · have hfree := hindex (hB ▸ hopenB) oldB holdB (hsameB.id.trans hidB)
      have hid := openElsewhere_eq_false hfree holdA (hA ▸ hopenA) hsymbols
      exact absurd (hsameA.id.symm.trans hid) hidA
    · have hfree := hindex (hA ▸ hopenA) oldA holdA (hsameA.id.trans hidA)
      have hid := openElsewhere_eq_false hfree holdB (hB ▸ hopenB) hsymbols.symm
      exact absurd (hsameB.id.symm.trans hid) hidB
    · exact hidA.trans hidB.symm
  · exact fun worker record hrecord => hknown (h.records worker record hrecord)
  · exact h.enqueues
  · intro worker record stage hworker
    obtain ⟨old, hold, hcopies, hstatus⟩ := h.processing worker record stage hworker
    obtain ⟨row, hrow, hsame, hafter⟩ := updateRow_mem queueId status executionId hold
    refine ⟨row, hrow, hsame.trans hcopies, ?_⟩
    rcases hafter with ⟨hkept, -⟩ | ⟨hchanged, hid⟩
    · exact hkept.trans hstatus
    · by_contra hother
      rw [hchanged] at hother
      exact hheld hother worker record stage hworker
        (hcopies.id.symm.trans (hsame.id.symm.trans hid))
  · exact h.exclusive
  · exact h.fresh
  · exact h.armed
  · exact h.accounted
  · intro order horder
    obtain ⟨old, hold, hid, hproposal, hclient⟩ := h.sent order horder
    obtain ⟨row, hrow, hsame, -⟩ := updateRow_mem queueId status executionId hold
    exact ⟨row, hrow, hsame.id.trans hid, hsame.proposalId.trans hproposal,
      hsame.clientOrderId.trans hclient⟩
  · exact h.single

lemma finish_eq {record : QueueRow} {status : QueueStatus} {executionId : Option ℕ} :
    s.finish worker record status executionId =
      (s.leave worker).updateRow record.id status executionId := by
  unfold QueueState.finish QueueState.leave
  cases hworker : s.workers worker <;> simp only [QueueState.updateRow, hworker]
  · rfl
  · rfl
  · rfl
  · rfl
  · rfl
  · rfl
  · split_ifs <;> rfl

lemma attempt_of_leave {other : Fin n} {record : QueueRow} {stage : Stage}
    (h : (s.leave worker).workers other = .attempt record stage) :
    other ≠ worker ∧ s.workers other = .attempt record stage := by
  have hworkers : (s.leave worker).workers = (s.setWorker worker .idle).workers := by
    rw [QueueState.leave]
    split
    · split_ifs <;> rfl
    · rfl
  rw [hworkers] at h
  exact attempt_of_setWorker (fun _ _ => Worker.noConfusion) h

lemma Inv.finish (h : Inv s) {record : QueueRow} {status : QueueStatus} {executionId : Option ℕ}
    (hclosed : status.isOpen = false)
    (hheld : ∀ other r stage, s.workers other = .attempt r stage → r.id = record.id →
      other = worker) :
    Inv (s.finish worker record status executionId) := by
  rw [finish_eq]
  apply h.leave.updateRow
  · intro hopen
    rw [hclosed] at hopen
    cases hopen
  · intro _ other r stage hother hid
    obtain ⟨hne, hsame⟩ := attempt_of_leave hother
    exact hne (hheld other r stage hsame hid)

lemma Inv.insertRow (h : Inv s) {proposalId queueId : String} {proposal : StoredProposal}
    (hproposal : s.proposals proposalId = some proposal) (hnew : s.row? queueId = none)
    (hindex : s.openElsewhere proposal.symbol.toUpper queueId = false) :
    Inv (s.insertRow proposalId proposal.symbol queueId) := by
  have hfresh : ∀ row ∈ s.rows, row.id ≠ queueId := by
    simpa [QueueState.row?] using hnew
  have hold {row : QueueRow} (hrow : row ∈ s.rows) :
      row ∈ (s.insertRow proposalId proposal.symbol queueId).rows := List.mem_append_left _ hrow
  have hmem {row : QueueRow}
      (hrow : row ∈ (s.insertRow proposalId proposal.symbol queueId).rows) :
      row ∈ s.rows ∨ row.id = queueId ∧ row.proposalId = proposalId ∧
        row.symbol = proposal.symbol.toUpper := by
    rcases List.mem_append.mp hrow with hrow | hrow
    · exact .inl hrow
    · rw [List.mem_singleton.mp hrow]
      exact .inr ⟨rfl, rfl, rfl⟩
  constructor
  · rw [QueueState.insertRow, List.map_append, List.nodup_append]
    refine ⟨h.ids, List.nodup_singleton _, ?_⟩
    intro a ha b hb
    obtain ⟨row, hrow, rfl⟩ := List.mem_map.mp ha
    rw [List.mem_singleton.mp hb]
    exact hfresh row hrow
  · intro row hrow
    rcases hmem hrow with hrow | ⟨-, hP, hsymbol⟩
    · exact h.symbols row hrow
    · exact ⟨proposal, hP ▸ hproposal, hsymbol⟩
  · intro a ha b hb hopenA hopenB hsymbol
    rcases hmem ha with ha | ⟨hidA, -, hsymbolA⟩ <;> rcases hmem hb with hb | ⟨hidB, -, hsymbolB⟩
    · exact h.index a ha b hb hopenA hopenB hsymbol
    · exact (openElsewhere_eq_false hindex ha hopenA (hsymbol.trans hsymbolB)).trans hidB.symm
    · exact hidA.trans
        (openElsewhere_eq_false hindex hb hopenB (hsymbol.symm.trans hsymbolA)).symm
    · exact hidA.trans hidB.symm
  · intro worker record hrecord
    obtain ⟨row, hrow, hcopies⟩ := h.records worker record hrecord
    exact ⟨row, hold hrow, hcopies⟩
  · exact h.enqueues
  · intro worker record stage hworker
    obtain ⟨row, hrow, hrest⟩ := h.processing worker record stage hworker
    exact ⟨row, hold hrow, hrest⟩
  · exact h.exclusive
  · exact h.fresh
  · exact h.armed
  · exact h.accounted
  · intro order horder
    obtain ⟨row, hrow, hrest⟩ := h.sent order horder
    exact ⟨row, hold hrow, hrest⟩
  · exact h.single

end Database

section Calls

variable {s : QueueState n} {worker : Fin n} {record : QueueRow}

lemma Inv.hold (h : Inv s) (hnone : ∀ r stage, s.workers worker ≠ .attempt r stage)
    (hrow : ∃ row ∈ s.rows, Copies row record ∧ row.status = .processing)
    (hfree : ¬s.Busy record.id) (honly : s.Live record.proposalId → s.OnlyFor record) :
    Inv (s.setStage worker record .claimed) := by
  constructor
  · exact h.ids
  · exact h.symbols
  · exact h.index
  · obtain ⟨row, hmem, hcopies, -⟩ := hrow
    exact fun other r hother => h.records_setStage ⟨row, hmem, hcopies⟩ hother
  · exact fun other proposalId symbol unique hother => h.enqueues_setStage hother
  · intro other r st hother
    rcases attempt_of_setStage hother with ⟨rfl, rfl, -⟩ | ⟨-, hsame⟩
    · exact hrow
    · exact h.processing other r st hsame
  · intro w₁ w₂ r₁ r₂ st₁ st₂ h₁ h₂ hid
    rcases attempt_of_setStage h₁ with ⟨rfl, rfl, -⟩ | ⟨-, hold₁⟩ <;> rcases attempt_of_setStage h₂ with ⟨rfl, rfl, -⟩ | ⟨-, hold₂⟩
    · rfl
    · exact absurd ⟨w₂, r₂, st₂, hold₂, hid.symm⟩ hfree
    · exact absurd ⟨w₁, r₁, st₁, hold₁, hid⟩ hfree
    · exact h.exclusive _ _ _ _ _ _ hold₁ hold₂ hid
  · intro other r st hother hst halive
    rcases attempt_of_setStage hother with ⟨rfl, rfl, rfl⟩ | ⟨-, hsame⟩
    · exact honly halive
    · exact h.fresh other r st hsame hst halive
  · intro other r st hother hst
    rcases attempt_of_setStage hother with ⟨rfl, rfl, rfl⟩ | ⟨-, hsame⟩
    · cases hst
    · exact h.armed other r st hsame hst
  · intro order horder
    apply (h.accounted order horder).imp_left
    rintro ⟨other, r, st, hother, hpending, hid⟩
    have hne : other ≠ worker := by
      rintro rfl
      exact hnone r st hother
    exact ⟨other, r, st, (setWorker_other hne).trans hother, hpending, hid⟩
  · exact h.sent
  · exact h.single

lemma Inv.submit (h : Inv s) {stage : Stage} (hworker : s.workers worker = .attempt record stage)
    (hpending : stage.pending = true) (honly : s.OnlyFor record) : Inv (s.submit record) := by
  have hmore {r : QueueRow} (hr : s.OnlyFor r)
      (hsame : record.proposalId = r.proposalId → record.id = r.id) :
      (s.submit record).OnlyFor r := by
    intro order horder hproposal
    rcases List.mem_append.mp horder with horder | horder
    · exact hr order horder hproposal
    · rw [List.mem_singleton.mp horder] at hproposal ⊢
      exact hsame hproposal
  constructor
  · exact h.ids
  · exact h.symbols
  · exact h.index
  · exact h.records
  · exact h.enqueues
  · exact h.processing
  · exact h.exclusive
  · intro other r st hother hst halive
    exact hmore (h.fresh other r st hother hst halive) (h.same_row hworker hother)
  · intro other r st hother hst
    exact hmore (h.armed other r st hother hst) (h.same_row hworker hother)
  · intro order horder
    rcases List.mem_append.mp horder with horder | horder
    · exact h.accounted order horder
    · rw [List.mem_singleton.mp horder]
      exact .inl ⟨worker, record, stage, hworker, hpending, rfl⟩
  · intro order horder
    rcases List.mem_append.mp horder with horder | horder
    · exact h.sent order horder
    · rw [List.mem_singleton.mp horder]
      obtain ⟨row, hrow, hcopies⟩ := h.records worker record (by rw [hworker]; rfl)
      exact ⟨row, hrow, hcopies.id, hcopies.proposalId, hcopies.clientOrderId⟩
  · intro a ha b hb hproposal
    rcases List.mem_append.mp ha with ha | ha <;> rcases List.mem_append.mp hb with hb | hb
    · exact h.single a ha b hb hproposal
    · rw [List.mem_singleton.mp hb] at hproposal ⊢
      exact honly a ha hproposal
    · rw [List.mem_singleton.mp ha] at hproposal ⊢
      exact (honly b hb hproposal.symm).symm
    · rw [List.mem_singleton.mp ha, List.mem_singleton.mp hb]

lemma Inv.callBroker (h : Inv s) {stage : Stage} (hworker : s.workers worker = .attempt record stage)
    (hcall : stage.mayCall = true) {answered : ExecutionStatus → Stage}
    (hanswered : ∀ status, (answered status).pending = true ∧ (answered status).fresh = false ∧
      (answered status).mayCall = false) (choice : Choice) :
    Inv (s.callBroker worker record answered choice) := by
  have hcopies : Copies record record := ⟨rfl, rfl, rfl, rfl⟩
  have honly := h.armed worker record stage hworker hcall
  have hquiet : stage.pending = false := by
    cases stage <;> first | rfl | cases hcall
  have hstage (after : Stage) (hfresh : after.fresh = false) (hmay : after.mayCall = false) :
      Inv (s.setStage worker record after) := by
    apply h.setStage hworker hcopies
    · rw [hfresh]
      exact fun hfalse => by cases hfalse
    · exact fun _ => honly
    · rw [hquiet]
      exact fun hfalse => by cases hfalse
  have hsend (after : Stage) (hfresh : after.fresh = false) (hmay : after.mayCall = false)
      (hpending : after.pending = true) :
      Inv ((s.submit record).setStage worker record after) :=
    (hstage after hfresh hmay).submit setWorker_self hpending honly
  cases choice with
  | answer status =>
    obtain ⟨hpending, hfresh, hmay⟩ := hanswered status
    exact hsend _ hfresh hmay hpending
  | raise => exact hsend _ rfl rfl rfl
  | refuse => exact hstage _ rfl rfl
  | proceed => exact h
  | insertAs => exact h
  | block => exact h
  | route => exact h
  | fallBack => exact h

end Calls

section Steps

variable {s t : QueueState n} {worker : Fin n} {record : QueueRow} {stage : Stage}

lemma Inv.goOn (h : Inv s) (hframe : Frames s t) (hworker : s.workers worker = .attempt record stage)
    {after : Stage} (hfresh : after.fresh = true → stage.fresh = true)
    (harmed : after.mayCall = true → s.OnlyFor record)
    (hpending : stage.pending = true → after.pending = true ∨ ¬t.Live record.proposalId) :
    Inv (t.setStage worker record after) := by
  have honly : t.OnlyFor record ↔ s.OnlyFor record := by
    unfold OnlyFor
    rw [hframe.submitted]
  apply (h.frame hframe).setStage (hframe.workers ▸ hworker) ⟨rfl, rfl, rfl, rfl⟩ hfresh
  · exact fun hmay => honly.mpr (harmed hmay)
  · exact hpending

lemma not_live_of_executed : ¬(s.setStatus record.proposalId .executed).Live record.proposalId := by
  rintro ⟨proposal, hproposal, happroved, -⟩
  simp only [setStatus, Function.update_self, Option.map_eq_some_iff] at hproposal
  obtain ⟨old, -, rfl⟩ := hproposal
  cases happroved

lemma live_of_isApproved {proposalId : String}
    (happroved : (s.expireIfNeeded proposalId).isApproved proposalId = true) :
    s.Live proposalId := by
  rw [expireIfNeeded] at happroved
  split_ifs at happroved with hdue
  · cases hproposal : s.proposals proposalId <;>
      simp [isApproved, setStatus, hproposal] at happroved
  · cases hproposal : s.proposals proposalId with
    | none => simp [isApproved, hproposal] at happroved
    | some proposal =>
      simp only [isApproved, hproposal, Option.any_some, decide_eq_true_eq] at happroved
      simp only [hproposal, Option.any_some, isDue, happroved, or_true, true_and,
        decide_eq_true_eq, not_le] at hdue
      exact ⟨proposal, hproposal, happroved, hdue⟩

lemma Inv.finishHeld (h : Inv s) (hworker : s.workers worker = .attempt record stage)
    {status : QueueStatus} {executionId : Option ℕ} (hclosed : status.isOpen = false) :
    Inv (s.finish worker record status executionId) :=
  h.finish hclosed fun _ _ _ hother hid => h.exclusive _ _ _ _ _ _ hother hworker hid

lemma Inv.advanceAttempt (h : Inv s) (hworker : s.workers worker = .attempt record stage)
    (choice : Choice) : Inv (s.advanceAttempt worker record stage choice) := by
  have hknown := h.records worker record (by rw [hworker]; rfl)
  unfold QueueState.advanceAttempt
  split
  · -- the row is read again
    apply h.setStage hworker _ (by simp [Stage.fresh]) (by simp [Stage.mayCall])
      (by simp [Stage.pending])
    cases hrow : s.row? record.id with
    | none => exact ⟨rfl, rfl, rfl, rfl⟩
    | some row =>
      have hid : row.id = record.id := by simpa using List.find?_some hrow
      exact h.copied (List.mem_of_find?_eq_some hrow) hid hknown
  · -- an approved proposal is live, so every order of it was sent for this row
    dsimp only
    split_ifs with happroved
    · apply h.goOn (frames_expireIfNeeded _) hworker (by simp [Stage.fresh]) _
        (by simp [Stage.pending])
      exact fun _ => h.fresh worker record _ hworker rfl (live_of_isApproved happroved)
    · exact h.goOn (frames_expireIfNeeded _) hworker (by simp [Stage.fresh])
        (by simp [Stage.mayCall]) (by simp [Stage.pending])
  · exact h.finishHeld hworker rfl
  · exact h.goOn frames_refl hworker (by simp [Stage.fresh]) (by simp [Stage.mayCall])
      (by simp [Stage.pending])
  · apply h.goOn frames_refl hworker (by simp [Stage.fresh]) _ (by simp [Stage.pending])
    exact fun _ => h.armed worker record _ hworker rfl
  · exact h.goOn (frames_addExecution _ _) hworker (by simp [Stage.fresh])
      (by simp [Stage.mayCall]) (by simp [Stage.pending])
  · split_ifs
    · exact h.leave
    · exact h.callBroker hworker rfl (fun _ => ⟨rfl, rfl, rfl⟩) choice
  · dsimp only
    have honly := h.armed worker record _ hworker rfl
    split_ifs
    · exact h.goOn (frames_expireIfNeeded _) hworker (by simp [Stage.fresh]) (fun _ => honly)
        (by simp [Stage.pending])
    · have hexpired : Inv (s.expireIfNeeded record.proposalId) := h.frame (frames_expireIfNeeded _)
      have hworker' := (frames_expireIfNeeded (s := s) record.proposalId).workers ▸ hworker
      exact hexpired.goOn (frames_addExecution _ _) hworker' (by simp [Stage.fresh])
        (by simp [Stage.mayCall]) (by simp [Stage.pending])
  · exact h.goOn (frames_addExecution _ _) hworker (by simp [Stage.fresh])
      (by simp [Stage.mayCall]) (by simp [Stage.pending])
  · apply h.goOn (frames_addExecution _ _) hworker (by simp [Stage.fresh]) _
      (by simp [Stage.pending])
    exact fun _ => h.armed worker record _ hworker rfl
  · exact h.callBroker hworker rfl (fun _ => ⟨rfl, rfl, rfl⟩) choice
  · exact h.goOn (frames_updateExecution _ _) hworker (by simp [Stage.fresh])
      (by simp [Stage.mayCall]) (fun _ => .inl rfl)
  · exact h.goOn (frames_addExecution _ _) hworker (by simp [Stage.fresh])
      (by simp [Stage.mayCall]) (fun _ => .inl rfl)
  · exact h.goOn frames_refl hworker (by simp [Stage.fresh]) (by simp [Stage.mayCall])
      (fun _ => .inl rfl)
  · exact h.goOn frames_refl hworker (by simp [Stage.fresh]) (by simp [Stage.mayCall])
      (fun _ => .inl rfl)
  · -- marking the proposal settles the order
    exact h.goOn (frames_setStatus _ (by decide)) hworker (by simp [Stage.fresh])
      (by simp [Stage.mayCall]) (fun _ => .inr not_live_of_executed)
  · exact h.goOn frames_refl hworker (by simp [Stage.fresh]) (by simp [Stage.mayCall])
      (fun hcalled => .inl hcalled)
  · exact h.finishHeld hworker rfl
  · exact h.goOn frames_refl hworker (by simp [Stage.fresh]) (by simp [Stage.mayCall])
      (by simp [Stage.pending])
  · exact h.goOn (frames_addExecution _ _) hworker (by simp [Stage.fresh])
      (by simp [Stage.mayCall]) (fun hcalled => .inl hcalled)
  · exact h.goOn (frames_addExecution _ _) hworker (by simp [Stage.fresh])
      (by simp [Stage.mayCall]) (fun hcalled => .inl hcalled)
  · exact h.finishHeld hworker rfl
  · exact h

lemma claimed?_some {staleBefore : ℕ} {row : QueueRow}
    (hclaim : s.claimed? record staleBefore = some row) :
    row ∈ s.rows ∧ row.id = record.id ∧ s.openElsewhere row.symbol row.id = false := by
  obtain ⟨hrow, hmay⟩ := Option.filter_eq_some_iff.mp hclaim
  have hid : row.id = record.id := by simpa using List.find?_some hrow
  simp only [Bool.decide_and, Bool.and_eq_true, decide_eq_true_eq] at hmay
  exact ⟨List.mem_of_find?_eq_some hrow, hid, hmay.2⟩

/-- Every order of a live proposal was sent for the row that is claimed: another row would be
held by a call, which the index excludes, or unsettled. -/
lemma Inv.onlyFor_of_claim (h : Inv s) {staleBefore : ℕ} {row : QueueRow}
    (hclaim : s.claimed? record staleBefore = some row) (hknown : s.Known record)
    (hfree : ¬s.Busy record.id)
    (hsettled : ∀ entry ∈ s.unsettled, entry.1 = record.proposalId → entry.2 = record.id)
    (hlive : s.Live record.proposalId) : s.OnlyFor record := by
  obtain ⟨hrow, hid, hindex⟩ := claimed?_some hclaim
  have hcopies := h.copied hrow hid hknown
  intro order horder hproposal
  rcases h.accounted order horder with ⟨other, r, st, hother, -, hr⟩ | hunsettled | hdead
  · obtain ⟨held, hheld, hheldCopies, hprocessing⟩ := h.processing other r st hother
    have horderOf := h.order_of_row horder ⟨held, hheld, hheldCopies⟩ hr.symm
    have hsame : held.proposalId = row.proposalId :=
      hheldCopies.proposalId.trans
        (horderOf.1.symm.trans (hproposal.trans hcopies.proposalId.symm))
    have hrowId := openElsewhere_eq_false hindex hheld (by rw [hprocessing]; rfl)
      (h.symbol_eq hheld hrow hsame)
    exact absurd ⟨other, r, st, hother, hheldCopies.id.symm.trans (hrowId.trans hid)⟩ hfree
  · exact hsettled _ hunsettled hproposal
  · rw [hproposal] at hdead
    exact absurd hlive hdead

lemma Inv.claimForProcessing (h : Inv s) {staleBefore : ℕ}
    (hworker : s.workers worker = .ready record staleBefore)
    (hallowed : (s.claimed? record staleBefore).isSome → ¬s.Busy record.id ∧
      ∀ entry ∈ s.unsettled, entry.1 = record.proposalId → entry.2 = record.id) :
    Inv (s.claimForProcessing worker record staleBefore) := by
  have hknown := h.records worker record (by rw [hworker]; rfl)
  rw [QueueState.claimForProcessing]
  cases hclaim : s.claimed? record staleBefore with
  | none => exact h.leave
  | some row =>
    obtain ⟨hfree, hsettled⟩ := hallowed (by rw [hclaim]; rfl)
    obtain ⟨hrow, hid, hindex⟩ := claimed?_some hclaim
    have hupdated : Inv (s.updateRow row.id .processing row.executionId) := by
      apply h.updateRow
      · intro _ other hother hsame
        rw [h.row_unique hother hrow hsame]
        exact hindex
      · exact fun hne => absurd rfl hne
    apply hupdated.hold
    · intro r st hother
      have heq := hworker.symm.trans hother
      cases heq
    · obtain ⟨after, hafter, hcopies, hstatus⟩ :=
        updateRow_mem row.id .processing row.executionId hrow
      refine ⟨after, hafter, hcopies.trans (h.copied hrow hid hknown), ?_⟩
      rcases hstatus with ⟨-, hne⟩ | ⟨hprocessing, -⟩
      · exact absurd hcopies.id hne
      · exact hprocessing
    · exact hfree
    · exact h.onlyFor_of_claim hclaim hknown hfree hsettled

lemma Inv.carryOn (h : Inv s) (hidle : ∀ r st, s.workers worker ≠ .attempt r st) {state : Worker}
    (hnone : ∀ r st, state ≠ .attempt r st)
    (hrecord : ∀ r, state.record? = some r → s.Known r)
    (henqueue : ∀ proposalId symbol unique, state = .enqueueing proposalId symbol unique →
      ∃ proposal, s.proposals proposalId = some proposal ∧ proposal.symbol = symbol) :
    Inv (s.setWorker worker state) :=
  h.setWorker hnone hrecord henqueue fun r st hworker => absurd hworker (hidle r st)

lemma Inv.advance (h : Inv s) {timeout : ℕ} {choice : Choice}
    (hallowed : s.StepAllowed (.advance worker choice)) :
    Inv (s.advance worker timeout choice) := by
  rw [QueueState.advance]
  cases hworker : s.workers worker with
  | idle => exact h
  | enqueueing proposalId symbol unique =>
    obtain ⟨proposal, hproposal, rfl⟩ := h.enqueues worker proposalId symbol unique hworker
    cases unique with
    | false =>
      dsimp only
      split_ifs
      · exact h.leave
      · apply h.carryOn (by simp [hworker]) (by simp) (by simp [Worker.record?])
        rintro _ _ _ ⟨⟩
        exact ⟨proposal, hproposal, rfl⟩
    | true =>
      cases choice with
      | insertAs queueId =>
        dsimp only
        split_ifs with htaken
        · exact h.leave
        · rw [not_or, Bool.not_eq_true, Bool.not_eq_true] at htaken
          have hnew : s.row? queueId = none := by simpa using htaken.1
          exact (h.insertRow hproposal hnew htaken.2).leave
      | _ => exact h
  | loaded record =>
    have hknown := h.records worker record (by rw [hworker]; rfl)
    dsimp only
    split_ifs
    · exact h.leave
    · exact h.carryOn (by simp [hworker]) (by simp) (by simpa [Worker.record?] using hknown)
        (by simp)
  | checked record =>
    have hknown := h.records worker record (by rw [hworker]; rfl)
    have hready : Inv (if record.status.isFinal then s.leave worker
        else s.setWorker worker (.ready record (s.clock - timeout))) := by
      split_ifs
      · exact h.leave
      · exact h.carryOn (by simp [hworker]) (by simp) (by simpa [Worker.record?] using hknown)
          (by simp)
    dsimp only
    cases s.latestExecution record.proposalId with
    | none => exact hready
    | some latest =>
      dsimp only
      split_ifs with hdone
      · exact h.carryOn (by simp [hworker]) (by simp) (by simpa [Worker.record?] using hknown)
          (by simp)
      · exact h.leave
      · exact h.carryOn (by simp [hworker]) (by simp) (by simpa [Worker.record?] using hknown)
          (by simp)
  | found record executionId =>
    simp only [StepAllowed, hworker, WorkerAllowed] at hallowed
    exact h.finish rfl fun other r st hother hid => absurd ⟨other, r, st, hother, hid⟩ hallowed
  | ready record staleBefore =>
    simp only [StepAllowed, hworker, WorkerAllowed] at hallowed
    exact h.claimForProcessing hworker hallowed
  | attempt record stage => exact h.advanceAttempt hworker choice

lemma Inv.step (h : Inv s) {timeout : ℕ} {action : QueueAction n}
    (hallowed : s.StepAllowed action) : Inv (QueueState.step timeout s action) := by
  cases action with
  | enqueue worker proposalId =>
    simp only [QueueState.step]
    split_ifs with hidle
    · have hexpired : Inv (s.expireIfNeeded proposalId) := h.frame (frames_expireIfNeeded _)
      have hstill : (s.expireIfNeeded proposalId).workers worker = .idle :=
        (congrFun (frames_expireIfNeeded proposalId).workers worker).trans hidle
      cases hproposal : (s.expireIfNeeded proposalId).proposals proposalId with
      | none => exact hexpired
      | some proposal =>
        dsimp only
        split_ifs
        · apply hexpired.carryOn (by simp [hstill]) (by simp) (by simp [Worker.record?])
          rintro _ _ _ ⟨⟩
          exact ⟨proposal, hproposal, rfl⟩
        · exact hexpired
    · exact h
  | process worker queueId =>
    simp only [QueueState.step]
    split_ifs with hidle
    · cases hrow : s.row? queueId with
      | none => exact h
      | some row =>
        apply h.carryOn (by simp [hidle]) (by simp) _ (by simp)
        rintro _ ⟨⟩
        exact ⟨row, List.mem_of_find?_eq_some hrow, rfl, rfl, rfl, rfl⟩
    · exact h
  | advance worker choice => exact h.advance hallowed
  | stop worker => exact h.leave
  | tick seconds => exact h.frame (frames_tick seconds)

lemma Inv.start (proposals : String → Option StoredProposal) :
    Inv ({ proposals := proposals } : QueueState n) where
  ids := List.nodup_nil
  symbols := by simp
  index := by simp
  records := by
    intro _ _ hrecord
    cases hrecord
  enqueues := by
    intro _ _ _ _ hworker
    cases hworker
  processing := by
    intro _ _ _ hworker
    cases hworker
  exclusive := by
    intro _ _ _ _ _ _ hworker
    cases hworker
  fresh := by
    intro _ _ _ hworker
    cases hworker
  armed := by
    intro _ _ _ hworker
    cases hworker
  accounted := by simp
  sent := by simp
  single := by simp

lemma Inv.atMostOneOrder (h : Inv s) : s.AtMostOneOrder := by
  intro a ha b hb hproposal
  obtain ⟨row, hrow, hid, -, hclient⟩ := h.sent a ha
  obtain ⟨other, hother, hid', -, hclient'⟩ := h.sent b hb
  have hsame := h.row_unique hrow hother
    (hid.trans ((h.single a ha b hb hproposal).trans hid'.symm))
  rw [← hclient, ← hclient', hsame]

end Steps

theorem one_order_per_proposal (timeout : ℕ) (proposals : String → Option StoredProposal)
    (actions : List (QueueAction n))
    (hallowed : Runs.Allowed (QueueState.step timeout) StepAllowed { proposals := proposals }
      actions) :
    (Runs.run (QueueState.step timeout) { proposals := proposals } actions).AtMostOneOrder :=
  (Runs.invariant (fun _ _ h hstep => h.step hstep) (Inv.start proposals) hallowed).atMostOneOrder

def approvedNvda (proposalId : String) : Option StoredProposal :=
  if proposalId = "prop" then some { symbol := "NVDA", status := .approved, expiresAt := 1000 }
  else none

def enqueueCall (worker : Fin n) (queueId : String) : List (QueueAction n) :=
  [.enqueue worker "prop", .advance worker .proceed, .advance worker (.insertAs queueId)]

def processCall (worker : Fin n) (queueId : String) : List (QueueAction n) :=
  .process worker queueId :: List.replicate 5 (.advance worker .proceed) ++
    [.advance worker (.route .broker)]

/-- Two workers on one item: the order of the first is accepted, the second finds the execution. -/
def sharedItem : List (QueueAction 2) :=
  enqueueCall 0 "queue_1" ++ processCall 0 "queue_1" ++ [.process 1 "queue_1"] ++
    .advance 0 (.answer .submitted) :: List.replicate 3 (.advance 0 .proceed) ++
    List.replicate 3 (.advance 1 .proceed)

theorem one_order_on_sharedItem :
    Runs.Allowed (QueueState.step 45) StepAllowed { proposals := approvedNvda } sharedItem ∧
      (Runs.run (QueueState.step 45) { proposals := approvedNvda } sharedItem).AtMostOneOrder := by
  have hallowed : Runs.Allowed (QueueState.step 45) StepAllowed { proposals := approvedNvda }
      sharedItem := by decide +kernel
  exact ⟨hallowed, one_order_per_proposal 45 approvedNvda sharedItem hallowed⟩

/-- The broker call raises, the item is blocked, and the proposal is queued again. -/
def retriedProposal : List (QueueAction 1) :=
  enqueueCall 0 "queue_1" ++ processCall 0 "queue_1" ++
    [.advance 0 .raise, .advance 0 .proceed, .advance 0 .proceed] ++
    enqueueCall 0 "queue_2" ++ processCall 0 "queue_2" ++ [.advance 0 (.answer .submitted)]

theorem retried_proposal_sends_two_orders :
    ¬(Runs.run (QueueState.step 45) { proposals := approvedNvda }
      retriedProposal).AtMostOneOrder := by
  decide +kernel

end QueueState

end AlgoTrader.Execution
