import AlgoTrader.Lib.Runs
import AlgoTrader.Lib.Table
import AlgoTrader.Models.Trade
import AlgoTrader.Utils.Time
import Mathlib.Logic.Function.Basic

/-! Trade proposals and their approval (``app/approvals/service.py`` over
``ProposalRepository``). A call reads whole rows, decides and writes whole rows back; each
database statement is one step, and the steps of several processes interleave. -/

namespace AlgoTrader.Approvals

open Models Utils.Time

structure Proposal where
  id : String
  order : TradeOrder
  paperOnly : Bool := false
  status : ApprovalStatus := .pending
  notes : String := ""
  decisionNotes : String := ""
  approvedBy : Option String := none
  executionId : Option String := none
  createdAt : Timestamp
  updatedAt : Timestamp
  expiresAt : Timestamp
  executedAt : Option Timestamp := none
  deriving DecidableEq

-- ``order`` is the prepared order, ``riskReasons`` what the guardrails object to in it, and
-- ``id`` the identifier generated for the new proposal.
structure CreateRequest where
  id : String
  order : TradeOrder
  paperOnly : Bool := false
  notes : String := ""
  riskReasons : List String := []

structure Decision where
  reviewer : String := "human"
  notes : String := ""

def autoReviewer : String := "paper_auto"

def automaticOnly : String :=
  "Paper-only entries are automatic only: they cannot be approved by hand."

inductive Call
  | createProposal (request : CreateRequest)
  | listProposals (status : Option ApprovalStatus)
  | getProposal (id : String)
  | approveProposal (id : String) (decision : Decision)
  | rejectProposal (id : String) (decision : Decision)
  | markExecuted (id executionId : String)

namespace Proposal

variable (proposal : Proposal) (now : Timestamp)

def isDue : Bool :=
  (proposal.status = .pending ∨ proposal.status = .approved) ∧ proposal.expiresAt ≤ now

def expire : Proposal := { proposal with status := .expired, updatedAt := now }

def expireIfNeeded : Proposal := if proposal.isDue now then proposal.expire now else proposal

def approve (decision : Decision) : Except String Proposal :=
  if proposal.status ≠ .pending then .error "Only pending proposals can be approved"
  else if proposal.paperOnly = true ∧ decision.reviewer ≠ autoReviewer then .error automaticOnly
  else
    .ok { proposal with
      status := .approved
      approvedBy := some decision.reviewer
      decisionNotes := decision.notes
      updatedAt := now }

def reject (decision : Decision) : Except String Proposal :=
  if proposal.status ≠ .pending ∧ proposal.status ≠ .approved then
    .error "Only pending or approved proposals can be rejected"
  else
    .ok { proposal with
      status := .rejected
      approvedBy := some decision.reviewer
      decisionNotes := decision.notes
      updatedAt := now }

def markExecuted (executionId : String) : Proposal :=
  { proposal with
    status := .executed
    executionId := some executionId
    executedAt := some now
    updatedAt := now }

-- The row a call writes once the proposal it read has been judged for expiry; the other calls end
-- with that check.
def decided : Call → Except String Proposal
  | .approveProposal _ decision => proposal.approve now decision
  | .rejectProposal _ decision => proposal.reject now decision
  | .markExecuted _ executionId => .ok (proposal.markExecuted now executionId)
  | _ => .error ""

end Proposal

/-- What a call of a process still has to do: judge the rows it read for expiry, or decide on the
one it was asked about. -/
inductive Process
  | idle
  | judging (call : Call) (rows : List Proposal)
  | deciding (call : Call) (proposal : Proposal)

inductive Action (n : ℕ)
  | begin (process : Fin n) (call : Call)
  | advance (process : Fin n)
  | stop (process : Fin n)
  | tick (micros : ℕ)

-- The last two fields are no data of the program: the statuses each row has had, newest first, and
-- the executions stored for proposals.
structure ServiceState (n : ℕ) where
  clock : Timestamp := 0
  rows : List Proposal := []
  processes : Fin n → Process := fun _ => .idle
  statuses : String → List ApprovalStatus := fun _ => []
  executed : List (String × String) := []

namespace ServiceState

variable {n : ℕ} (s : ServiceState n)

def row? (id : String) : Option Proposal := Table.find Proposal.id s.rows id

def setProcess (process : Fin n) (state : Process) : ServiceState n :=
  { s with processes := Function.update s.processes process state }

def record (proposal : Proposal) : ServiceState n :=
  { s with
    statuses := Function.update s.statuses proposal.id
      (proposal.status :: s.statuses proposal.id) }

/-- ``UPDATE approvals … WHERE id = ?`` -/
def update (proposal : Proposal) : ServiceState n :=
  { s.record proposal with rows := Table.replace Proposal.id s.rows proposal }

/-- ``INSERT INTO approvals``, refused for an identifier that is taken. -/
def insert (proposal : Proposal) : ServiceState n :=
  if (s.row? proposal.id).isSome then s
  else { s.record proposal with rows := s.rows ++ [proposal] }

def newProposal (expiryMinutes : ℕ) (request : CreateRequest) : Proposal where
  id := request.id
  order := request.order
  paperOnly := request.paperOnly
  notes := request.notes
  createdAt := s.clock
  updatedAt := s.clock
  expiresAt := s.clock + expiryMinutes * microsPerMinute

def list (status : Option ApprovalStatus) : List Proposal :=
  (s.rows.filter fun row => status.all (row.status = ·)).mergeSort
    fun newer older => older.createdAt ≤ newer.createdAt

def read : Call → List Proposal
  | .createProposal _ => []
  | .listProposals status => s.list status
  | .getProposal id => (s.row? id).toList
  | .approveProposal id _ => (s.row? id).toList
  | .rejectProposal id _ => (s.row? id).toList
  | .markExecuted id _ => (s.row? id).toList

def expireIfNeeded (proposal : Proposal) : ServiceState n :=
  if proposal.isDue s.clock then s.update (proposal.expire s.clock) else s

-- What follows the expiry check of a row that was read.
def judged (call : Call) (proposal : Proposal) (rest : List Proposal) : Process :=
  match call with
  | .listProposals _ => .judging call rest
  | .createProposal _ => .idle
  | .getProposal _ => .idle
  | _ => .deciding call (proposal.expireIfNeeded s.clock)

def noteExecuted : Call → ServiceState n
  | .markExecuted id executionId => { s with executed := (id, executionId) :: s.executed }
  | _ => s

def write (call : Call) (proposal : Proposal) : ServiceState n :=
  match proposal.decided s.clock call with
  | .ok next => (s.update next).noteExecuted call
  | .error _ => s

def advance (process : Fin n) : ServiceState n :=
  match s.processes process with
  | .idle => s
  | .judging _ [] => s.setProcess process .idle
  | .judging call (proposal :: rest) =>
    (s.expireIfNeeded proposal).setProcess process (s.judged call proposal rest)
  | .deciding call proposal => (s.write call proposal).setProcess process .idle

def begin (expiryMinutes : ℕ) (process : Fin n) (call : Call) : ServiceState n :=
  match s.processes process with
  | .idle =>
    match call with
    | .createProposal request =>
      if request.riskReasons = [] then s.insert (s.newProposal expiryMinutes request) else s
    | _ => s.setProcess process (.judging call (s.read call))
  | _ => s

def step (expiryMinutes : ℕ) (s : ServiceState n) : Action n → ServiceState n
  | .begin process call => s.begin expiryMinutes process call
  | .advance process => s.advance process
  | .stop process => s.setProcess process .idle
  | .tick micros => { s with clock := s.clock + micros }

lemma setProcess_self {process : Fin n} {state : Process} :
    (s.setProcess process state).processes process = state := Function.update_self _ _ _

lemma setProcess_other {process other : Fin n} {state : Process} (h : other ≠ process) :
    (s.setProcess process state).processes other = s.processes other := Function.update_of_ne h _ _

section Rows

variable {s} {proposal : Proposal} {id : String}

lemma row?_update_self {stored : Proposal} (h : s.row? proposal.id = some stored) :
    (s.update proposal).row? proposal.id = some proposal := by
  rw [row?] at h
  rw [row?, update, Table.find_replace_self, h]
  rfl

lemma row?_update_other (h : proposal.id ≠ id) : (s.update proposal).row? id = s.row? id :=
  Table.find_replace_other h

lemma statuses_update_self :
    (s.update proposal).statuses proposal.id = proposal.status :: s.statuses proposal.id := by
  simp [update, record]

lemma statuses_update_other (h : proposal.id ≠ id) : (s.update proposal).statuses id = s.statuses id := by
  simp [update, record, Function.update_of_ne h.symm]

lemma insert_of_taken (h : (s.row? proposal.id).isSome = true) : s.insert proposal = s := if_pos h

lemma insert_of_free (h : s.row? proposal.id = none) :
    s.insert proposal = { s.record proposal with rows := s.rows ++ [proposal] } := by
  rw [insert, h]
  exact if_neg Bool.false_ne_true

lemma row?_insert_self (h : s.row? proposal.id = none) : (s.insert proposal).row? proposal.id = some proposal := by
  rw [insert_of_free h]
  exact Table.find_concat_self h

lemma row?_insert_other (h : proposal.id ≠ id) : (s.insert proposal).row? id = s.row? id := by
  rw [insert]
  split_ifs
  · rfl
  · exact Table.find_concat_other h

lemma statuses_insert_self (h : s.row? proposal.id = none) :
    (s.insert proposal).statuses proposal.id = proposal.status :: s.statuses proposal.id := by
  rw [insert_of_free h]
  exact Function.update_self _ _ _

lemma statuses_insert_other (h : proposal.id ≠ id) : (s.insert proposal).statuses id = s.statuses id := by
  rw [insert]
  split_ifs
  · rfl
  · exact Function.update_of_ne h.symm _ _

lemma processes_insert : (s.insert proposal).processes = s.processes := by
  rw [insert]
  split_ifs <;> rfl

lemma executed_insert : (s.insert proposal).executed = s.executed := by
  rw [insert]
  split_ifs <;> rfl

end Rows

lemma begin_cases (expiryMinutes : ℕ) (process : Fin n) (call : Call) :
    s.begin expiryMinutes process call = s ∨
      (∃ request, s.begin expiryMinutes process call = s.insert (s.newProposal expiryMinutes request)) ∨
      s.begin expiryMinutes process call = s.setProcess process (.judging call (s.read call)) := by
  unfold begin
  cases s.processes process with
  | idle =>
    cases call with
    | createProposal request =>
      dsimp only
      split_ifs
      · exact Or.inr (Or.inl ⟨request, rfl⟩)
      · exact Or.inl rfl
    | _ => exact Or.inr (Or.inr rfl)
  | _ => exact Or.inl rfl

end ServiceState

namespace Proposal

variable {proposal next : Proposal} {now : Timestamp} {call : Call}

lemma isDue_open (h : proposal.isDue now = true) : proposal.status = .pending ∨ proposal.status = .approved := by
  rw [isDue, decide_eq_true_eq] at h
  exact h.1

lemma expireIfNeeded_eq : proposal.expireIfNeeded now = proposal ∨
    (proposal.isDue now = true ∧ proposal.expireIfNeeded now = proposal.expire now) := by
  rw [expireIfNeeded]
  split_ifs with h
  · exact Or.inr ⟨h, rfl⟩
  · exact Or.inl rfl

lemma expireIfNeeded_id : (proposal.expireIfNeeded now).id = proposal.id := by
  rcases expireIfNeeded_eq with h | ⟨_, h⟩ <;> rw [h]
  rfl

lemma decided_cases (h : proposal.decided now call = .ok next) :
    next.id = proposal.id ∧
      ((∃ id decision, call = .approveProposal id decision ∧ proposal.status = .pending ∧
          next.status = .approved) ∨
        (∃ id decision, call = .rejectProposal id decision ∧
          (proposal.status = .pending ∨ proposal.status = .approved) ∧ next.status = .rejected) ∨
        ∃ id executionId, call = .markExecuted id executionId ∧
          next = proposal.markExecuted now executionId) := by
  cases call with
  | approveProposal id decision =>
    rw [decided, approve] at h
    split_ifs at h with hpending hreviewer
    cases h
    exact ⟨rfl, Or.inl ⟨id, decision, rfl, not_not.mp hpending, rfl⟩⟩
  | rejectProposal id decision =>
    rw [decided, reject] at h
    split_ifs at h with hopen
    cases h
    exact ⟨rfl, Or.inr (Or.inl ⟨id, decision, rfl, by tauto, rfl⟩)⟩
  | markExecuted id executionId =>
    cases h
    exact ⟨rfl, Or.inr (Or.inr ⟨id, executionId, rfl, rfl⟩)⟩
  | createProposal request => cases h
  | listProposals status => cases h
  | getProposal id => cases h

end Proposal

end AlgoTrader.Approvals
