import AlgoTrader.Approvals.ProposalService
import Mathlib.Data.List.Chain

/-! The life cycle of a proposal under the calls of one process: which changes of status there
are, and when ``mark_executed`` keeps to them. -/

namespace AlgoTrader.Approvals

open Models Utils.Time

def changeAllowed : ApprovalStatus → ApprovalStatus → Bool
  | .pending, .approved => true
  | .pending, .rejected => true
  | .pending, .expired => true
  | .approved, .rejected => true
  | .approved, .expired => true
  | .approved, .executed => true
  | _, _ => false

def absorbing (status : ApprovalStatus) : Bool :=
  status = .rejected ∨ status = .expired ∨ status = .executed

/-- The statuses a proposal has had, newest first. -/
structure LifeCycle (statuses : List ApprovalStatus) : Prop where
  changes : statuses.IsChain fun later earlier => later = earlier ∨ changeAllowed earlier later = true
  absorbed : ∀ newer status older, statuses = newer ++ status :: older → absorbing status = true →
    ∀ later ∈ newer, later = status
  approved : ∀ newer older, statuses = newer ++ .executed :: older → .approved ∈ older

lemma LifeCycle.nil : LifeCycle [] where
  changes := List.IsChain.nil
  absorbed newer status older h := by simp at h
  approved newer older h := by simp at h

lemma LifeCycle.pending : LifeCycle [.pending] where
  changes := List.IsChain.singleton _
  absorbed newer status older h := by
    cases newer with
    | nil => simp
    | cons first rest => simp at h
  approved newer older h := by
    cases newer with
    | nil => simp at h
    | cons first rest => simp at h

lemma LifeCycle.cons {status next : ApprovalStatus} {older : List ApprovalStatus}
    (h : LifeCycle (status :: older)) (hnext : next = status ∨ changeAllowed status next = true) :
    LifeCycle (next :: status :: older) where
  changes := List.isChain_cons_cons.mpr ⟨hnext, h.changes⟩
  absorbed newer held earlier heq hheld later hlater := by
    cases newer with
    | nil => cases hlater
    | cons first newer =>
      obtain ⟨rfl, hrest⟩ := List.cons.inj heq
      have hkept := h.absorbed newer held earlier hrest hheld
      rcases List.mem_cons.mp hlater with rfl | hlater
      · have hstatus : status = held := by
          cases newer with
          | nil => exact (List.cons.inj hrest).1
          | cons second newer =>
            obtain ⟨rfl, _⟩ := List.cons.inj hrest
            exact hkept _ (by simp)
        rcases hnext with rfl | hchange
        · exact hstatus
        · rw [hstatus] at hchange
          cases held <;> cases later <;> simp [absorbing, changeAllowed] at hheld hchange
      · exact hkept later hlater
  approved newer earlier heq := by
    cases newer with
    | nil =>
      obtain ⟨rfl, rfl⟩ := List.cons.inj heq
      rcases hnext with rfl | hchange
      · exact List.mem_cons_of_mem _ (h.approved [] older rfl)
      · cases status <;> simp [changeAllowed] at hchange
        exact List.mem_cons_self
    | cons first newer => exact h.approved newer earlier (List.cons.inj heq).2

lemma lifeCycle_cons_iff {status next : ApprovalStatus} {older : List ApprovalStatus}
    (h : LifeCycle (status :: older)) :
    LifeCycle (next :: status :: older) ↔ next = status ∨ changeAllowed status next = true :=
  ⟨fun hcons => (List.isChain_cons_cons.mp hcons.changes).1, h.cons⟩

namespace ServiceState

variable {n : ℕ} {s : ServiceState n} {proposal : Proposal} {call : Call}

def LifeCycles (s : ServiceState n) : Prop := ∀ id, LifeCycle (s.statuses id)

/-- ``mark_executed`` has found its proposal approved and not expired, or executed already. -/
def MarksApproved (s : ServiceState n) : Action n → Prop
  | .advance process =>
    match s.processes process with
    | .deciding (.markExecuted _ _) proposal =>
      proposal.status = .approved ∨ proposal.status = .executed
    | _ => True
  | _ => True

def Newest (s : ServiceState n) : Prop :=
  (s.rows.map Proposal.id).Nodup ∧ ∀ id, (s.statuses id).head? = (s.row? id).map Proposal.status

lemma Newest.update {stored : Proposal} (h : s.Newest) (hrow : s.row? proposal.id = some stored) :
    (s.update proposal).Newest := by
  refine ⟨?_, ?_⟩
  · rw [ServiceState.update, Table.map_key_replace]
    exact h.1
  · intro id
    by_cases hid : proposal.id = id
    · subst hid
      rw [statuses_update_self, row?_update_self hrow]
      rfl
    · rw [statuses_update_other hid, row?_update_other hid]
      exact h.2 id

lemma Newest.insert (h : s.Newest) : (s.insert proposal).Newest := by
  by_cases htaken : (s.row? proposal.id).isSome = true
  · rw [insert_of_taken htaken]
    exact h
  · have hnone : s.row? proposal.id = none := by simpa using htaken
    refine ⟨?_, ?_⟩
    · rw [insert_of_free hnone, List.map_append, List.map_singleton]
      exact List.Nodup.append h.1 (List.nodup_singleton _)
        (List.disjoint_singleton.mpr (Table.not_mem_keys hnone))
    · intro id
      by_cases hid : proposal.id = id
      · subst hid
        rw [statuses_insert_self hnone, row?_insert_self hnone]
        rfl
      · rw [statuses_insert_other hid, row?_insert_other hid]
        exact h.2 id

lemma lifeCycles_update_iff {stored : Proposal} (hnewest : s.Newest) (h : s.LifeCycles)
    (hrow : s.row? proposal.id = some stored) :
    (s.update proposal).LifeCycles ↔
      proposal.status = stored.status ∨ changeAllowed stored.status proposal.status = true := by
  have hhead : (s.statuses proposal.id).head? = some stored.status := by rw [hnewest.2, hrow]; rfl
  obtain ⟨older, holder⟩ := List.head?_eq_some_iff.mp hhead
  have hcycle := h proposal.id
  rw [holder] at hcycle
  rw [← lifeCycle_cons_iff hcycle, ← holder, ← statuses_update_self]
  constructor
  · intro hall
    exact hall proposal.id
  · intro hself id
    by_cases hid : proposal.id = id
    · exact hid ▸ hself
    · rw [statuses_update_other hid]
      exact h id

lemma lifeCycles_insert (hnewest : s.Newest) (h : s.LifeCycles) (hstatus : proposal.status = .pending) :
    (s.insert proposal).LifeCycles := by
  by_cases htaken : (s.row? proposal.id).isSome = true
  · rw [insert_of_taken htaken]
    exact h
  · have hnone : s.row? proposal.id = none := by simpa using htaken
    intro id
    by_cases hid : proposal.id = id
    · subst hid
      have hempty : s.statuses proposal.id = [] := by
        rw [← List.head?_eq_none_iff, hnewest.2, hnone]
        rfl
      rw [statuses_insert_self hnone, hempty, hstatus]
      exact LifeCycle.pending
    · rw [statuses_insert_other hid]
      exact h id

def Fresh (s : ServiceState n) : Process → Prop
  | .idle => True
  | .judging _ rows => (rows.map Proposal.id).Nodup ∧ ∀ row ∈ rows, s.row? row.id = some row
  | .deciding _ proposal => s.row? proposal.id = some proposal

def Sequential (s : ServiceState 1) : Prop := s.Newest ∧ ∀ process, s.Fresh (s.processes process)

lemma Newest.congr {s' : ServiceState n} (h : s.Newest) (hrows : s'.rows = s.rows)
    (hstatuses : s'.statuses = s.statuses) : s'.Newest := by
  refine ⟨by rw [hrows]; exact h.1, ?_⟩
  intro id
  rw [hstatuses, row?, hrows]
  exact h.2 id

lemma Fresh.congr {s' : ServiceState n} {state : Process} (h : s.Fresh state) (hrows : s'.rows = s.rows) :
    s'.Fresh state := by
  cases state with
  | idle => trivial
  | judging call rows =>
    refine ⟨h.1, ?_⟩
    intro row hrow
    rw [row?, hrows]
    exact h.2 row hrow
  | deciding call proposal =>
    rw [Fresh, row?, hrows]
    exact h

lemma row?_insert_of_some {stored : Proposal} {id : String} (h : s.row? id = some stored) :
    (s.insert proposal).row? id = some stored := by
  by_cases hid : proposal.id = id
  · subst hid
    rw [insert_of_taken (Option.isSome_of_mem h), h]
  · rw [row?_insert_other hid, h]

lemma Fresh.insert {state : Process} (h : s.Fresh state) : (s.insert proposal).Fresh state := by
  cases state with
  | idle => trivial
  | judging call rows => exact ⟨h.1, fun row hrow => row?_insert_of_some (h.2 row hrow)⟩
  | deciding call held => exact row?_insert_of_some h

lemma sequential_setProcess {s : ServiceState 1} (process : Fin 1) {state : Process} (h : s.Newest)
    (hfresh : s.Fresh state) : (s.setProcess process state).Sequential := by
  refine ⟨h, ?_⟩
  intro other
  obtain rfl : other = process := Subsingleton.elim other process
  rw [setProcess_self]
  exact hfresh.congr rfl

lemma fresh_of_mem (h : (s.rows.map Proposal.id).Nodup) {rows : List Proposal} (hnodup : (rows.map Proposal.id).Nodup)
    (hrows : ∀ row ∈ rows, row ∈ s.rows) : s.Fresh (.judging call rows) :=
  ⟨hnodup, fun row hrow => Table.find_self h (hrows row hrow)⟩

lemma fresh_read (h : (s.rows.map Proposal.id).Nodup) (call : Call) : s.Fresh (.judging call (s.read call)) := by
  have hfound (id : String) : s.Fresh (.judging call (s.row? id).toList) := by
    apply fresh_of_mem h
    · cases s.row? id <;> simp
    · intro row hrow
      exact Table.mem_of_find (Option.mem_toList.mp hrow)
  cases call with
  | createProposal request => exact ⟨List.nodup_nil, by simp [read]⟩
  | listProposals status =>
    rw [read]
    apply fresh_of_mem h
    · have hperm := (List.mergeSort_perm (s.rows.filter fun row => status.all (row.status = ·))
        fun newer older => older.createdAt ≤ newer.createdAt).map Proposal.id
      rw [list]
      exact hperm.nodup_iff.mpr (h.sublist (List.filter_sublist.map _))
    · intro row hrow
      rw [list, List.mem_mergeSort] at hrow
      exact List.mem_of_mem_filter hrow
  | getProposal id => exact hfound id
  | approveProposal id decision => exact hfound id
  | rejectProposal id decision => exact hfound id
  | markExecuted id executionId => exact hfound id

lemma newest_expireIfNeeded (h : s.Newest) (hrow : s.row? proposal.id = some proposal) :
    (s.expireIfNeeded proposal).Newest := by
  rw [expireIfNeeded]
  have hexpired : s.row? (proposal.expire s.clock).id = some proposal := hrow
  split_ifs
  · exact h.update hexpired
  · exact h

lemma row?_expireIfNeeded (hrow : s.row? proposal.id = some proposal) :
    (s.expireIfNeeded proposal).row? proposal.id = some (proposal.expireIfNeeded s.clock) := by
  rw [expireIfNeeded, Proposal.expireIfNeeded]
  have hexpired : s.row? (proposal.expire s.clock).id = some proposal := hrow
  split_ifs
  · exact row?_update_self hexpired
  · exact hrow

lemma row?_expireIfNeeded_other {id : String} (h : proposal.id ≠ id) :
    (s.expireIfNeeded proposal).row? id = s.row? id := by
  rw [expireIfNeeded]
  have hexpired : (proposal.expire s.clock).id ≠ id := h
  split_ifs
  · exact row?_update_other hexpired
  · rfl

lemma fresh_judged {rest : List Proposal} (h : s.Fresh (.judging call (proposal :: rest))) :
    (s.expireIfNeeded proposal).Fresh (s.judged call proposal rest) := by
  obtain ⟨hnodup, hrows⟩ := h
  rw [List.map_cons, List.nodup_cons] at hnodup
  have hdecide (call : Call) :
      (s.expireIfNeeded proposal).Fresh (.deciding call (proposal.expireIfNeeded s.clock)) := by
    rw [Fresh, Proposal.expireIfNeeded_id]
    exact row?_expireIfNeeded (hrows proposal List.mem_cons_self)
  cases call with
  | createProposal request => trivial
  | listProposals status =>
    refine ⟨hnodup.2, ?_⟩
    intro row hrow
    have hne : proposal.id ≠ row.id := fun heq => hnodup.1 (heq ▸ List.mem_map_of_mem hrow)
    rw [row?_expireIfNeeded_other hne]
    exact hrows row (List.mem_cons_of_mem _ hrow)
  | getProposal id => trivial
  | approveProposal id decision => exact hdecide _
  | rejectProposal id decision => exact hdecide _
  | markExecuted id executionId => exact hdecide _

lemma noteExecuted_rows : (s.noteExecuted call).rows = s.rows := by cases call <;> rfl

lemma noteExecuted_statuses : (s.noteExecuted call).statuses = s.statuses := by cases call <;> rfl

lemma Newest.write (h : s.Newest) (hrow : s.row? proposal.id = some proposal) : (s.write call proposal).Newest := by
  rw [ServiceState.write]
  cases hdecided : proposal.decided s.clock call with
  | error message => exact h
  | ok next =>
    rw [← (Proposal.decided_cases hdecided).1] at hrow
    exact (h.update hrow).congr noteExecuted_rows noteExecuted_statuses

lemma sequential_step (expiryMinutes : ℕ) (s : ServiceState 1) (action : Action 1) (h : s.Sequential) :
    (step expiryMinutes s action).Sequential := by
  obtain ⟨hnewest, hfresh⟩ := h
  cases action with
  | begin process call =>
    rw [step]
    rcases s.begin_cases expiryMinutes process call with hsame | ⟨request, hinsert⟩ | hread
    · rw [hsame]
      exact ⟨hnewest, hfresh⟩
    · rw [hinsert]
      refine ⟨hnewest.insert, ?_⟩
      intro other
      rw [processes_insert]
      exact (hfresh other).insert
    · rw [hread]
      exact sequential_setProcess process hnewest (fresh_read hnewest.1 call)
  | advance process =>
    have hheld := hfresh process
    rw [step, advance]
    cases hprocess : s.processes process with
    | idle => exact ⟨hnewest, hfresh⟩
    | judging call rows =>
      rw [hprocess] at hheld
      cases rows with
      | nil => exact sequential_setProcess process hnewest trivial
      | cons proposal rest =>
        have hrow := hheld.2 proposal List.mem_cons_self
        exact sequential_setProcess process (newest_expireIfNeeded hnewest hrow) (fresh_judged hheld)
    | deciding call proposal =>
      rw [hprocess] at hheld
      exact sequential_setProcess process (hnewest.write hheld) trivial
  | stop process => exact sequential_setProcess process hnewest trivial
  | tick micros => exact ⟨hnewest.congr rfl rfl, fun process => (hfresh process).congr rfl⟩

lemma lifeCycles_expireIfNeeded (hnewest : s.Newest) (h : s.LifeCycles) (hrow : s.row? proposal.id = some proposal) :
    (s.expireIfNeeded proposal).LifeCycles := by
  rw [expireIfNeeded]
  have hexpired : s.row? (proposal.expire s.clock).id = some proposal := hrow
  split_ifs with hdue
  · apply (lifeCycles_update_iff hnewest h hexpired).mpr
    right
    rcases Proposal.isDue_open hdue with hstatus | hstatus <;> rw [hstatus] <;> rfl
  · exact h

lemma lifeCycles_write_iff (call : Call) (hnewest : s.Newest) (h : s.LifeCycles)
    (hrow : s.row? proposal.id = some proposal) :
    (s.write call proposal).LifeCycles ↔
      match call with
      | .markExecuted _ _ => proposal.status = .approved ∨ proposal.status = .executed
      | _ => True := by
  rw [write]
  cases hdecided : proposal.decided s.clock call with
  | error message =>
    cases call <;> simp [Proposal.decided] at hdecided ⊢ <;> exact h
  | ok next =>
    obtain ⟨hid, hcases⟩ := Proposal.decided_cases hdecided
    rw [← hid] at hrow
    have hiff := lifeCycles_update_iff hnewest h hrow
    have hnote : ((s.update next).noteExecuted call).LifeCycles ↔ (s.update next).LifeCycles := by
      rw [LifeCycles, LifeCycles, noteExecuted_statuses]
    rw [hnote, hiff]
    rcases hcases with ⟨id, decision, rfl, hstatus, hnext⟩ | ⟨id, decision, rfl, hstatus, hnext⟩ |
      ⟨id, executionId, rfl, rfl⟩
    · rw [hstatus, hnext]
      simp [changeAllowed]
    · rw [hnext]
      rcases hstatus with hstatus | hstatus <;> rw [hstatus] <;> simp [changeAllowed]
    · cases hstatus : proposal.status <;> simp [Proposal.markExecuted, changeAllowed]

lemma lifeCycles_step_iff (expiryMinutes : ℕ) (s : ServiceState 1) (action : Action 1) (hs : s.Sequential)
    (h : s.LifeCycles) : (step expiryMinutes s action).LifeCycles ↔ s.MarksApproved action := by
  obtain ⟨hnewest, hfresh⟩ := hs
  cases action with
  | begin process call =>
    refine iff_of_true ?_ trivial
    rw [step]
    rcases s.begin_cases expiryMinutes process call with hsame | ⟨request, hinsert⟩ | hread
    · rw [hsame]
      exact h
    · rw [hinsert]
      exact lifeCycles_insert hnewest h rfl
    · rw [hread]
      exact h
  | advance process =>
    have hheld := hfresh process
    rw [step, advance, MarksApproved]
    cases hprocess : s.processes process with
    | idle => exact iff_of_true h trivial
    | judging call rows =>
      rw [hprocess] at hheld
      refine iff_of_true ?_ trivial
      cases rows with
      | nil => exact h
      | cons proposal rest => exact lifeCycles_expireIfNeeded hnewest h (hheld.2 proposal List.mem_cons_self)
    | deciding call proposal =>
      rw [hprocess] at hheld
      have hiff := lifeCycles_write_iff call hnewest h hheld
      cases call <;> exact hiff
  | stop process => exact iff_of_true h trivial
  | tick micros => exact iff_of_true h trivial

theorem proposal_life_cycle (expiryMinutes : ℕ) (start : Timestamp) (actions : List (Action 1)) :
    Runs.Always (step expiryMinutes) LifeCycles { clock := start } actions ↔
      Runs.Allowed (step expiryMinutes) MarksApproved { clock := start } actions := by
  apply Runs.always_iff_allowed (sequential_step expiryMinutes) (lifeCycles_step_iff expiryMinutes)
  · refine ⟨⟨List.nodup_nil, ?_⟩, ?_⟩
    · intro id
      rfl
    · intro process
      trivial
  · intro id
    exact LifeCycle.nil

private def nvdaOrder : TradeOrder where
  symbol := "NVDA"
  amountUsd := 1000
  proposedPrice := 120

-- The proposal is approved, and expires while its order is with the broker.
private def expiredInFlight (process : Fin 1) : List (Action 1) :=
  [.begin process (.createProposal { id := "prop_1", order := nvdaOrder }),
    .begin process (.approveProposal "prop_1" {}), .advance process, .advance process, .tick 14400000000,
    .begin process (.markExecuted "prop_1" "exec_1"), .advance process, .advance process]

theorem expired_proposal_executed :
    ¬ ∀ actions : List (Action 1), Runs.Always (step 240) LifeCycles { clock := 0 } actions := by
  intro h
  have hlast := (h (expiredInFlight 0)).last "prop_1"
  have hstatuses : (Runs.run (step 240) ({ clock := 0 } : ServiceState 1) (expiredInFlight 0)).statuses "prop_1" =
      [.executed, .expired, .approved, .pending] := by decide +kernel
  rw [hstatuses] at hlast
  have habsorbed := hlast.absorbed [.executed] .expired [.approved, .pending] rfl rfl .executed
  simp at habsorbed

end ServiceState

end AlgoTrader.Approvals
