import AlgoTrader.Approvals.ProposalService

/-! The link from an executed proposal to its execution, when several processes call the proposal
service at once. -/

namespace AlgoTrader.Approvals

open Models Utils.Time

def Call.executes : Call → Option String
  | .markExecuted id _ => some id
  | _ => none

namespace ServiceState

variable {n : ℕ} {s s' : ServiceState n} {proposal next stored : Proposal} {call : Call} {id : String}

/-- Every execution that was stored for a proposal is still the one its row names. -/
def Linked (s : ServiceState n) : Prop :=
  ∀ link ∈ s.executed, ∃ row, s.row? link.1 = some row ∧ row.status = .executed ∧
    row.executionId = some link.2

def isExecuted (s : ServiceState n) (id : String) : Bool := (s.row? id).any (·.status = .executed)

/-- The copy was read before the execution of its proposal was stored. -/
def Stale (s : ServiceState n) (copy : Proposal) : Prop :=
  s.isExecuted copy.id = true ∧ copy.status ≠ .executed

/-- No stale copy is written back, and an executed proposal is not executed under another name. -/
def KeepsLink (s : ServiceState n) : Action n → Prop
  | .advance process =>
    match s.processes process with
    | .judging _ (copy :: _) => copy.isDue s.clock = true → ¬ s.Stale copy
    | .deciding (.markExecuted _ executionId) copy =>
      s.isExecuted copy.id = true → (s.row? copy.id).bind Proposal.executionId = some executionId
    | .deciding call copy => (copy.decided s.clock call).isOk = true → ¬ s.Stale copy
    | _ => True
  | _ => True

def Read (s : ServiceState n) : Process → Prop
  | .idle => True
  | .judging call copies =>
    ∀ copy ∈ copies, (s.row? copy.id).isSome = true ∧ ∀ id ∈ call.executes, copy.id = id
  | .deciding call copy => (s.row? copy.id).isSome = true ∧ ∀ id ∈ call.executes, copy.id = id

def Stored (s : ServiceState n) : Prop :=
  ∀ id row, s.row? id = some row → row.status = .executed →
    ∃ executionId, row.executionId = some executionId ∧ (id, executionId) ∈ s.executed

def Tracked (s : ServiceState n) : Prop := s.Stored ∧ ∀ process, s.Read (s.processes process)

lemma Read.mono {state : Process} (h : s.Read state)
    (hrows : ∀ id, (s.row? id).isSome = true → (s'.row? id).isSome = true) : s'.Read state := by
  cases state with
  | idle => trivial
  | judging call copies =>
    intro copy hcopy
    exact ⟨hrows _ (h copy hcopy).1, (h copy hcopy).2⟩
  | deciding call copy => exact ⟨hrows _ h.1, h.2⟩

lemma isSome_update (h : (s.row? id).isSome = true) : ((s.update next).row? id).isSome = true := by
  by_cases hid : next.id = id
  · subst hid
    obtain ⟨row, hrow⟩ := Option.isSome_iff_exists.mp h
    rw [row?_update_self hrow]
    rfl
  · rw [row?_update_other hid]
    exact h

lemma isSome_insert (h : (s.row? id).isSome = true) : ((s.insert next).row? id).isSome = true := by
  by_cases hid : next.id = id
  · subst hid
    rw [insert_of_taken h]
    exact h
  · rw [row?_insert_other hid]
    exact h

lemma row?_noteExecuted : (s.noteExecuted call).row? id = s.row? id := by cases call <;> rfl

lemma isSome_write (h : (s.row? id).isSome = true) : ((s.write call proposal).row? id).isSome = true := by
  rw [write]
  cases proposal.decided s.clock call with
  | error message => exact h
  | ok next =>
    rw [row?_noteExecuted]
    exact isSome_update h

lemma isSome_expireIfNeeded (h : (s.row? id).isSome = true) :
    ((s.expireIfNeeded proposal).row? id).isSome = true := by
  rw [expireIfNeeded]
  split_ifs
  · exact isSome_update h
  · exact h

lemma read_read (s : ServiceState n) (call : Call) : s.Read (.judging call (s.read call)) := by
  have hfound (id : String) (about : Call) (habout : ∀ other ∈ about.executes, id = other) :
      s.Read (.judging about (s.row? id).toList) := by
    intro copy hcopy
    have hrow := Option.mem_toList.mp hcopy
    have hid : copy.id = id := Table.key_of_find hrow
    rw [hid]
    exact ⟨Option.isSome_of_mem hrow, habout⟩
  cases call with
  | createProposal request =>
    intro copy hcopy
    cases hcopy
  | listProposals status =>
    intro copy hcopy
    rw [read, list, List.mem_mergeSort] at hcopy
    refine ⟨?_, by simp [Call.executes]⟩
    rw [row?, Table.find, List.find?_isSome]
    exact ⟨copy, List.mem_of_mem_filter hcopy, by simp⟩
  | getProposal id => exact hfound id _ (by simp [Call.executes])
  | approveProposal id decision => exact hfound id _ (by simp [Call.executes])
  | rejectProposal id decision => exact hfound id _ (by simp [Call.executes])
  | markExecuted id executionId => exact hfound id _ (by simp [Call.executes])

lemma Stored.update (h : s.Stored) (hnext : next.status ≠ .executed) : (s.update next).Stored := by
  intro id row hrow hstatus
  by_cases hid : next.id = id
  · subst hid
    cases hold : s.row? next.id with
    | none =>
      have hnone : (s.update next).row? next.id = none := by
        rw [row?, ServiceState.update, Table.find_replace_self, ← row?, hold]
        rfl
      rw [hnone] at hrow
      cases hrow
    | some old =>
      rw [row?_update_self hold] at hrow
      cases hrow
      exact absurd hstatus hnext
  · rw [row?_update_other hid] at hrow
    exact h id row hrow hstatus

lemma Stored.insert (h : s.Stored) (hnext : next.status ≠ .executed) : (s.insert next).Stored := by
  by_cases htaken : (s.row? next.id).isSome = true
  · rw [insert_of_taken htaken]
    exact h
  · have hnone : s.row? next.id = none := by simpa using htaken
    intro id row hrow hstatus
    rw [executed_insert]
    by_cases hid : next.id = id
    · subst hid
      rw [row?_insert_self hnone] at hrow
      cases hrow
      exact absurd hstatus hnext
    · rw [row?_insert_other hid] at hrow
      exact h id row hrow hstatus

lemma Stored.expireIfNeeded (h : s.Stored) : (s.expireIfNeeded proposal).Stored := by
  rw [ServiceState.expireIfNeeded]
  split_ifs
  · apply h.update
    simp [Proposal.expire]
  · exact h

lemma Stored.markExecuted {executionId : String} (h : s.Stored) (hrow : s.row? next.id = some stored)
    (hnext : next.executionId = some executionId) :
    ((s.update next).noteExecuted (.markExecuted next.id executionId)).Stored := by
  intro id row hfound hstatus
  rw [row?_noteExecuted] at hfound
  by_cases hid : next.id = id
  · subst hid
    rw [row?_update_self hrow] at hfound
    cases hfound
    exact ⟨executionId, hnext, List.mem_cons_self⟩
  · rw [row?_update_other hid] at hfound
    obtain ⟨linked, hlinked, hmem⟩ := h id row hfound hstatus
    exact ⟨linked, hlinked, List.mem_cons_of_mem _ hmem⟩

lemma Stored.write (h : s.Stored) (hread : s.Read (.deciding call proposal)) : (s.write call proposal).Stored := by
  rw [ServiceState.write]
  cases hdecided : proposal.decided s.clock call with
  | error message => exact h
  | ok next =>
    obtain ⟨hid, hcases⟩ := Proposal.decided_cases hdecided
    rcases hcases with ⟨id, decision, rfl, _, hnext⟩ | ⟨id, decision, rfl, _, hnext⟩ |
      ⟨id, executionId, rfl, rfl⟩
    · exact h.update (by simp [hnext])
    · exact h.update (by simp [hnext])
    · obtain ⟨row, hrow⟩ := Option.isSome_iff_exists.mp hread.1
      have habout : proposal.id = id := hread.2 id rfl
      subst habout
      have hnext : s.row? (proposal.markExecuted s.clock executionId).id = some row := hrow
      exact h.markExecuted hnext rfl

lemma read_judged {rest : List Proposal} (h : s.Read (.judging call (proposal :: rest))) :
    s.Read (s.judged call proposal rest) := by
  have hdecide (call : Call) (h : s.Read (.judging call (proposal :: rest))) :
      s.Read (.deciding call (proposal.expireIfNeeded s.clock)) := by
    rw [Read, Proposal.expireIfNeeded_id]
    exact h proposal List.mem_cons_self
  cases call with
  | createProposal request => trivial
  | listProposals status => exact fun copy hcopy => h copy (List.mem_cons_of_mem _ hcopy)
  | getProposal id => trivial
  | approveProposal id decision => exact hdecide _ h
  | rejectProposal id decision => exact hdecide _ h
  | markExecuted id executionId => exact hdecide _ h

lemma tracked_setProcess {process : Fin n} {state : Process} (hstored : s'.Stored)
    (hheld : ∀ other, s.Read (s.processes other)) (hsame : s'.processes = s.processes) (hstate : s.Read state)
    (hrows : ∀ id, (s.row? id).isSome = true → (s'.row? id).isSome = true) :
    (s'.setProcess process state).Tracked := by
  refine ⟨hstored, ?_⟩
  intro other
  by_cases hother : other = process
  · subst hother
    rw [setProcess_self]
    exact hstate.mono hrows
  · rw [s'.setProcess_other hother, hsame]
    exact (hheld other).mono hrows

lemma processes_expireIfNeeded : (s.expireIfNeeded proposal).processes = s.processes := by
  rw [expireIfNeeded]
  split_ifs <;> rfl

lemma processes_write : (s.write call proposal).processes = s.processes := by
  rw [write]
  cases proposal.decided s.clock call with
  | error message => rfl
  | ok next => cases call <;> rfl

lemma tracked_step (expiryMinutes : ℕ) (s : ServiceState n) (action : Action n) (h : s.Tracked) :
    (step expiryMinutes s action).Tracked := by
  obtain ⟨hstored, hheld⟩ := h
  cases action with
  | begin process call =>
    rw [step]
    rcases s.begin_cases expiryMinutes process call with hsame | ⟨request, hinsert⟩ | hread
    · rw [hsame]
      exact ⟨hstored, hheld⟩
    · rw [hinsert]
      refine ⟨hstored.insert (by simp [newProposal]), ?_⟩
      intro other
      rw [processes_insert]
      exact (hheld other).mono fun _ => isSome_insert
    · rw [hread]
      exact tracked_setProcess hstored hheld rfl (read_read s call) fun _ => id
  | advance process =>
    have hcurrent := hheld process
    rw [step, advance]
    cases hprocess : s.processes process with
    | idle => exact ⟨hstored, hheld⟩
    | judging call copies =>
      rw [hprocess] at hcurrent
      cases copies with
      | nil => exact tracked_setProcess hstored hheld rfl trivial fun _ => id
      | cons copy rest =>
        exact tracked_setProcess hstored.expireIfNeeded hheld processes_expireIfNeeded (read_judged hcurrent)
          fun _ => isSome_expireIfNeeded
    | deciding call copy =>
      rw [hprocess] at hcurrent
      exact tracked_setProcess (hstored.write hcurrent) hheld processes_write trivial fun _ => isSome_write
  | stop process => exact tracked_setProcess hstored hheld rfl trivial fun _ => id
  | tick micros => exact ⟨hstored, fun process => (hheld process).mono fun _ => id⟩

lemma linked_update_iff (hstored : s.Stored) (h : s.Linked) (hrow : s.row? next.id = some stored) :
    (s.update next).Linked ↔
      (stored.status = .executed → next.status = .executed ∧ next.executionId = stored.executionId) := by
  constructor
  · intro hlinked hstatus
    obtain ⟨executionId, hexecution, hmem⟩ := hstored next.id stored hrow hstatus
    obtain ⟨row, hfound, hrest⟩ := hlinked (next.id, executionId) hmem
    rw [row?_update_self hrow] at hfound
    cases hfound
    exact ⟨hrest.1, hrest.2.trans hexecution.symm⟩
  · intro hkept link hlink
    obtain ⟨row, hfound, hstatus, hexecution⟩ := h link hlink
    by_cases hid : next.id = link.1
    · rw [← hid, hrow] at hfound
      cases hfound
      rw [← hid, row?_update_self hrow]
      exact ⟨next, rfl, (hkept hstatus).1, (hkept hstatus).2.trans hexecution⟩
    · rw [row?_update_other hid]
      exact ⟨row, hfound, hstatus, hexecution⟩

lemma linked_insert (h : s.Linked) : (s.insert next).Linked := by
  by_cases htaken : (s.row? next.id).isSome = true
  · rw [insert_of_taken htaken]
    exact h
  · intro link hlink
    rw [executed_insert] at hlink
    obtain ⟨row, hfound, hrest⟩ := h link hlink
    have hne : next.id ≠ link.1 := by
      intro heq
      rw [heq, hfound] at htaken
      exact htaken rfl
    refine ⟨row, ?_, hrest⟩
    rw [row?_insert_other hne, hfound]

lemma isExecuted_eq (hrow : s.row? id = some stored) : s.isExecuted id = true ↔ stored.status = .executed := by
  rw [isExecuted, hrow]
  simp

lemma linked_expireIfNeeded_iff (hstored : s.Stored) (h : s.Linked) (hrow : (s.row? proposal.id).isSome = true) :
    (s.expireIfNeeded proposal).Linked ↔ (proposal.isDue s.clock = true → ¬ s.Stale proposal) := by
  obtain ⟨stored, hrow⟩ := Option.isSome_iff_exists.mp hrow
  have hexpired : s.row? (proposal.expire s.clock).id = some stored := hrow
  rw [expireIfNeeded]
  split_ifs with hdue
  · have hopen : proposal.status ≠ .executed := by
      rcases Proposal.isDue_open hdue with hstatus | hstatus <;> simp [hstatus]
    rw [linked_update_iff hstored h hexpired, Stale, isExecuted_eq hrow]
    simp [Proposal.expire, hdue, hopen]
  · simp [hdue, h]

lemma linked_noteExecuted_iff {executionId : String} (hrow : s.row? next.id = some stored)
    (hstatus : next.status = .executed) (hnext : next.executionId = some executionId) :
    ((s.update next).noteExecuted (.markExecuted next.id executionId)).Linked ↔ (s.update next).Linked := by
  constructor
  · intro h link hlink
    exact h link (List.mem_cons_of_mem _ hlink)
  · intro h link hlink
    rcases List.mem_cons.mp hlink with rfl | hlink
    · exact ⟨next, row?_update_self hrow, hstatus, hnext⟩
    · exact h link hlink

lemma linked_write_iff (hstored : s.Stored) (h : s.Linked) (hread : s.Read (.deciding call proposal)) :
    (s.write call proposal).Linked ↔
      match call with
      | .markExecuted _ executionId =>
        s.isExecuted proposal.id = true → (s.row? proposal.id).bind Proposal.executionId = some executionId
      | call => (proposal.decided s.clock call).isOk = true → ¬ s.Stale proposal := by
  obtain ⟨stored, hrow⟩ := Option.isSome_iff_exists.mp hread.1
  rw [write]
  cases hdecided : proposal.decided s.clock call with
  | error message =>
    cases call <;> first | (cases hdecided; done) | exact iff_of_true h (by simp [hdecided, Except.isOk, Except.toBool])
  | ok next =>
    obtain ⟨hid, hcases⟩ := Proposal.decided_cases hdecided
    have hnext := hrow
    rw [← hid] at hnext
    have hiff := linked_update_iff hstored h hnext
    rcases hcases with ⟨id, decision, rfl, hstatus, hwritten⟩ | ⟨id, decision, rfl, hstatus, hwritten⟩ |
      ⟨id, executionId, rfl, rfl⟩
    · change (s.update next).Linked ↔ _
      rw [hiff, Stale, isExecuted_eq hrow]
      simp [hdecided, hwritten, hstatus, Except.isOk, Except.toBool]
    · have hopen : proposal.status ≠ .executed := by rcases hstatus with hstatus | hstatus <;> simp [hstatus]
      change (s.update next).Linked ↔ _
      rw [hiff, Stale, isExecuted_eq hrow]
      simp [hdecided, hwritten, hopen, Except.isOk, Except.toBool]
    · obtain rfl : proposal.id = id := hread.2 id rfl
      have hnote : ((s.update (proposal.markExecuted s.clock executionId)).noteExecuted
          (.markExecuted proposal.id executionId)).Linked ↔ _ := linked_noteExecuted_iff hnext rfl rfl
      rw [isExecuted_eq hrow, hrow]
      change _ ↔ (stored.status = .executed → stored.executionId = some executionId)
      refine hnote.trans (hiff.trans ?_)
      constructor
      · intro hkept hstatus
        exact (hkept hstatus).2.symm
      · intro hkept hstatus
        exact ⟨rfl, (hkept hstatus).symm⟩

lemma linked_step_iff (expiryMinutes : ℕ) (s : ServiceState n) (action : Action n) (hs : s.Tracked)
    (h : s.Linked) : (step expiryMinutes s action).Linked ↔ s.KeepsLink action := by
  obtain ⟨hstored, hheld⟩ := hs
  cases action with
  | begin process call =>
    refine iff_of_true ?_ trivial
    rw [step]
    rcases s.begin_cases expiryMinutes process call with hsame | ⟨request, hinsert⟩ | hread
    · rw [hsame]
      exact h
    · rw [hinsert]
      exact linked_insert h
    · rw [hread]
      exact h
  | advance process =>
    have hcurrent := hheld process
    rw [step, advance, KeepsLink]
    cases hprocess : s.processes process with
    | idle => exact iff_of_true h trivial
    | judging call copies =>
      rw [hprocess] at hcurrent
      cases copies with
      | nil => exact iff_of_true h trivial
      | cons copy rest => exact linked_expireIfNeeded_iff hstored h (hcurrent copy List.mem_cons_self).1
    | deciding call copy =>
      rw [hprocess] at hcurrent
      have hiff := linked_write_iff hstored h hcurrent
      cases call <;> exact hiff
  | stop process => exact iff_of_true h trivial
  | tick micros => exact iff_of_true h trivial

theorem execution_link_kept (expiryMinutes : ℕ) (start : Timestamp) (actions : List (Action n)) :
    Runs.Always (step expiryMinutes) Linked { clock := start } actions ↔
      Runs.Allowed (step expiryMinutes) KeepsLink { clock := start } actions := by
  apply Runs.always_iff_allowed (tracked_step expiryMinutes) (linked_step_iff expiryMinutes)
  · refine ⟨?_, ?_⟩
    · intro id row hrow
      cases hrow
    · intro process
      trivial
  · intro link hlink
    cases hlink

-- The API lists an approved proposal, which expires and is marked executed before the API writes.
private def listedBeforeExecution (executor lister : Fin 2) : List (Action 2) :=
  [.begin executor (.createProposal
      { id := "prop_1", order := { symbol := "NVDA", amountUsd := 1000, proposedPrice := 120 } }),
    .begin executor (.approveProposal "prop_1" {}), .advance executor, .advance executor,
    .begin executor (.markExecuted "prop_1" "exec_1"), .advance executor, .begin lister (.listProposals none),
    .tick 14400000000, .advance executor, .advance lister]

theorem execution_link_overwritten :
    ¬ ∀ actions : List (Action 2), Runs.Always (step 240) Linked { clock := 0 } actions := by
  intro h
  have hlast := (h (listedBeforeExecution 0 1)).last ("prop_1", "exec_1") (by decide +kernel)
  obtain ⟨row, hrow, hstatus, _⟩ := hlast
  have hexpired : ((Runs.run (step 240) ({ clock := 0 } : ServiceState 2)
      (listedBeforeExecution 0 1)).row? "prop_1").map
      Proposal.status = some .expired := by decide +kernel
  rw [hrow, Option.map_some, hstatus] at hexpired
  cases hexpired

end ServiceState

end AlgoTrader.Approvals
