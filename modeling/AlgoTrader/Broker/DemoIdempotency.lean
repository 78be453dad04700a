import AlgoTrader.Broker.EtoroDemo
import AlgoTrader.Lib.OneAtATime
import AlgoTrader.Lib.Sha256

/-! At most one order for each client order id, whatever the interleaving of the calls and wherever they
crash. A row is never taken back: its owner alone posts, and what is returned is an answer to that post
or a lookup. -/

namespace AlgoTrader.Broker.EtoroDemo

variable {ρ : Type} {digest : Request → String} {s s' : State ρ}

structure Grows (s s' : State ρ) : Prop where
  rows : ∀ clientOrderId row, s.rows clientOrderId = some row →
    ∃ row', s'.rows clientOrderId = some row' ∧ row'.owner = row.owner ∧ row'.request = row.request ∧
      row'.requestHash = row.requestHash
  posts : s.posts ⊆ s'.posts
  answers : s.answers ⊆ s'.answers
  lookups : s.lookups ⊆ s'.lookups

lemma Grows.refl (s : State ρ) : Grows s s where
  rows _ row hrow := ⟨row, hrow, rfl, rfl, rfl⟩
  posts := List.Subset.refl _
  answers := List.Subset.refl _
  lookups := List.Subset.refl _

lemma Grows.trans {s'' : State ρ} (h : Grows s s') (h' : Grows s' s'') : Grows s s'' where
  rows clientOrderId row hrow := by
    obtain ⟨row', hrow', howner, hrequest, hhash⟩ := h.rows clientOrderId row hrow
    obtain ⟨row'', hrow'', howner', hrequest', hhash'⟩ := h'.rows clientOrderId row' hrow'
    exact ⟨row'', hrow'', howner'.trans howner, hrequest'.trans hrequest, hhash'.trans hhash⟩
  posts := List.Subset.trans h.posts h'.posts
  answers := List.Subset.trans h.answers h'.answers
  lookups := List.Subset.trans h.lookups h'.lookups

def Known (s : State ρ) (clientOrderId : String) (r : ρ) : Prop :=
  (∃ p ∈ s.posts, p.clientOrderId = clientOrderId ∧ (p.call, r) ∈ s.answers) ∨ (clientOrderId, r) ∈ s.lookups

def Owned (s : State ρ) (call : ℕ) (clientOrderId : String) (request : Request) : Prop :=
  ∃ row, s.rows clientOrderId = some row ∧ row.owner = call ∧ row.request = request

def Hashed (digest : Request → String) (s : State ρ) (clientOrderId : String) (request : Request) : Prop :=
  ∃ row, s.rows clientOrderId = some row ∧ row.requestHash = digest request

def StageOk (digest : Request → String) (s : State ρ) (call : ℕ) (clientOrderId : String) (request : Request) :
    Stage ρ → Prop
  | .reserved => Owned s call clientOrderId request
  | .posted => ⟨call, clientOrderId, request⟩ ∈ s.posts
  | .answered r => ⟨call, clientOrderId, request⟩ ∈ s.posts ∧ (call, r) ∈ s.answers
  | .duplicate => Hashed digest s clientOrderId request
  | .recovered r => Hashed digest s clientOrderId request ∧ (clientOrderId, r) ∈ s.lookups
  | .returned r => Hashed digest s clientOrderId request ∧ Known s clientOrderId r
  | .called | .refused | .raised | .crashed => True

def HasPosted (s : State ρ) (p : Post) : Prop :=
  ∃ c, s.calls p.call = some c ∧ c.clientOrderId = p.clientOrderId ∧ c.stage.pending = false

structure Inv (digest : Request → String) (s : State ρ) : Prop where
  row_hash : ∀ clientOrderId row, s.rows clientOrderId = some row → row.requestHash = digest row.request
  row_response : ∀ clientOrderId row r, s.rows clientOrderId = some row → row.response = some r →
    Known s clientOrderId r
  stages : ∀ call c, s.calls call = some c → StageOk digest s call c.clientOrderId c.request c.stage
  posts_owned : ∀ p ∈ s.posts, Owned s p.call p.clientOrderId p.request
  posts_made : ∀ p ∈ s.posts, HasPosted s p
  posts_once : (s.posts.map Post.call).Nodup

lemma Known.mono {clientOrderId : String} {r : ρ} (h : Known s clientOrderId r) (hgrows : Grows s s') :
    Known s' clientOrderId r := by
  rcases h with ⟨p, hp, hid, hanswer⟩ | hlookup
  · exact .inl ⟨p, hgrows.posts hp, hid, hgrows.answers hanswer⟩
  · exact .inr (hgrows.lookups hlookup)

lemma Owned.mono {call : ℕ} {clientOrderId : String} {request : Request} (h : Owned s call clientOrderId request)
    (hgrows : Grows s s') : Owned s' call clientOrderId request := by
  obtain ⟨row, hrow, howner, hrequest⟩ := h
  obtain ⟨row', hrow', howner', hrequest', _⟩ := hgrows.rows _ row hrow
  exact ⟨row', hrow', howner'.trans howner, hrequest'.trans hrequest⟩

lemma Hashed.mono {clientOrderId : String} {request : Request} (h : Hashed digest s clientOrderId request)
    (hgrows : Grows s s') : Hashed digest s' clientOrderId request := by
  obtain ⟨row, hrow, hhash⟩ := h
  obtain ⟨row', hrow', _, _, hhash'⟩ := hgrows.rows _ row hrow
  exact ⟨row', hrow', hhash'.trans hhash⟩

lemma StageOk.mono {call : ℕ} {clientOrderId : String} {request : Request} {stage : Stage ρ}
    (h : StageOk digest s call clientOrderId request stage) (hgrows : Grows s s') :
    StageOk digest s' call clientOrderId request stage := by
  cases stage with
  | reserved => exact Owned.mono h hgrows
  | posted => exact hgrows.posts h
  | answered r => exact ⟨hgrows.posts h.1, hgrows.answers h.2⟩
  | duplicate => exact Hashed.mono h hgrows
  | recovered r => exact ⟨Hashed.mono h.1 hgrows, hgrows.lookups h.2⟩
  | returned r => exact ⟨Hashed.mono h.1 hgrows, Known.mono h.2 hgrows⟩
  | called => trivial
  | refused => trivial
  | raised => trivial
  | crashed => trivial

lemma Owned.hashed {call : ℕ} {clientOrderId : String} {request : Request} (hinv : Inv digest s)
    (h : Owned s call clientOrderId request) : Hashed digest s clientOrderId request := by
  obtain ⟨row, hrow, _, rfl⟩ := h
  exact ⟨row, hrow, hinv.row_hash _ row hrow⟩

def Accepted : Stage ρ → Prop
  | .reserved | .posted | .answered _ | .duplicate | .recovered _ | .returned _ => True
  | .called | .refused | .raised | .crashed => False

lemma Inv.accepted_hashed (hinv : Inv digest s) {call : ℕ} {c : Call ρ} (hcall : s.calls call = some c)
    (haccepted : Accepted c.stage) : Hashed digest s c.clientOrderId c.request := by
  have hok := hinv.stages call c hcall
  cases hstage : c.stage with
  | reserved =>
    rw [hstage] at hok
    exact Owned.hashed hinv hok
  | posted =>
    rw [hstage] at hok
    exact (hinv.posts_owned _ hok).hashed hinv
  | answered r =>
    rw [hstage] at hok
    exact (hinv.posts_owned _ hok.1).hashed hinv
  | duplicate =>
    rw [hstage] at hok
    exact hok
  | recovered r =>
    rw [hstage] at hok
    exact hok.1
  | returned r =>
    rw [hstage] at hok
    exact hok.1
  | called => exact absurd haccepted (by rw [hstage]; exact id)
  | refused => exact absurd haccepted (by rw [hstage]; exact id)
  | raised => exact absurd haccepted (by rw [hstage]; exact id)
  | crashed => exact absurd haccepted (by rw [hstage]; exact id)

section Steps

lemma grows_setRow {clientOrderId : String} {new : Row ρ}
    (hrow : ∀ row, s.rows clientOrderId = some row →
      new.owner = row.owner ∧ new.request = row.request ∧ new.requestHash = row.requestHash) :
    Grows s (s.setRow clientOrderId new) where
  rows id row h := by
    by_cases hid : id = clientOrderId
    · subst hid
      exact ⟨new, Function.update_self _ _ _, hrow row h⟩
    · exact ⟨row, (Function.update_of_ne hid _ _).trans h, rfl, rfl, rfl⟩
  posts := List.Subset.refl _
  answers := List.Subset.refl _
  lookups := List.Subset.refl _

/-- One call moves to a stage that is in order, and the record grows: what held of the others holds on. -/
lemma Inv.move (hinv : Inv digest s) (hgrows : Grows s s') (call : ℕ) (c : Call ρ)
    (hcalls : s'.calls = Function.update s.calls call (some c))
    (hok : StageOk digest s' call c.clientOrderId c.request c.stage)
    (hhash : ∀ id row, s'.rows id = some row → row.requestHash = digest row.request)
    (hresponse : ∀ id row r, s'.rows id = some row → row.response = some r → Known s' id r)
    (howned : ∀ p ∈ s'.posts, Owned s' p.call p.clientOrderId p.request)
    (hmade : ∀ p ∈ s'.posts, p.call = call →
      c.clientOrderId = p.clientOrderId ∧ c.stage.pending = false)
    (hothers : ∀ p ∈ s'.posts, p.call ≠ call → p ∈ s.posts)
    (honce : (s'.posts.map Post.call).Nodup) : Inv digest s' where
  row_hash := hhash
  row_response := hresponse
  stages other d hd := by
    rw [hcalls] at hd
    by_cases hother : other = call
    · subst hother
      rw [Function.update_self] at hd
      obtain rfl := Option.some.inj hd
      exact hok
    · rw [Function.update_of_ne hother] at hd
      exact (hinv.stages other d hd).mono hgrows
  posts_owned := howned
  posts_made p hp := by
    by_cases hcall : p.call = call
    · exact ⟨c, by rw [hcalls, hcall, Function.update_self], hmade p hp hcall⟩
    · obtain ⟨d, hd, hrest⟩ := hinv.posts_made p (hothers p hp hcall)
      exact ⟨d, by rwa [hcalls, Function.update_of_ne hcall], hrest⟩
  posts_once := honce

lemma Inv.restage (hinv : Inv digest s) {call : ℕ} {c : Call ρ} {stage : Stage ρ} (hcall : s.calls call = some c)
    (hgrows : Grows s s') (hrows : s'.rows = s.rows) (hposts : s'.posts = s.posts)
    (hcalls : s'.calls = Function.update s.calls call (some { c with stage := stage }))
    (hok : StageOk digest s' call c.clientOrderId c.request stage)
    (hnext : stage.pending = false) : Inv digest s' := by
  apply hinv.move hgrows call { c with stage := stage } hcalls hok
  · intro id row hrow
    exact hinv.row_hash id row (hrows ▸ hrow)
  · intro id row r hrow hr
    exact (hinv.row_response id row r (hrows ▸ hrow) hr).mono hgrows
  · intro p hp
    exact (hinv.posts_owned p (hposts ▸ hp)).mono hgrows
  · intro p hp heq
    obtain ⟨d, hd, hid, _⟩ := hinv.posts_made p (hposts ▸ hp)
    rw [heq, hcall] at hd
    obtain rfl := Option.some.inj hd
    exact ⟨hid, hnext⟩
  · intro p hp _
    exact hposts ▸ hp
  · rw [hposts]
    exact hinv.posts_once

lemma Inv.not_posted (hinv : Inv digest s) {call : ℕ}
    (hcall : s.calls call = none ∨ ∃ c, s.calls call = some c ∧ c.stage.pending = true) :
    ∀ p ∈ s.posts, p.call ≠ call := by
  intro p hp heq
  obtain ⟨d, hd, _, hposted⟩ := hinv.posts_made p hp
  rw [heq] at hd
  rcases hcall with hnone | ⟨c, hc, hstage⟩
  · cases hnone.symm.trans hd
  · obtain rfl := Option.some.inj (hc.symm.trans hd)
    exact Bool.false_ne_true (hposted.symm.trans hstage)

lemma grows_setStage (call : ℕ) (c : Call ρ) (stage : Stage ρ) : Grows s (s.setStage call c stage) where
  rows _ row hrow := ⟨row, hrow, rfl, rfl, rfl⟩
  posts := List.Subset.refl _
  answers := List.Subset.refl _
  lookups := List.Subset.refl _

lemma inv_call (hinv : Inv digest s) (call : ℕ) (clientOrderId : String) (request : Request)
    (hfree : s.calls call = none) :
    Inv digest { s with calls := Function.update s.calls call (some ⟨clientOrderId, request, .called⟩) } := by
  have hgrows : Grows s { s with calls := Function.update s.calls call (some ⟨clientOrderId, request, .called⟩) } :=
    ⟨fun _ row hrow => ⟨row, hrow, rfl, rfl, rfl⟩, List.Subset.refl _, List.Subset.refl _, List.Subset.refl _⟩
  apply hinv.move hgrows call ⟨clientOrderId, request, .called⟩ rfl trivial hinv.row_hash
  · intro id row r hrow hr
    exact (hinv.row_response id row r hrow hr).mono hgrows
  · intro p hp
    exact (hinv.posts_owned p hp).mono hgrows
  · intro p hp heq
    exact absurd heq (hinv.not_posted (.inl hfree) p hp)
  · intro p hp _
    exact hp
  · exact hinv.posts_once

lemma inv_insert (hinv : Inv digest s) (call : ℕ) (c : Call ρ) (stage : Stage ρ) (hcall : s.calls call = some c)
    (hcalled : c.stage = .called) (hnew : s.rows c.clientOrderId = none)
    (hstage : stage = .reserved ∨ stage = .raised) :
    Inv digest ((s.setRow c.clientOrderId
      { requestHash := digest c.request, request := c.request, owner := call }).setStage call c stage) := by
  have hrow : Grows s (s.setRow c.clientOrderId
      { requestHash := digest c.request, request := c.request, owner := call }) := by
    apply grows_setRow
    intro row hrow
    cases hnew.symm.trans hrow
  have hgrows := hrow.trans (grows_setStage call c stage)
  apply hinv.move hgrows call { c with stage := stage } rfl
  · rcases hstage with rfl | rfl
    · exact ⟨_, Function.update_self _ _ _, rfl, rfl⟩
    · trivial
  · intro id row h
    change Function.update s.rows _ _ id = some row at h
    by_cases hid : id = c.clientOrderId
    · rw [hid, Function.update_self] at h
      obtain rfl := Option.some.inj h
      rfl
    · rw [Function.update_of_ne hid] at h
      exact hinv.row_hash id row h
  · intro id row r h hr
    change Function.update s.rows _ _ id = some row at h
    by_cases hid : id = c.clientOrderId
    · rw [hid, Function.update_self] at h
      obtain rfl := Option.some.inj h
      cases hr
    · rw [Function.update_of_ne hid] at h
      exact (hinv.row_response id row r h hr).mono hgrows
  · intro p hp
    exact (hinv.posts_owned p hp).mono hgrows
  · intro p hp heq
    exact absurd heq (hinv.not_posted (.inr ⟨c, hcall, by rw [hcalled]; rfl⟩) p hp)
  · intro p hp _
    exact hp
  · exact hinv.posts_once

lemma inv_found (hinv : Inv digest s) (call : ℕ) (c : Call ρ) (row : Row ρ) (hcall : s.calls call = some c)
    (hrow : s.rows c.clientOrderId = some row) (hhash : row.requestHash = digest c.request) :
    Inv digest (s.setStage call c (row.response.elim .duplicate .returned)) := by
  have hgrows := grows_setStage (s := s) call c (row.response.elim .duplicate .returned)
  have hhashed : Hashed digest s c.clientOrderId c.request := ⟨row, hrow, hhash⟩
  cases hresponse : row.response with
  | none =>
    rw [hresponse] at hgrows
    exact hinv.restage hcall hgrows rfl rfl rfl (hhashed.mono hgrows) rfl
  | some r =>
    rw [hresponse] at hgrows
    have hknown := hinv.row_response _ row r hrow hresponse
    exact hinv.restage hcall hgrows rfl rfl rfl ⟨hhashed.mono hgrows, hknown.mono hgrows⟩
      rfl

lemma inv_post (hinv : Inv digest s) (call : ℕ) (c : Call ρ) (hcall : s.calls call = some c)
    (hreserved : c.stage = .reserved) :
    Inv digest { s.setStage call c .posted with posts := ⟨call, c.clientOrderId, c.request⟩ :: s.posts } := by
  have hgrows : Grows s
      { s.setStage call c .posted with posts := ⟨call, c.clientOrderId, c.request⟩ :: s.posts } :=
    ⟨fun _ row hrow => ⟨row, hrow, rfl, rfl, rfl⟩, List.subset_cons_self _ _, List.Subset.refl _, List.Subset.refl _⟩
  have howned : Owned s call c.clientOrderId c.request := by
    have hok := hinv.stages call c hcall
    rwa [hreserved] at hok
  have hfresh := hinv.not_posted (.inr ⟨c, hcall, by rw [hreserved]; rfl⟩)
  apply hinv.move hgrows call { c with stage := .posted } rfl List.mem_cons_self hinv.row_hash
  · intro id row r hrow hr
    exact (hinv.row_response id row r hrow hr).mono hgrows
  · intro p hp
    rcases List.mem_cons.mp hp with rfl | hold
    · exact howned.mono hgrows
    · exact (hinv.posts_owned p hold).mono hgrows
  · intro p hp heq
    rcases List.mem_cons.mp hp with rfl | hold
    · exact ⟨rfl, rfl⟩
    · exact absurd heq (hfresh p hold)
  · intro p hp hne
    rcases List.mem_cons.mp hp with rfl | hold
    · exact absurd rfl hne
    · exact hold
  · refine List.nodup_cons.mpr ⟨?_, hinv.posts_once⟩
    intro hmem
    obtain ⟨p, hp, heq⟩ := List.mem_map.mp hmem
    exact hfresh p hp heq

lemma inv_answer (hinv : Inv digest s) (call : ℕ) (c : Call ρ) (r : ρ) (hcall : s.calls call = some c)
    (hposted : c.stage = .posted) :
    Inv digest { s.setStage call c (.answered r) with answers := (call, r) :: s.answers } := by
  have hgrows : Grows s { s.setStage call c (.answered r) with answers := (call, r) :: s.answers } :=
    ⟨fun _ row hrow => ⟨row, hrow, rfl, rfl, rfl⟩, List.Subset.refl _, List.subset_cons_self _ _, List.Subset.refl _⟩
  have hpost : (⟨call, c.clientOrderId, c.request⟩ : Post) ∈ s.posts := by
    have hok := hinv.stages call c hcall
    rwa [hposted] at hok
  exact hinv.restage hcall hgrows rfl rfl rfl ⟨hpost, List.mem_cons_self⟩ rfl

lemma inv_lookup (hinv : Inv digest s) (call : ℕ) (c : Call ρ) (r : ρ) (hcall : s.calls call = some c)
    (hduplicate : c.stage = .duplicate) :
    Inv digest { s.setStage call c (.recovered r) with lookups := (c.clientOrderId, r) :: s.lookups } := by
  have hgrows : Grows s { s.setStage call c (.recovered r) with lookups := (c.clientOrderId, r) :: s.lookups } :=
    ⟨fun _ row hrow => ⟨row, hrow, rfl, rfl, rfl⟩, List.Subset.refl _, List.Subset.refl _, List.subset_cons_self _ _⟩
  have hhashed : Hashed digest s c.clientOrderId c.request := by
    have hok := hinv.stages call c hcall
    rwa [hduplicate] at hok
  exact hinv.restage hcall hgrows rfl rfl rfl ⟨hhashed.mono hgrows, List.mem_cons_self⟩
    rfl

lemma Inv.answer_known (hinv : Inv digest s) {call : ℕ} {c : Call ρ} {r : ρ} (hcall : s.calls call = some c)
    (hanswer : c.stage = .answered r ∨ c.stage = .recovered r) :
    Hashed digest s c.clientOrderId c.request ∧ Known s c.clientOrderId r := by
  have hok := hinv.stages call c hcall
  rcases hanswer with hstage | hstage
  · rw [hstage] at hok
    exact ⟨(hinv.posts_owned _ hok.1).hashed hinv, .inl ⟨_, hok.1, rfl, hok.2⟩⟩
  · rw [hstage] at hok
    exact ⟨hok.1, .inr hok.2⟩

lemma inv_setRow (hinv : Inv digest s) {clientOrderId : String} {row : Row ρ} {r : ρ} (brokerOrderId status : String)
    (hrow : s.rows clientOrderId = some row) (hknown : Known s clientOrderId r) :
    Inv digest (s.setRow clientOrderId
      { row with brokerOrderId := some brokerOrderId, status := status, response := some r }) := by
  have hgrows : Grows s (s.setRow clientOrderId
      { row with brokerOrderId := some brokerOrderId, status := status, response := some r }) := by
    apply grows_setRow
    intro old hold
    obtain rfl := Option.some.inj (hrow.symm.trans hold)
    exact ⟨rfl, rfl, rfl⟩
  constructor
  · intro id new h
    change Function.update s.rows _ _ id = some new at h
    by_cases hid : id = clientOrderId
    · rw [hid, Function.update_self] at h
      obtain rfl := Option.some.inj h
      exact hinv.row_hash _ row hrow
    · rw [Function.update_of_ne hid] at h
      exact hinv.row_hash id new h
  · intro id new answer h hr
    change Function.update s.rows _ _ id = some new at h
    by_cases hid : id = clientOrderId
    · rw [hid, Function.update_self] at h
      obtain rfl := Option.some.inj h
      obtain rfl := Option.some.inj hr
      exact hid ▸ hknown.mono hgrows
    · rw [Function.update_of_ne hid] at h
      exact (hinv.row_response id new answer h hr).mono hgrows
  · intro call c hcall
    exact (hinv.stages call c hcall).mono hgrows
  · intro p hp
    exact (hinv.posts_owned p hp).mono hgrows
  · exact hinv.posts_made
  · exact hinv.posts_once

lemma inv_stop (hinv : Inv digest s) (call : ℕ) (c : Call ρ) (stage : Stage ρ) (hcall : s.calls call = some c)
    (hstage : stage = .refused ∨ stage = .raised ∨ stage = .crashed) : Inv digest (s.setStage call c stage) := by
  rcases hstage with rfl | rfl | rfl
  · exact hinv.restage hcall (grows_setStage call c _) rfl rfl rfl trivial rfl
  · exact hinv.restage hcall (grows_setStage call c _) rfl rfl rfl trivial rfl
  · exact hinv.restage hcall (grows_setStage call c _) rfl rfl rfl trivial rfl

lemma inv_complete (hinv : Inv digest s) (call : ℕ) (c : Call ρ) (r : ρ) (brokerOrderId status : String)
    (outcome : Outcome) (hcall : s.calls call = some c) (hanswer : c.stage = .answered r ∨ c.stage = .recovered r) :
    Inv digest (s.complete call c brokerOrderId status r outcome) := by
  obtain ⟨⟨row, hrow, hhash⟩, hknown⟩ := hinv.answer_known hcall hanswer
  -- The row is written first; what the call does next is a move of its own from there.
  obtain ⟨written, hwritten, hwrittenInv, hcalls, hgrows⟩ : ∃ written,
      s.complete call c brokerOrderId status r outcome =
        written.setStage call c (if outcome = .done then .returned r else .raised) ∧
      Inv digest written ∧ written.calls = s.calls ∧ Grows s written := by
    rw [State.complete, hrow]
    by_cases hcommitted : outcome.committed
    · refine ⟨_, rfl, ?_, ?_, ?_⟩
      · rw [if_pos hcommitted]
        exact inv_setRow hinv brokerOrderId status hrow hknown
      · rw [if_pos hcommitted]
        rfl
      · rw [if_pos hcommitted]
        apply grows_setRow
        intro old hold
        obtain rfl := Option.some.inj (hrow.symm.trans hold)
        exact ⟨rfl, rfl, rfl⟩
    · refine ⟨s, ?_, hinv, rfl, Grows.refl s⟩
      rw [if_neg hcommitted]
  have hhashed : Hashed digest s c.clientOrderId c.request := ⟨row, hrow, hhash⟩
  rw [hwritten]
  by_cases hdone : outcome = .done
  · have hstaged := grows_setStage (s := written) call c (.returned r)
    have hall := hgrows.trans hstaged
    rw [if_pos hdone]
    exact hwrittenInv.restage (hcalls ▸ hcall) hstaged rfl rfl rfl ⟨hhashed.mono hall, hknown.mono hall⟩ rfl
  · rw [if_neg hdone]
    exact inv_stop hwrittenInv call c .raised (hcalls ▸ hcall) (.inr (.inl rfl))

lemma inv_moves {event : Event ρ} (hinv : Inv digest s) (hmoves : Moves digest event s s') : Inv digest s' := by
  cases hmoves with
  | same => exact hinv
  | call call clientOrderId request hevent hfree => exact inv_call hinv call clientOrderId request hfree
  | stop call c stage hcall hstage => exact inv_stop hinv call c stage hcall hstage
  | insert call c stage hcall hcalled hnew hstage => exact inv_insert hinv call c stage hcall hcalled hnew hstage
  | found call c row hcall hcalled hrow hhash => exact inv_found hinv call c row hcall hrow hhash
  | post call c hcall hreserved => exact inv_post hinv call c hcall hreserved
  | answer call c r hcall hposted => exact inv_answer hinv call c r hcall hposted
  | lookup call c r hcall hduplicate => exact inv_lookup hinv call c r hcall hduplicate
  | complete call c r brokerOrderId status outcome hcall hanswer =>
    exact inv_complete hinv call c r brokerOrderId status outcome hcall hanswer

lemma grows_moves {event : Event ρ} (hmoves : Moves digest event s s') : Grows s s' := by
  cases hmoves with
  | same => exact Grows.refl s
  | call call clientOrderId request hevent hfree =>
    exact ⟨fun _ row hrow => ⟨row, hrow, rfl, rfl, rfl⟩, List.Subset.refl _, List.Subset.refl _, List.Subset.refl _⟩
  | stop call c stage hcall hstage => exact grows_setStage call c stage
  | insert call c stage hcall hcalled hnew hstage =>
    refine Grows.trans (grows_setRow ?_) (grows_setStage call c stage)
    intro row hrow
    cases hnew.symm.trans hrow
  | found call c row hcall hcalled hrow hhash => exact grows_setStage call c _
  | post call c hcall hreserved =>
    exact ⟨fun _ row hrow => ⟨row, hrow, rfl, rfl, rfl⟩, List.subset_cons_self _ _, List.Subset.refl _, List.Subset.refl _⟩
  | answer call c r hcall hposted =>
    exact ⟨fun _ row hrow => ⟨row, hrow, rfl, rfl, rfl⟩, List.Subset.refl _, List.subset_cons_self _ _, List.Subset.refl _⟩
  | lookup call c r hcall hduplicate =>
    exact ⟨fun _ row hrow => ⟨row, hrow, rfl, rfl, rfl⟩, List.Subset.refl _, List.Subset.refl _, List.subset_cons_self _ _⟩
  | complete call c r brokerOrderId status outcome hcall hanswer =>
    rw [State.complete]
    refine Grows.trans ?_ (grows_setStage call c _)
    cases hrow : s.rows c.clientOrderId with
    | none =>
      split_ifs
      · exact Grows.refl s
      · exact Grows.refl s
    | some row =>
      split_ifs
      · apply grows_setRow
        intro old hold
        obtain rfl := Option.some.inj (hrow.symm.trans hold)
        exact ⟨rfl, rfl, rfl⟩
      · exact Grows.refl s

end Steps

def start : State ρ := {}

lemma inv_start : Inv digest (start : State ρ) where
  row_hash _ _ h := by cases h
  row_response _ _ _ h := by cases h
  stages _ _ h := by cases h
  posts_owned _ h := by cases h
  posts_made _ h := by cases h
  posts_once := List.nodup_nil

lemma inv_run (events : List (Event ρ)) : Inv digest (Runs.run (State.step digest) start events) :=
  Runs.invariant_of_step (fun _ event hinv => inv_moves hinv (step_moves event)) inv_start events

lemma grows_run (events : List (Event ρ)) : Grows s (Runs.run (State.step digest) s events) := by
  induction events generalizing s with
  | nil => exact Grows.refl s
  | cons event rest ih => exact (grows_moves (step_moves event)).trans ih

lemma Inv.posts_length_le (hinv : Inv digest s) (clientOrderId : String) :
    (s.posts.filter fun p => p.clientOrderId = clientOrderId).length ≤ 1 := by
  have hsame : ∀ p ∈ s.posts.filter fun p => p.clientOrderId = clientOrderId,
      ∀ q ∈ s.posts.filter fun p => p.clientOrderId = clientOrderId, p.call = q.call := by
    intro p hp q hq
    obtain ⟨hmemP, hidP⟩ := List.mem_filter.mp hp
    obtain ⟨hmemQ, hidQ⟩ := List.mem_filter.mp hq
    obtain ⟨row, hrow, hownerP, _⟩ := hinv.posts_owned p hmemP
    obtain ⟨row', hrow', hownerQ, _⟩ := hinv.posts_owned q hmemQ
    rw [of_decide_eq_true hidP] at hrow
    rw [of_decide_eq_true hidQ] at hrow'
    obtain rfl := Option.some.inj (hrow.symm.trans hrow')
    exact hownerP.symm.trans hownerQ
  have honce : (s.posts.filter fun p => p.clientOrderId = clientOrderId).Pairwise fun p q => p.call ≠ q.call :=
    (List.pairwise_map.mp hinv.posts_once).filter _
  exact OneAtATime.length_le_one_of_pairwise honce fun p hp q hq hne => hne (hsame p hp q hq)

def Event.request : Event ρ → Option Request
  | .call _ _ request => some request
  | _ => none

def requestsOf (events : List (Event ρ)) : List Request := events.filterMap Event.request

def CollisionFree (digest : Request → String) (requests : List Request) : Prop :=
  ∀ a ∈ requests, ∀ b ∈ requests, digest a = digest b → a = b

instance (digest : Request → String) (requests : List Request) : Decidable (CollisionFree digest requests) :=
  inferInstanceAs (Decidable (∀ a ∈ requests, ∀ b ∈ requests, _ → _))

def Seen (requests : List Request) (s : State ρ) : Prop :=
  (∀ id row, s.rows id = some row → row.request ∈ requests) ∧ ∀ call c, s.calls call = some c → c.request ∈ requests

lemma seen_setStage {requests : List Request} (h : Seen requests s) {call : ℕ} {c : Call ρ} (stage : Stage ρ)
    (hcall : s.calls call = some c) : Seen requests (s.setStage call c stage) := by
  refine ⟨h.1, ?_⟩
  intro other d hd
  change Function.update s.calls _ _ other = some d at hd
  by_cases hother : other = call
  · rw [hother, Function.update_self] at hd
    obtain rfl := Option.some.inj hd
    exact h.2 call c hcall
  · rw [Function.update_of_ne hother] at hd
    exact h.2 other d hd

lemma seen_setRow {requests : List Request} (h : Seen requests s) (clientOrderId : String) {row : Row ρ}
    (hrow : row.request ∈ requests) : Seen requests (s.setRow clientOrderId row) := by
  refine ⟨?_, h.2⟩
  intro id new hnew
  change Function.update s.rows _ _ id = some new at hnew
  by_cases hid : id = clientOrderId
  · rw [hid, Function.update_self] at hnew
    obtain rfl := Option.some.inj hnew
    exact hrow
  · rw [Function.update_of_ne hid] at hnew
    exact h.1 id new hnew

lemma seen_moves {requests : List Request} {event : Event ρ} (h : Seen requests s)
    (hevent : ∀ request, event.request = some request → request ∈ requests) (hmoves : Moves digest event s s') :
    Seen requests s' := by
  cases hmoves with
  | same => exact h
  | call call clientOrderId request hcall hfree =>
    refine ⟨h.1, ?_⟩
    intro other d hd
    change Function.update s.calls _ _ other = some d at hd
    by_cases hother : other = call
    · rw [hother, Function.update_self] at hd
      obtain rfl := Option.some.inj hd
      exact hevent request (hcall ▸ rfl)
    · rw [Function.update_of_ne hother] at hd
      exact h.2 other d hd
  | stop call c stage hcall hstage => exact seen_setStage h stage hcall
  | insert call c stage hcall hcalled hnew hstage =>
    exact seen_setStage (seen_setRow h c.clientOrderId (h.2 call c hcall)) stage hcall
  | found call c row hcall hcalled hrow hhash => exact seen_setStage h _ hcall
  | post call c hcall hreserved => exact seen_setStage h _ hcall
  | answer call c r hcall hposted => exact seen_setStage h _ hcall
  | lookup call c r hcall hduplicate => exact seen_setStage h _ hcall
  | complete call c r brokerOrderId status outcome hcall hanswer =>
    rw [State.complete]
    cases hrow : s.rows c.clientOrderId with
    | none => split_ifs <;> exact seen_setStage h _ hcall
    | some row =>
      have hrequest := h.1 _ row hrow
      have hwritten := seen_setRow h c.clientOrderId (show ({ row with
        brokerOrderId := some brokerOrderId, status := status, response := some r } : Row ρ).request ∈ requests
          from hrequest)
      split_ifs
      · exact seen_setStage hwritten _ hcall
      · exact seen_setStage hwritten _ hcall
      · exact seen_setStage h _ hcall
      · exact seen_setStage h _ hcall

lemma seen_run (events : List (Event ρ)) : Seen (requestsOf events) (Runs.run (State.step digest) start events) := by
  have hevents : ∀ event ∈ events, ∀ request, event.request = some request → request ∈ requestsOf events :=
    fun event hmem request hrequest => List.mem_filterMap.mpr ⟨event, hmem, hrequest⟩
  apply Runs.invariant (I := Seen (requestsOf events)) _ _ (Runs.allowed_of_forall hevents)
  · intro s event h hevent
    exact seen_moves h hevent (step_moves event)
  · refine ⟨?_, ?_⟩
    · intro _ _ h
      cases h
    · intro _ _ h
      cases h

lemma reserve_existing {call : ℕ} {c : Call ρ} {row : Row ρ} (hcall : s.calls call = some c)
    (hcalled : c.stage = .called) (hrow : s.rows c.clientOrderId = some row) :
    s.step digest (.reserve call .done) = s.setStage call c
      (if row.requestHash ≠ digest c.request then .refused else row.response.elim .duplicate .returned) := by
  obtain ⟨clientOrderId, request, stage⟩ := c
  obtain rfl : stage = .called := hcalled
  change s.rows clientOrderId = some row at hrow
  simp only [State.step, hcall, State.reserve, hrow]
  simp

lemma Inv.request_of_hashed (hinv : Inv digest s) {requests : List Request} (hseen : Seen requests s)
    (hfree : CollisionFree digest requests) {clientOrderId : String} {request : Request} {row : Row ρ}
    (hrow : s.rows clientOrderId = some row) (hrequest : request ∈ requests)
    (hhashed : Hashed digest s clientOrderId request) : request = row.request := by
  obtain ⟨row', hrow', hhash⟩ := hhashed
  obtain rfl := Option.some.inj (hrow.symm.trans hrow')
  have hsame : digest request = digest row.request := hhash.symm.trans (hinv.row_hash _ row hrow)
  exact hfree request hrequest row.request (hseen.1 _ row hrow) hsame

/-- Calls interleaved in any way and crashing anywhere: each id is posted at most once, and what a call
returns answers that post or is a lookup of it. Where no two requests share a hash, every call that gets
past the reservation of an id, and every post of it, has the request that was reserved first; another
request is refused, and the same request gets the stored response or goes on to a lookup. -/
theorem demo_orders_posted_once (digest : Request → String) (before after : List (Event ρ)) :
    (∀ id, ((Runs.run (State.step digest) start (before ++ after)).posts.filter
      fun p => p.clientOrderId = id).length ≤ 1) ∧
    (∀ call c r, (Runs.run (State.step digest) start (before ++ after)).calls call = some c →
      c.stage = .returned r → Known (Runs.run (State.step digest) start (before ++ after)) c.clientOrderId r) ∧
    (CollisionFree digest (requestsOf (before ++ after)) → ∀ id row,
      (Runs.run (State.step digest) start before).rows id = some row →
        (∀ call c, (Runs.run (State.step digest) start (before ++ after)).calls call = some c →
          c.clientOrderId = id → Accepted c.stage → c.request = row.request) ∧
        (∀ p ∈ (Runs.run (State.step digest) start (before ++ after)).posts,
          p.clientOrderId = id → p.request = row.request) ∧
        (∀ call c, (Runs.run (State.step digest) start (before ++ after)).calls call = some c →
          c.clientOrderId = id → c.stage = .called → ∃ row',
            (Runs.run (State.step digest) start (before ++ after)).rows id = some row' ∧
            (Runs.run (State.step digest) start (before ++ after)).step digest (.reserve call .done) =
              (Runs.run (State.step digest) start (before ++ after)).setStage call c
                (if c.request ≠ row.request then .refused else row'.response.elim .duplicate .returned))) := by
  have hinv : Inv digest (Runs.run (State.step digest) start (before ++ after)) := inv_run (before ++ after)
  refine ⟨hinv.posts_length_le, ?_, ?_⟩
  · intro call c r hcall hreturned
    have hok := hinv.stages call c hcall
    rw [hreturned] at hok
    exact hok.2
  · intro hfree id row hrow
    have hseen : Seen (requestsOf (before ++ after)) (Runs.run (State.step digest) start (before ++ after)) :=
      seen_run (before ++ after)
    have hgrows : Grows (Runs.run (State.step digest) start before)
        (Runs.run (State.step digest) start (before ++ after)) := by
      rw [Runs.run_append]
      exact grows_run after
    obtain ⟨row', hrow', _, hrequest, _⟩ := hgrows.rows id row hrow
    refine ⟨?_, ?_, ?_⟩
    · rintro call c hcall rfl haccepted
      rw [← hrequest]
      exact hinv.request_of_hashed hseen hfree hrow' (hseen.2 call c hcall) (hinv.accepted_hashed hcall haccepted)
    · rintro p hp rfl
      obtain ⟨made, hmade, _, hsame⟩ := hinv.posts_owned p hp
      obtain rfl := Option.some.inj (hrow'.symm.trans hmade)
      exact hsame.symm.trans hrequest
    · rintro call c hcall rfl hcalled
      refine ⟨row', hrow', ?_⟩
      rw [reserve_existing hcall hcalled hrow', hinv.row_hash _ row' hrow', ← hrequest]
      have hiff : digest row'.request ≠ digest c.request ↔ c.request ≠ row'.request := by
        apply not_congr
        constructor
        · intro heq
          exact hfree c.request (hseen.2 call c hcall) row'.request (hseen.1 _ row' hrow') heq.symm
        · intro heq
          rw [heq]
      simp only [hiff]

-- The JSON text of a request whose method and path need no escapes.
def requestHash (request : Request) : String :=
  Sha256.hexdigest ("\x7b\"method\": \"" ++ request.method ++ "\", \"path\": \"" ++ request.path ++
    "\", \"payload\": " ++ request.payload ++ "\x7d")

def closeRequest (units : String) : Request := ⟨"POST", "/close/7", "\x7b\"UnitsToDeduct\": " ++ units ++ "\x7d"⟩

-- A first call that crashes after its post; then the same request again, and another one.
def crashedPost : List (Event String) :=
  [.call 0 "close:7" (closeRequest "null"), .reserve 0 .done, .post 0, .crash 0]

def repeatedAfter : List (Event String) :=
  [.call 1 "close:7" (closeRequest "null"), .reserve 1 .done, .lookup 1 (some "order 12"),
    .complete 1 "12" .done, .call 2 "close:7" (closeRequest "5")]

theorem demo_orders_posted_once_crashed :
    (closeRequest "5" ≠ closeRequest "null") ∧
      ∃ row, (Runs.run (State.step requestHash) start (crashedPost ++ repeatedAfter)).rows "close:7" = some row ∧
        (Runs.run (State.step requestHash) start (crashedPost ++ repeatedAfter)).step requestHash (.reserve 2 .done) =
          (Runs.run (State.step requestHash) start (crashedPost ++ repeatedAfter)).setStage 2
            ⟨"close:7", closeRequest "5", .called⟩
              (if closeRequest "5" ≠ closeRequest "null" then .refused else row.response.elim .duplicate .returned) := by
  have hfree : CollisionFree requestHash (requestsOf (crashedPost ++ repeatedAfter)) := by decide +kernel
  have hrow : (Runs.run (State.step requestHash) start crashedPost).rows "close:7" =
      some { requestHash := requestHash (closeRequest "null"), request := closeRequest "null", owner := 0 } := by
    decide +kernel
  have hcall : (Runs.run (State.step requestHash) start (crashedPost ++ repeatedAfter)).calls 2 =
      some ⟨"close:7", closeRequest "5", .called⟩ := by decide +kernel
  have hposted := (demo_orders_posted_once requestHash crashedPost repeatedAfter).2.2 hfree "close:7" _ hrow
  exact ⟨by decide +kernel, hposted.2.2 2 _ hcall rfl rfl⟩

end AlgoTrader.Broker.EtoroDemo
