import AlgoTrader.Lib.Runs
import Mathlib.Data.List.Nodup
import Mathlib.Logic.Function.Basic

/-! Idempotent order submission of the eToro demo client (``app/broker/etoro_demo_v2.py``) over its table
of reservations (``EToroDemoIdempotencyRepository`` of ``app/storage/repositories.py``). -/

namespace AlgoTrader.Broker.EtoroDemo

/-- ``payload`` is the payload's JSON text, keys sorted. -/
structure Request where
  method : String
  path : String
  payload : String
deriving DecidableEq

structure Row (ρ : Type) where
  requestHash : String
  request : Request
  brokerOrderId : Option String := none
  status : String := "reserved"
  response : Option ρ := none
  owner : ℕ
deriving DecidableEq

/-- Where a call of ``_submit_idempotent`` stands, between two of its steps. -/
inductive Stage (ρ : Type) where
  | called
  | reserved
  | posted
  | answered (response : ρ)
  | duplicate
  | recovered (response : ρ)
  | returned (response : ρ)
  | refused
  | raised
  | crashed
deriving DecidableEq

def Stage.over {ρ : Type} : Stage ρ → Bool
  | .returned _ => true
  | .refused => true
  | .raised => true
  | .crashed => true
  | _ => false

def Stage.pending {ρ : Type} : Stage ρ → Bool
  | .called => true
  | .reserved => true
  | _ => false

structure Call (ρ : Type) where
  clientOrderId : String
  request : Request
  stage : Stage ρ
deriving DecidableEq

structure Post where
  call : ℕ
  clientOrderId : String
  request : Request
deriving DecidableEq

structure State (ρ : Type) where
  rows : String → Option (Row ρ) := fun _ => none
  calls : ℕ → Option (Call ρ) := fun _ => none
  posts : List Post := []
  answers : List (ℕ × ρ) := []
  lookups : List (String × ρ) := []

/-- How a transaction ends for its caller: it is done, or it raises and may have been committed. -/
inductive Outcome where
  | done
  | failed (committed : Bool)
deriving DecidableEq

def Outcome.committed : Outcome → Bool
  | .done => true
  | .failed committed => committed

inductive Event (ρ : Type) where
  | call (call : ℕ) (clientOrderId : String) (request : Request)
  | reserve (call : ℕ) (outcome : Outcome)
  | post (call : ℕ)
  | answer (call : ℕ) (response : Option ρ)
  | complete (call : ℕ) (brokerOrderId : String) (outcome : Outcome)
  | lookup (call : ℕ) (response : Option ρ)
  | crash (call : ℕ)

variable {ρ : Type} (digest : Request → String)

namespace State

def setStage (s : State ρ) (call : ℕ) (c : Call ρ) (stage : Stage ρ) : State ρ :=
  { s with calls := Function.update s.calls call (some { c with stage := stage }) }

def setRow (s : State ρ) (clientOrderId : String) (row : Row ρ) : State ρ :=
  { s with rows := Function.update s.rows clientOrderId (some row) }

-- ``INSERT … ON CONFLICT DO NOTHING``, the row then read, and what the call makes of it.
def reserve (s : State ρ) (call : ℕ) (c : Call ρ) (outcome : Outcome) : State ρ :=
  match s.rows c.clientOrderId with
  | none =>
      let row : Row ρ := { requestHash := digest c.request, request := c.request, owner := call }
      let written := if outcome.committed then s.setRow c.clientOrderId row else s
      written.setStage call c (if outcome = .done then .reserved else .raised)
  | some row =>
      s.setStage call c <|
        if outcome ≠ .done then .raised
        else if row.requestHash ≠ digest c.request then .refused
        else row.response.elim .duplicate .returned

def complete (s : State ρ) (call : ℕ) (c : Call ρ) (brokerOrderId status : String) (response : ρ)
    (outcome : Outcome) : State ρ :=
  let written :=
    if outcome.committed then
      (s.rows c.clientOrderId).elim s fun row => s.setRow c.clientOrderId
        { row with brokerOrderId := some brokerOrderId, status := status, response := some response }
    else s
  written.setStage call c (if outcome = .done then .returned response else .raised)

def step (s : State ρ) : Event ρ → State ρ
  | .call call clientOrderId request =>
      if s.calls call = none then
        { s with calls := Function.update s.calls call (some ⟨clientOrderId, request, .called⟩) }
      else s
  | .reserve call outcome =>
      match s.calls call with
      | some ⟨clientOrderId, request, .called⟩ => s.reserve digest call ⟨clientOrderId, request, .called⟩ outcome
      | _ => s
  | .post call =>
      match s.calls call with
      | some ⟨clientOrderId, request, .reserved⟩ =>
          { s.setStage call ⟨clientOrderId, request, .reserved⟩ .posted with
            posts := ⟨call, clientOrderId, request⟩ :: s.posts }
      | _ => s
  | .answer call response =>
      match s.calls call with
      | some ⟨clientOrderId, request, .posted⟩ =>
          match response with
          | none => s.setStage call ⟨clientOrderId, request, .posted⟩ .raised
          | some r => { s.setStage call ⟨clientOrderId, request, .posted⟩ (.answered r) with answers := (call, r) :: s.answers }
      | _ => s
  | .complete call brokerOrderId outcome =>
      match s.calls call with
      | some ⟨clientOrderId, request, .answered r⟩ =>
          s.complete call ⟨clientOrderId, request, .answered r⟩ brokerOrderId "submitted" r outcome
      | some ⟨clientOrderId, request, .recovered r⟩ =>
          s.complete call ⟨clientOrderId, request, .recovered r⟩ brokerOrderId "recovered" r outcome
      | _ => s
  | .lookup call response =>
      match s.calls call with
      | some ⟨clientOrderId, request, .duplicate⟩ =>
          match response with
          | none => s.setStage call ⟨clientOrderId, request, .duplicate⟩ .raised
          | some r =>
              { s.setStage call ⟨clientOrderId, request, .duplicate⟩ (.recovered r) with
                lookups := (clientOrderId, r) :: s.lookups }
      | _ => s
  | .crash call => (s.calls call).elim s fun c => if c.stage.over then s else s.setStage call c .crashed

end State

inductive Moves (event : Event ρ) (s : State ρ) : State ρ → Prop
  | same : Moves event s s
  | call (call : ℕ) (clientOrderId : String) (request : Request) (hevent : event = .call call clientOrderId request)
      (hfree : s.calls call = none) :
      Moves event s { s with calls := Function.update s.calls call (some ⟨clientOrderId, request, .called⟩) }
  | stop (call : ℕ) (c : Call ρ) (stage : Stage ρ) (hcall : s.calls call = some c)
      (hstage : stage = .refused ∨ stage = .raised ∨ stage = .crashed) : Moves event s (s.setStage call c stage)
  | insert (call : ℕ) (c : Call ρ) (stage : Stage ρ) (hcall : s.calls call = some c) (hcalled : c.stage = .called)
      (hnew : s.rows c.clientOrderId = none) (hstage : stage = .reserved ∨ stage = .raised) :
      Moves event s ((s.setRow c.clientOrderId
        { requestHash := digest c.request, request := c.request, owner := call }).setStage call c stage)
  | found (call : ℕ) (c : Call ρ) (row : Row ρ) (hcall : s.calls call = some c) (hcalled : c.stage = .called)
      (hrow : s.rows c.clientOrderId = some row) (hhash : row.requestHash = digest c.request) :
      Moves event s (s.setStage call c (row.response.elim .duplicate .returned))
  | post (call : ℕ) (c : Call ρ) (hcall : s.calls call = some c) (hreserved : c.stage = .reserved) :
      Moves event s { s.setStage call c .posted with posts := ⟨call, c.clientOrderId, c.request⟩ :: s.posts }
  | answer (call : ℕ) (c : Call ρ) (r : ρ) (hcall : s.calls call = some c) (hposted : c.stage = .posted) :
      Moves event s { s.setStage call c (.answered r) with answers := (call, r) :: s.answers }
  | lookup (call : ℕ) (c : Call ρ) (r : ρ) (hcall : s.calls call = some c) (hduplicate : c.stage = .duplicate) :
      Moves event s { s.setStage call c (.recovered r) with lookups := (c.clientOrderId, r) :: s.lookups }
  | complete (call : ℕ) (c : Call ρ) (r : ρ) (brokerOrderId status : String) (outcome : Outcome)
      (hcall : s.calls call = some c) (hanswer : c.stage = .answered r ∨ c.stage = .recovered r) :
      Moves event s (s.complete call c brokerOrderId status r outcome)

section Steps

variable {digest} {s : State ρ}

lemma reserve_moves (event : Event ρ) (call : ℕ) (c : Call ρ) (outcome : Outcome)
    (hcall : s.calls call = some c) (hcalled : c.stage = .called) : Moves digest event s (s.reserve digest call c outcome) := by
  rw [State.reserve]
  cases hrow : s.rows c.clientOrderId with
  | none =>
    cases outcome with
    | done => exact .insert call c .reserved hcall hcalled hrow (.inl rfl)
    | failed committed =>
      cases committed with
      | true => exact .insert call c .raised hcall hcalled hrow (.inr rfl)
      | false => exact .stop call c .raised hcall (.inr (.inl rfl))
  | some row =>
    cases outcome with
    | failed committed => exact .stop call c .raised hcall (.inr (.inl rfl))
    | done =>
      by_cases hhash : row.requestHash = digest c.request
      · have hfound : Moves digest event s (s.setStage call c (row.response.elim .duplicate .returned)) :=
          .found call c row hcall hcalled hrow hhash
        simpa [hhash] using hfound
      · have hstop : Moves digest event s (s.setStage call c .refused) := .stop call c .refused hcall (.inl rfl)
        simpa [hhash] using hstop

lemma step_moves (event : Event ρ) : Moves digest event s (s.step digest event) := by
  cases event with
  | call call clientOrderId request =>
    rw [State.step]
    by_cases hfree : s.calls call = none
    · rw [if_pos hfree]
      exact .call call clientOrderId request rfl hfree
    · rw [if_neg hfree]
      exact .same
  | reserve call outcome =>
    rw [State.step]
    split
    · rename_i hcall
      exact reserve_moves _ call _ outcome hcall rfl
    · exact .same
  | post call =>
    rw [State.step]
    split
    · rename_i hcall
      exact .post call _ hcall rfl
    · exact .same
  | answer call response =>
    rw [State.step]
    split
    · rename_i hcall
      cases response with
      | none => exact .stop call _ .raised hcall (.inr (.inl rfl))
      | some r => exact .answer call _ r hcall rfl
    · exact .same
  | complete call brokerOrderId outcome =>
    rw [State.step]
    split
    · rename_i hcall
      exact .complete call _ _ brokerOrderId "submitted" outcome hcall (.inl rfl)
    · rename_i hcall
      exact .complete call _ _ brokerOrderId "recovered" outcome hcall (.inr rfl)
    · exact .same
  | lookup call response =>
    rw [State.step]
    split
    · rename_i hcall
      cases response with
      | none => exact .stop call _ .raised hcall (.inr (.inl rfl))
      | some r => exact .lookup call _ r hcall rfl
    · exact .same
  | crash call =>
    rw [State.step]
    cases hcall : s.calls call with
    | none => exact .same
    | some c =>
      change Moves digest _ s (if c.stage.over then s else s.setStage call c .crashed)
      split
      · exact .same
      · exact .stop call c .crashed hcall (.inr (.inr rfl))

end Steps

end AlgoTrader.Broker.EtoroDemo
