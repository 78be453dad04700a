import AlgoTrader.Reconciliation.ExitsOnce
import AlgoTrader.Lib.RollingRefresh
import AlgoTrader.Lib.Runs

/-! Which rows a sweep writes back (``app/automation/reconciliation.py``): a row whose fingerprint is
recorded only when it changed, a row in an unknown state as far as the budget goes. -/

namespace AlgoTrader.Reconciliation

open Automation

def refreshSlices : ℕ := 12

def unknownWriteBudget : ℕ := 150

inductive Key
  | execution (id : String)
  | order (brokerOrderId : String)
  deriving DecidableEq

/-- What a fingerprint is taken of; it also settles what a write puts into the row. -/
inductive Parts
  | execution (payload : Payload) (exits : List Payload)
  | order (payload : Payload) (executionId : Option String)
  | leg (leg : Leg) (executionId : Option String) (parentOrderId : String)
  deriving DecidableEq

structure Reported where
  key : Key
  parts : Parts

def executionId (book : Book) (order : Payload) : Option String :=
  (executionByOrder book order.brokerOrderId).map (·.id)

def orderRows (book : Book) (order : Payload) : List Reported :=
  ((executionId book order).map fun id =>
    ⟨.execution id, .execution order (standaloneExits book order.symbol.toUpper)⟩).toList ++
  (if order.brokerOrderId = "" then []
    else [⟨.order order.brokerOrderId, .order order (executionId book order)⟩]) ++
  order.legs.map fun leg =>
    ⟨.order leg.brokerOrderId, .leg leg (executionId book order) order.brokerOrderId⟩

def reportedRows (book : Book) : List Reported := book.orders.flatMap (orderRows book)

/-- The service's memory of what it wrote last, and the rows as they are in the database. -/
structure State where
  written : Key → Option Parts := fun _ => none
  sweepNo : ℕ := 0
  unknownBudget : ℕ := unknownWriteBudget
  store : Key → Option Parts := fun _ => none

/-- How a write ends: done, raised without an effect, or raised after it had taken effect. -/
inductive WriteOutcome
  | done
  | lost
  | unacknowledged
  deriving DecidableEq

/-- An attempt may fail before it has read the orders. A restart may come in the middle of one. -/
inductive Action
  | attempt (book : Option Book) (outcome : Key → WriteOutcome)
  | restart (book : Option Book) (outcome : Key → WriteOutcome)

section Sweep

variable (crc32 : Key → ℕ)

def beginSweep (s : State) : State :=
  { s with
    sweepNo := s.sweepNo + 1
    written := fun key =>
      if crc32 key % refreshSlices = (s.sweepNo + 1) % refreshSlices then none else s.written key
    unknownBudget := unknownWriteBudget }

def changed (s : State) (row : Reported) : Bool × State :=
  match s.written row.key with
  | some last => (last ≠ row.parts, s)
  | none =>
    if s.unknownBudget = 0 then (false, s)
    else (true, { s with unknownBudget := s.unknownBudget - 1 })

def State.put (s : State) (row : Reported) : State :=
  { s with store := Function.update s.store row.key (some row.parts) }

def State.remember (s : State) (row : Reported) : State :=
  { s with written := Function.update s.written row.key (some row.parts) }

def sweepRow (outcome : Key → WriteOutcome) (s : State) (row : Reported) : Except State State :=
  match changed s row with
  | (false, s) => .ok s
  | (true, s) =>
    match outcome row.key with
    | .done => .ok ((s.put row).remember row)
    | .lost => .error s
    | .unacknowledged => .error (s.put row)

def reconcileOnce (book : Book) (outcome : Key → WriteOutcome) (s : State) : Except State State :=
  (reportedRows book).foldlM (sweepRow outcome) (beginSweep crc32 s)

def attempt (s : State) (outcome : Key → WriteOutcome) : Option Book → State
  | none => beginSweep crc32 s
  | some book =>
    match reconcileOnce crc32 book outcome s with
    | .ok s => s
    | .error s => s

def step (s : State) : Action → State
  | .attempt book outcome => attempt crc32 s outcome book
  | .restart book outcome => { store := (attempt crc32 s outcome book).store }

end Sweep

def visitRow (s : State) (row : Reported) : State :=
  match changed s row with
  | (false, s) => s
  | (true, s) => (s.put row).remember row

def fullSweep (crc32 : Key → ℕ) (book : Book) (s : State) : State :=
  (reportedRows book).foldl visitRow (beginSweep crc32 s)

section Complete

variable {crc32 : Key → ℕ} {book : Book} {outcome : Key → WriteOutcome} {s s' : State} {row : Reported}

lemma visitRow_of_ok (h : sweepRow outcome s row = .ok s') : visitRow s row = s' := by
  rw [sweepRow] at h
  rw [visitRow]
  rcases hchanged : changed s row with ⟨writes, next⟩
  rw [hchanged] at h
  cases writes with
  | false => exact Except.ok.inj h
  | true =>
    cases hout : outcome row.key <;> simp only [hout] at h
    case done => exact Except.ok.inj h
    all_goals cases h

lemma foldl_of_ok {rows : List Reported} (h : rows.foldlM (sweepRow outcome) s = .ok s') :
    rows.foldl visitRow s = s' := by
  induction rows generalizing s with
  | nil => exact Except.ok.inj h
  | cons row rest ih =>
    rw [List.foldlM_cons] at h
    cases hrow : sweepRow outcome s row with
    | error failed =>
      rw [hrow] at h
      cases h
    | ok next =>
      rw [hrow] at h
      rw [List.foldl_cons, visitRow_of_ok hrow]
      exact ih h

lemma fullSweep_of_completed (h : reconcileOnce crc32 book outcome s = .ok s') :
    fullSweep crc32 book s = s' := foldl_of_ok h

end Complete

end AlgoTrader.Reconciliation
