import AlgoTrader.Lib.WriteBehind
import Mathlib.Data.List.Sort
import Mathlib.Data.Rat.Defs
import Mathlib.Data.String.Basic

/-! The scan decisions (``app/storage/scan_decisions.py``): each thread's scan queues its rows and writes them
in one transaction. -/

namespace AlgoTrader.Storage

abbrev Thread := ℕ

/-- ``payload`` is its JSON text, none where it cannot be serialised. -/
structure DecisionArgs where
  scanTask : String
  symbol : String
  strategyName : String
  timeframe : String
  status : String
  finalScore : Option ℚ
  alertEligible : Bool
  freshness : Option String
  reasonCodes : List String
  rejectionReasons : List String
  payload : Option String

/-- The columns of a row. ``thread`` and ``call`` tell who recorded it, and when among all calls. -/
structure Row where
  scanTask : String
  symbol : String
  strategyName : String
  timeframe : String
  status : String
  finalScore : Option ℚ
  alertEligible : Bool
  freshness : Option String
  reasonCodes : List String
  rejectionReasons : List String
  payload : String
  createdAt : ℤ
  thread : Thread
  call : ℕ
  deriving DecidableEq

inductive Error
  | unserialisable
  | database
  | rejected
  | notFound (recordId : ℕ)
  | scan
  deriving DecidableEq

inductive Response
  | done
  | record (row : ℕ × Row)
  | records (rows : List (ℕ × Row))
  | latest (row : Option (ℕ × Row))
  deriving DecidableEq

/-- ``pending`` and ``blocks`` are a thread's queue (none outside a scan) and its open ``deferred_writes``
blocks, innermost first, each with its ``outermost``. ``recorded``, ``dropped`` and ``scan`` (what a thread recorded in its
scan) are for the proofs. -/
structure Repository where
  table : List Row := []
  pending : Thread → Option (List Row) := fun _ => none
  blocks : Thread → List Bool := fun _ => []
  recorded : List Row := []
  dropped : List Row := []
  scan : Thread → List Row := fun _ => []

def rowParams (args : DecisionArgs) (thread : Thread) (now : ℤ) (call : ℕ) : Option Row :=
  args.payload.map fun payload =>
    { scanTask := args.scanTask
      symbol := args.symbol.toUpper
      strategyName := args.strategyName
      timeframe := args.timeframe
      status := args.status
      finalScore := args.finalScore
      alertEligible := args.alertEligible
      freshness := args.freshness
      reasonCodes := args.reasonCodes
      rejectionReasons := args.rejectionReasons
      payload := payload
      createdAt := now
      thread := thread
      call := call }

def flushChunkRows : ℕ := 80

/-- The rows in the order the chunks insert them, at most ``flushChunkRows`` at a time. -/
def insertChunks (pending : List Row) : List Row :=
  ((List.range ((pending.length + flushChunkRows - 1) / flushChunkRows)).map fun n =>
    (pending.drop (n * flushChunkRows)).take flushChunkRows).flatten

structure ListQuery where
  limit : ℤ := 100
  status : Option String := none
  scanTask : Option String := none
  symbol : Option String := none

structure LatestQuery where
  symbol : String
  strategyName : String
  timeframe : String
  since : Option ℤ := none
  statuses : List String := []

def byCreatedDesc (rows : List (ℕ × Row)) : List (ℕ × Row) :=
  rows.insertionSort fun a b => b.2.createdAt ≤ a.2.createdAt

def stored (table : List Row) : List (ℕ × Row) := table.mapIdx fun index row => (index + 1, row)

def selectList (query : ListQuery) (table : List Row) : List (ℕ × Row) :=
  (byCreatedDesc ((stored table).filter fun row =>
    query.status.all (row.2.status = ·) ∧ query.scanTask.all (row.2.scanTask = ·) ∧
      query.symbol.all fun symbol => row.2.symbol = symbol.toUpper)).take (max 1 query.limit).toNat

def selectLatest (query : LatestQuery) (table : List Row) : Option (ℕ × Row) :=
  (byCreatedDesc ((stored table).filter fun row =>
    row.2.symbol = query.symbol.toUpper ∧ row.2.strategyName = query.strategyName ∧
      row.2.timeframe = query.timeframe ∧ query.since.all (· ≤ row.2.createdAt) ∧
      (query.statuses = [] ∨ row.2.status ∈ query.statuses))).head?

inductive Read
  | list (query : ListQuery)
  | getLatest (query : LatestQuery)
  | get (recordId : ℕ)

inductive Call
  | create (args : DecisionArgs)
  | createDeferred (args : DecisionArgs)
  | flush
  | read (query : Read)
  | enter
  | leave (raised : Bool)

/-- Which of a call's transactions succeed: the flush, and the insert or select after it. -/
structure Operation where
  thread : Thread
  now : ℤ
  call : Call
  flushed : Bool := true
  answered : Bool := true

section Operations

-- Whether a stored row makes a ``ScanDecisionRecord``.
variable (accepts : Row → Bool)

def answer (query : Read) (table : List Row) : Except Error Response :=
  match query with
  | .list query =>
      let rows := selectList query table
      if rows.all fun row => accepts row.2 then .ok (.records rows) else .error .rejected
  | .getLatest query =>
      let row := selectLatest query table
      if row.all fun row => accepts row.2 then .ok (.latest row) else .error .rejected
  | .get recordId =>
      match (stored table).find? fun row => row.1 = recordId with
      | none => .error (.notFound recordId)
      | some row => if accepts row.2 then .ok (.record row) else .error .rejected

namespace Repository

def flush (r : Repository) (thread : Thread) (ok : Bool) : Except Error Unit × Repository :=
  match r.pending thread with
  | none => (.ok (), r)
  | some [] => (.ok (), r)
  | some rows =>
      if ok then
        let written := insertChunks rows
        (if written.all accepts then .ok () else .error .rejected,
          { r with table := r.table ++ written, pending := Function.update r.pending thread (some []) })
      else (.error .database, r)

def insert (r : Repository) (row : Row) (ok : Bool) : Except Error Response × Repository :=
  if ok then
    (if accepts row then .ok (.record (r.table.length + 1, row)) else .error .rejected,
      { r with
        table := r.table ++ [row]
        recorded := r.recorded ++ [row]
        scan := Function.update r.scan row.thread (r.scan row.thread ++ [row]) })
  else (.error .database, r)

def create (r : Repository) (thread : Thread) (args : DecisionArgs) (now : ℤ) (flushed answered : Bool) :
    Except Error Response × Repository :=
  match rowParams args thread now r.recorded.length with
  | none => (.error .unserialisable, r)
  | some row =>
      match r.flush accepts thread flushed with
      | (.error e, r) => (.error e, r)
      | (.ok (), r) => r.insert accepts row answered

def enqueue (r : Repository) (row : Row) (pending : List Row) : Repository :=
  { r with
    pending := Function.update r.pending row.thread (some (pending ++ [row]))
    recorded := r.recorded ++ [row]
    scan := Function.update r.scan row.thread (r.scan row.thread ++ [row]) }

def createDeferred (r : Repository) (thread : Thread) (args : DecisionArgs) (now : ℤ) (flushed answered : Bool) :
    Except Error Response × Repository :=
  match rowParams args thread now r.recorded.length with
  | none => (.error .unserialisable, r)
  | some row =>
      match r.pending thread with
      | none =>
          match r.insert accepts row answered with
          | (.error e, r) => (.error e, r)
          | (.ok _, r) => (.ok .done, r)
      | some pending =>
          if pending.getLast?.any fun last => last.symbol ≠ row.symbol then
            match r.flush accepts thread flushed with
            | (.error e, r) => (.error e, r)
            | (.ok (), r) => (.ok .done, r.enqueue row [])
          else (.ok .done, r.enqueue row pending)

def read (r : Repository) (thread : Thread) (query : Read) (flushed answered : Bool) :
    Except Error Response × Repository :=
  match r.flush accepts thread flushed with
  | (.error e, r) => (.error e, r)
  | (.ok (), r) => (if answered then answer accepts query r.table else .error .database, r)

/-- ``deferred_writes`` up to its ``yield``. -/
def enter (r : Repository) (thread : Thread) : Repository :=
  if r.pending thread = none then
    { r with
      pending := Function.update r.pending thread (some [])
      blocks := Function.update r.blocks thread (true :: r.blocks thread)
      scan := Function.update r.scan thread [] }
  else { r with blocks := Function.update r.blocks thread (false :: r.blocks thread) }

/-- The ``finally`` of the outermost block. -/
def close (r : Repository) (thread : Thread) (outermost : Bool) : Repository :=
  if outermost then
    { r with
      pending := Function.update r.pending thread none
      dropped := r.dropped ++ (r.pending thread).getD [] }
  else r

/-- ``deferred_writes`` after its ``yield``, which ``raised`` the scan's own error or not. -/
def leave (r : Repository) (thread : Thread) (raised flushed : Bool) : Except Error Response × Repository :=
  match r.blocks thread with
  | [] => (.ok .done, r)
  | outermost :: rest =>
      let (result, flushedTo) := r.flush accepts thread flushed
      let reply := if raised then .error .scan else result.map fun _ => Response.done
      (reply, { flushedTo.close thread outermost with blocks := Function.update flushedTo.blocks thread rest })

def call (r : Repository) (op : Operation) : Except Error Response × Repository :=
  match op.call with
  | .create args => r.create accepts op.thread args op.now op.flushed op.answered
  | .createDeferred args => r.createDeferred accepts op.thread args op.now op.flushed op.answered
  | .flush =>
      let (result, r) := r.flush accepts op.thread op.flushed
      (result.map fun _ => .done, r)
  | .read query => r.read accepts op.thread query op.flushed op.answered
  | .enter => (.ok .done, r.enter op.thread)
  | .leave raised => r.leave accepts op.thread raised op.flushed

def step (r : Repository) (op : Operation) : Repository := (r.call accepts op).2

end Repository

end Operations

end AlgoTrader.Storage
