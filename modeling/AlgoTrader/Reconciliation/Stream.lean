import AlgoTrader.Reconciliation.RefreshBound

/-! Streamed order updates beside the sweep (``ingest_order_update``): two writers of the execution rows,
and the fingerprints that later sweeps trust. -/

namespace AlgoTrader.Reconciliation

open Automation

inductive ExecutionStatus
  | created
  | validated
  | submitted
  | filled
  | canceled
  | failed
  | blocked
  deriving DecidableEq

structure StoredExecution where
  status : ExecutionStatus := .submitted
  proposedPrice : ℚ := 0
  brokerExecution : Option Payload := none
  fillPrice : Option ℚ := none
  slippageBps : Option ℚ := none
  realizedPnl : ℚ := 0
  exitFill : Option Payload := none
  deriving DecidableEq

namespace StoredExecution

def fillPriceOf (payload : Payload) : Option ℚ :=
  if payload.filledAvgPrice = 0 then none else some payload.filledAvgPrice

def signedSlippageBps (row : StoredExecution) (payload : Payload) : Option ℚ :=
  if payload.filledAvgPrice ≠ 0 ∧ 0 < row.proposedPrice then
    some (Rounding.toDigits 3
      ((payload.filledAvgPrice - row.proposedPrice) / row.proposedPrice * 10000))
  else none

def statusAfter (row : StoredExecution) (payload : Payload) : ExecutionStatus :=
  let status := payload.status.toLower
  if status = "filled" then .filled
  else if status = "canceled" ∨ status = "cancelled" then .canceled
  else if status = "expired" ∨ status = "rejected" then .failed
  else row.status

/-- What an update of the row makes of it. Keys of the stored response that the update does not set
stay as they were. -/
def update (row : StoredExecution) (payload : Payload) (exits : List Payload) : StoredExecution :=
  let attributed := updateExecution ⟨⟨"", ""⟩, payload⟩ exits
  { row with
    status := row.statusAfter payload
    brokerExecution := some payload
    fillPrice := (fillPriceOf payload).or row.fillPrice
    slippageBps := (row.signedSlippageBps payload).or row.slippageBps
    realizedPnl := attributed.realizedPnl
    exitFill :=
      (attributed.exitFill.map fun exit => { exit with legs := [], status := "filled" }).or row.exitFill }

lemma update_update (row : StoredExecution) (payload : Payload) (exits : List Payload) :
    (row.update payload exits).update payload exits = row.update payload exits := by
  have hstatus : (row.update payload exits).statusAfter payload = row.statusAfter payload := by
    have hrow : (row.update payload exits).status = row.statusAfter payload := rfl
    simp only [statusAfter, hrow]
    split_ifs <;> rfl
  have hslippage : (row.update payload exits).signedSlippageBps payload = row.signedSlippageBps payload := rfl
  have hor {α : Type} (a b : Option α) : a.or (a.or b) = a.or b := by cases a <;> rfl
  rw [update, hstatus, hslippage]
  simp only [update, hor]

end StoredExecution

/-- Where a sweep stands; ``found`` are the rows as it read them. -/
inductive Phase
  | idle
  | started
  | next (found : String → StoredExecution) (pending : List Reported)
  | writing (found : String → StoredExecution) (row : Reported) (pending : List Reported)
  | wrote (found : String → StoredExecution) (row : Reported) (pending : List Reported)

def Phase.isIdle : Phase → Bool
  | .idle => true
  | _ => false

/-- A streamed update that has read its row and its order. -/
structure Ingest where
  executionId : String
  row : StoredExecution
  payload : Payload

/-- The rows, the service's memory, the sweep under way, and the streamed updates: those that have not
written yet, and the fingerprints the others have still to drop. -/
structure Shared extends State where
  rows : String → StoredExecution
  phase : Phase := .idle
  ingests : List Ingest := []
  drops : List (List Key) := []

inductive Step
  | beginSweep
  | readBroker (book : Book)
  | compare
  | write
  | remember
  | raise
  | readOrder (executionId : String) (payload : Payload)
  | ingest (i : ℕ)
  | drop (i : ℕ)
  | restart

def Ingest.keys (update : Ingest) : List Key :=
  .execution update.executionId :: .order update.payload.brokerOrderId ::
    update.payload.legs.map fun leg => .order leg.brokerOrderId

def writeExecution (found rows : String → StoredExecution) (row : Reported) : String → StoredExecution :=
  match row.key, row.parts with
  | .execution id, .execution payload exits =>
    Function.update rows id ((found id).update payload exits)
  | _, _ => rows

section Steps

variable (crc32 : Key → ℕ) (s : Shared)

def compareNext : Shared :=
  match s.phase with
  | .next _ [] => { s with phase := .idle }
  | .next found (row :: rest) =>
    match changed s.toState row with
    | (false, memory) => { s with toState := memory, phase := .next found rest }
    | (true, memory) => { s with toState := memory, phase := .writing found row rest }
  | _ => s

def writeNext : Shared :=
  match s.phase with
  | .writing found row rest =>
    { s with
      toState := s.put row
      rows := writeExecution found s.rows row
      phase := .wrote found row rest }
  | _ => s

def rememberNext : Shared :=
  match s.phase with
  | .wrote found row rest => { s with toState := s.remember row, phase := .next found rest }
  | _ => s

def ingestNext (i : ℕ) : Shared :=
  match s.ingests[i]? with
  | none => s
  | some update =>
    { s with
      rows := Function.update s.rows update.executionId (update.row.update update.payload [])
      ingests := s.ingests.eraseIdx i
      drops := s.drops ++ [update.keys] }

def dropNext (i : ℕ) : Shared :=
  match s.drops[i]? with
  | some (key :: rest) =>
    { s with
      written := Function.update s.written key none
      drops := if rest = [] then s.drops.eraseIdx i else s.drops.set i rest }
  | _ => s

def Shared.step : Step → Shared
  | .beginSweep =>
    match s.phase with
    | .idle => { s with toState := Reconciliation.beginSweep crc32 s.toState, phase := .started }
    | _ => s
  | .readBroker book =>
    match s.phase with
    | .started => { s with phase := .next s.rows (reportedRows book) }
    | _ => s
  | .compare => compareNext s
  | .write => writeNext s
  | .remember => rememberNext s
  | .raise => { s with phase := .idle }
  | .readOrder executionId payload =>
    { s with ingests := s.ingests ++ [⟨executionId, s.rows executionId, payload⟩] }
  | .ingest i => ingestNext s i
  | .drop i => dropNext s i
  | .restart => { store := s.store, rows := s.rows }

end Steps

/-- A sweep that runs from its begin to its end with no other step between. -/
def soloSweep (book : Book) : List Step :=
  [.beginSweep, .readBroker book] ++
    (reportedRows book).flatMap (fun _ => [.compare, .write, .remember]) ++ [.compare]

end AlgoTrader.Reconciliation
