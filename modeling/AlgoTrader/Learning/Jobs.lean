import AlgoTrader.Lib.Runs
import AlgoTrader.Lib.Text
import Mathlib.Data.List.Sort
import Mathlib.Logic.Function.Basic

/-! The queue of learning jobs (``app/learning/service.py`` over ``app/learning/repository.py``). Each statement on
the database is one step, and the steps of workers and operators interleave; what the work of a job comes to is
left to the run. -/

namespace AlgoTrader.Learning

inductive JobStatus
  | pending
  | running
  | completed
  | failed
  | resolved
  deriving DecidableEq, Repr

def JobStatus.isUnfinished (status : JobStatus) : Bool := status = .pending ∨ status = .running

inductive JsonValue
  | text (value : String)
  | number (value : ℕ)
  | object (fields : List (String × String))
  deriving DecidableEq, Repr

abbrev Document := List (String × JsonValue)

def Document.update (document entries : Document) : Document :=
  document.filter (fun entry => entry.1 ∉ entries.map Prod.fst) ++ entries

structure LearningJob where
  id : String
  idempotencyKey : String
  jobType : String
  status : JobStatus := .pending
  payload : Document := []
  result : Document := []
  error : String := ""
  attempts : ℕ := 0
  scheduledAt : ℕ
  startedAt : Option ℕ := none
  completedAt : Option ℕ := none
  deriving DecidableEq

structure LearningSettings where
  learningWorkerEnabled : Bool := false
  learningJobMaxAttempts : ℤ := 3

-- A call of ``process_jobs``: the jobs it listed and has not begun, the one it runs, and what it returns.
structure JobWorker where
  todo : List LearningJob := []
  current : Option LearningJob := none
  completed : List LearningJob := []

inductive JobAction (n : ℕ)
  | enqueue (id idempotencyKey jobType : String) (payload : Document)
  | processJobs (worker : Fin n) (limit : ℤ)
  | mark (worker : Fin n)
  | runJob (worker : Fin n) (answer : Except String Document)
  | save (worker : Fin n)
  | stop (worker : Fin n)
  | retryJob (jobId : String)
  | resolveJob (jobId signedBy : String) (evidence : List (String × String))
  | write (call : ℕ)
  | giveUp (call : ℕ)
  | tick (seconds : ℕ)

-- ``waiting`` holds what calls to retry or resolve a job have read and changed but not written yet.
structure JobState (n : ℕ) where
  clock : ℕ := 0
  rows : List LearningJob := []
  workers : Fin n → JobWorker := fun _ => {}
  waiting : List LearningJob := []

def updateJob (rows : List LearningJob) (item : LearningJob) : List LearningJob :=
  rows.map fun row =>
    if row.id = item.id then
      { row with
        status := item.status
        result := item.result
        error := item.error
        attempts := item.attempts
        startedAt := item.startedAt
        completedAt := item.completedAt }
    else row

def listJobs (rows : List LearningJob) (status : Option JobStatus) (limit : ℤ) : List LearningJob :=
  ((rows.filter fun row => status.all (row.status = ·)).insertionSort (·.scheduledAt ≤ ·.scheduledAt)).take
    (max limit 1).toNat

def getJob (rows : List LearningJob) (jobId : String) : Option LearningJob := rows.find? (·.id = jobId)

def supportedJobTypes : List String :=
  ["review_trade", "counterfactual_labels", "train_challenger", "evaluate_challengers", "weekly_synthesis"]

/-- ``answer`` is what the work of a supported job returns or raises. -/
def runJob (job : LearningJob) (answer : Except String Document) : Except String Document :=
  if job.jobType ∉ supportedJobTypes then .error ("Unsupported learning job type: " ++ job.jobType)
  else if job.jobType = "review_trade" ∧ job.payload.all (·.1 ≠ "execution_id") then .error "'execution_id'"
  else answer

def begun (now : ℕ) (job : LearningJob) : LearningJob :=
  { job with status := .running, attempts := job.attempts + 1, startedAt := some now }

def ended (settings : LearningSettings) (job : LearningJob) : Except String Document → LearningJob
  | .ok result => { job with result := result, status := .completed, error := "" }
  | .error error =>
    { job with
      status := if (job.attempts : ℤ) < settings.learningJobMaxAttempts then .pending else .failed
      error := error }

def stamped (now : ℕ) (job : LearningJob) : LearningJob :=
  { job with completedAt := if job.status = .pending then none else some now }

def retried (now : ℕ) (job : LearningJob) : Option LearningJob :=
  if job.status = .failed ∨ job.status = .running then
    some { job with
      status := .pending
      error := ""
      result := Document.update job.result
        [("retry_requested_at", .number now), ("previous_error", .text job.error),
          ("previous_attempts", .number job.attempts)]
      startedAt := none
      completedAt := none }
  else none

def resolved (now : ℕ) (signedBy : String) (evidence : List (String × String)) (job : LearningJob) :
    Option LearningJob :=
  if Text.strip signedBy = "" ∨ evidence = [] ∨ job.status ≠ .failed then none
  else
    some { job with
      status := .resolved
      error := ""
      result := Document.update job.result
        [("resolved_at", .number now), ("resolved_by", .text (Text.strip signedBy)),
          ("resolution_evidence", .object evidence), ("previous_error", .text job.error),
          ("previous_attempts", .number job.attempts)]
      completedAt := some now }

namespace JobState

variable {n : ℕ} (settings : LearningSettings) (s : JobState n) (worker : Fin n)

def setWorker (state : JobWorker) : JobState n := { s with workers := Function.update s.workers worker state }

@[simp]
lemma setWorker_workers_self (state : JobWorker) : (s.setWorker worker state).workers worker = state :=
  Function.update_self ..

lemma setWorker_workers_other {other : Fin n} (h : other ≠ worker) (state : JobWorker) :
    (s.setWorker worker state).workers other = s.workers other := Function.update_of_ne h ..

def enqueueJob (item : LearningJob) : JobState n :=
  if s.rows.any fun row => row.idempotencyKey = item.idempotencyKey ∨ row.id = item.id then s
  else { s with rows := s.rows ++ [item] }

def selected (limit : ℤ) : List LearningJob :=
  if settings.learningWorkerEnabled then listJobs s.rows (some .pending) limit else []

def processJobs (limit : ℤ) : JobState n :=
  match s.workers worker with
  | ⟨[], none, _⟩ => s.setWorker worker { todo := s.selected settings limit }
  | _ => s

def mark : JobState n :=
  match s.workers worker with
  | ⟨job :: todo, none, completed⟩ =>
    { s.setWorker worker ⟨todo, some (begun s.clock job), completed⟩ with
      rows := updateJob s.rows (begun s.clock job) }
  | _ => s

def finishRun (answer : Except String Document) : JobState n :=
  match s.workers worker with
  | ⟨todo, some job, completed⟩ =>
    if job.status = .running then s.setWorker worker ⟨todo, some (ended settings job (runJob job answer)), completed⟩
    else s
  | _ => s

def save : JobState n :=
  match s.workers worker with
  | ⟨todo, some job, completed⟩ =>
    if job.status = .running then s
    else
      { s.setWorker worker ⟨todo, none, completed ++ [stamped s.clock job]⟩ with
        rows := updateJob s.rows (stamped s.clock job) }
  | _ => s

def write (call : ℕ) : JobState n :=
  match s.waiting[call]? with
  | some job => { s with rows := updateJob s.rows job, waiting := s.waiting.eraseIdx call }
  | none => s

def step (s : JobState n) : JobAction n → JobState n
  | .enqueue id idempotencyKey jobType payload =>
    s.enqueueJob { id, idempotencyKey, jobType, payload, scheduledAt := s.clock }
  | .processJobs worker limit => s.processJobs settings worker limit
  | .mark worker => s.mark worker
  | .runJob worker answer => s.finishRun settings worker answer
  | .save worker => s.save worker
  | .stop worker => s.setWorker worker {}
  | .retryJob jobId => { s with waiting := s.waiting ++ ((getJob s.rows jobId).bind (retried s.clock)).toList }
  | .resolveJob jobId signedBy evidence =>
    { s with waiting := s.waiting ++ ((getJob s.rows jobId).bind (resolved s.clock signedBy evidence)).toList }
  | .write call => s.write call
  | .giveUp call => { s with waiting := s.waiting.eraseIdx call }
  | .tick seconds => { s with clock := s.clock + seconds }

end JobState

end AlgoTrader.Learning
