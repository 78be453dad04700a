import AlgoTrader.Learning.Jobs
import AlgoTrader.Lib.Table

/-! A learning job is run by one worker at a time and never left behind. That asks of every worker that it marks a
job only while its row is still pending, and that it does not die between marking a job and saving it. -/

namespace AlgoTrader.Learning.JobsRunOnce

open Runs

variable {n : ℕ}

def Running (s : JobState n) (worker : Fin n) (jobId : String) : Prop :=
  (s.workers worker).current.map (·.id) = some jobId

structure Lawful (settings : LearningSettings) (limit : ℤ) (s : JobState n) : Prop where
  once : ∀ v w jobId, Running s v jobId → Running s w jobId → v = w
  selected : ∀ row ∈ s.rows, row.status.isUnfinished = true → (∀ w, ¬ Running s w row.id) →
    row ∈ s.selected settings limit

def unfinished (rows : List LearningJob) : ℕ := rows.countP (·.status.isUnfinished)

def HasRoom (limit : ℤ) (s : JobState n) : Prop := unfinished s.rows < (max limit 1).toNat

/-- A step after which every job is still safe. ``limit`` is how many jobs a call takes on. -/
def Safe (limit : ℤ) (s : JobState n) : JobAction n → Prop
  | .enqueue _ _ _ _ => HasRoom limit s
  | .mark worker => ∀ job ∈ (s.workers worker).todo.head?, (s.workers worker).current = none →
      ∃ row ∈ s.rows, row.id = job.id ∧ row.status = .pending
  | .stop worker => (s.workers worker).current = none
  | .write call => ∀ job ∈ s.waiting[call]?,
      (∀ worker, ¬ Running s worker job.id) ∧ (job.status = .pending → HasRoom limit s)
  | _ => True

instance (s : JobState n) (worker : Fin n) (jobId : String) : Decidable (Running s worker jobId) :=
  inferInstanceAs (Decidable (_ = _))

instance (limit : ℤ) (s : JobState n) : Decidable (HasRoom limit s) := Nat.decLt _ _

instance (limit : ℤ) (s : JobState n) (action : JobAction n) : Decidable (Safe limit s action) := by
  unfold Safe
  cases action <;> infer_instance

section Rows

variable {rows : List LearningJob} {item row : LearningJob}

lemma map_id_updateJob : (updateJob rows item).map (·.id) = rows.map (·.id) := by
  rw [updateJob]
  exact Table.map_key_where fun _ _ => rfl

lemma nodup_updateJob (h : (rows.map (·.id)).Nodup) : ((updateJob rows item).map (·.id)).Nodup := by
  rw [map_id_updateJob]
  exact h

lemma mem_updateJob (h : row ∈ updateJob rows item) :
    (row.id = item.id ∧ row.status = item.status) ∨ (row.id ≠ item.id ∧ row ∈ rows) := by
  obtain ⟨old, hold, rfl⟩ := List.mem_map.mp h
  split_ifs with hid
  · exact .inl ⟨hid, rfl⟩
  · exact .inr ⟨hid, hold⟩

lemma mem_updateJob_other (h : row ∈ rows) (hid : row.id ≠ item.id) : row ∈ updateJob rows item :=
  List.mem_map.mpr ⟨row, h, if_neg hid⟩

lemma exists_updateJob (h : row ∈ rows) (hid : row.id = item.id) :
    ∃ new ∈ updateJob rows item, new.id = item.id ∧ new.status = item.status :=
  ⟨_, List.mem_map_of_mem h, by rw [if_pos hid]; exact ⟨hid, rfl⟩⟩

lemma eq_of_id (hnodup : (rows.map (·.id)).Nodup) {other : LearningJob} (h : row ∈ rows) (hother : other ∈ rows)
    (hid : row.id = other.id) : row = other := List.inj_on_of_nodup_map hnodup h hother hid

lemma unfinished_updateJob_le
    (h : ∀ row ∈ rows, row.id = item.id → item.status.isUnfinished = true → row.status.isUnfinished = true) :
    unfinished (updateJob rows item) ≤ unfinished rows := by
  rw [unfinished, updateJob, List.countP_map]
  refine List.countP_mono_left fun row hrow hnew => ?_
  rw [Function.comp_apply] at hnew
  split_ifs at hnew with hid
  · exact h row hrow hid hnew
  · exact hnew

lemma updateJob_eq_self (h : item.id ∉ rows.map (·.id)) : updateJob rows item = rows := by
  rw [updateJob]
  conv_rhs => rw [← List.map_id rows]
  refine List.map_congr_left fun row hrow => if_neg fun hid => h ?_
  exact hid ▸ List.mem_map_of_mem hrow

lemma unfinished_updateJob_le_succ (hnodup : (rows.map (·.id)).Nodup) :
    unfinished (updateJob rows item) ≤ unfinished rows + 1 := by
  induction rows with
  | nil => simp [updateJob, unfinished]
  | cons first rest ih =>
    rw [List.map_cons, List.nodup_cons] at hnodup
    rw [unfinished, unfinished, List.countP_cons]
    by_cases hid : first.id = item.id
    · obtain ⟨new, hnew⟩ : ∃ new, updateJob (first :: rest) item = new :: updateJob rest item := ⟨_, rfl⟩
      rw [hnew, updateJob_eq_self (hid ▸ hnodup.1), List.countP_cons]
      split <;> split <;> omega
    · have hnew : updateJob (first :: rest) item = first :: updateJob rest item := by
        rw [updateJob, List.map_cons, if_neg hid, updateJob]
      rw [hnew, List.countP_cons]
      have hle := ih hnodup.2
      rw [unfinished, unfinished] at hle
      omega

end Rows

section Workers

variable {s : JobState n} {v w : Fin n} {jobId : String}

lemma running_setWorker {state : JobWorker} : Running (s.setWorker w state) v jobId ↔
    if v = w then state.current.map (·.id) = some jobId else Running s v jobId := by
  rw [Running]
  split_ifs with h
  · rw [h, JobState.setWorker_workers_self]
  · rw [JobState.setWorker_workers_other s w h, Running]

lemma not_running (h : (s.workers w).current = none) : ¬ Running s w jobId := by
  rw [Running, h]
  exact nofun

end Workers

/-- Every running row has the one worker that runs it, and every worker runs a running row. -/
structure Inv (limit : ℤ) (s : JobState n) : Prop where
  ids : (s.rows.map (·.id)).Nodup
  held : ∀ w jobId, Running s w jobId → ∃ row ∈ s.rows, row.id = jobId ∧ row.status = .running
  apart : ∀ v w jobId, Running s v jobId → Running s w jobId → v = w
  holder : ∀ row ∈ s.rows, row.status = .running → ∃ w, Running s w row.id
  waiting : ∀ job ∈ s.waiting, job.status ≠ .running
  room : unfinished s.rows ≤ (max limit 1).toNat

namespace Inv

variable {settings : LearningSettings} {limit : ℤ} {s s' : JobState n}

theorem lawful (h : Inv limit s) (henabled : settings.learningWorkerEnabled = true) : Lawful settings limit s where
  once := h.apart
  selected row hrow hunfinished hfree := by
    have hpending : row.status = .pending := by
      rcases of_decide_eq_true hunfinished with hpending | hrunning
      · exact hpending
      · obtain ⟨w, hw⟩ := h.holder row hrow hrunning
        exact absurd hw (hfree w)
    rw [JobState.selected, if_pos henabled, listJobs, List.take_of_length_le]
    · rw [List.mem_insertionSort, List.mem_filter]
      exact ⟨hrow, by simp [hpending]⟩
    · rw [List.length_insertionSort, ← List.countP_eq_length_filter]
      refine le_trans (List.countP_mono_left fun other _ hother => ?_) h.room
      have hstatus : other.status = .pending := by simpa using hother
      simp [hstatus, JobStatus.isUnfinished]

lemma congr (h : Inv limit s) (hrows : s'.rows = s.rows) (hrunning : ∀ w jobId, Running s' w jobId ↔ Running s w jobId)
    (hwaiting : ∀ job ∈ s'.waiting, job.status ≠ .running) : Inv limit s' where
  ids := hrows ▸ h.ids
  held w jobId hw := hrows ▸ h.held w jobId ((hrunning w jobId).mp hw)
  apart v w jobId hv hw := h.apart v w jobId ((hrunning v jobId).mp hv) ((hrunning w jobId).mp hw)
  holder row hrow hstatus := by
    obtain ⟨w, hw⟩ := h.holder row (hrows ▸ hrow) hstatus
    exact ⟨w, (hrunning w row.id).mpr hw⟩
  waiting := hwaiting
  room := hrows ▸ h.room

lemma enqueueJob (h : Inv limit s) (hroom : HasRoom limit s) {item : LearningJob} (hnew : item.status = .pending) :
    Inv limit (s.enqueueJob item) := by
  rw [JobState.enqueueJob]
  split_ifs with hany
  · exact h
  have hfresh : item.id ∉ s.rows.map (·.id) := by
    intro hmem
    obtain ⟨row, hrow, hid⟩ := List.mem_map.mp hmem
    exact hany (List.any_eq_true.mpr ⟨row, hrow, by simp [hid]⟩)
  exact
    { ids := by
        rw [List.map_append]
        exact List.Nodup.append h.ids (List.nodup_singleton _) (by simpa using hfresh)
      held := fun w jobId hw => by
        obtain ⟨row, hrow, hrow'⟩ := h.held w jobId hw
        exact ⟨row, List.mem_append_left _ hrow, hrow'⟩
      apart := h.apart
      holder := fun row hrow hstatus => by
        rcases List.mem_append.mp hrow with hold | hlast
        · exact h.holder row hold hstatus
        · obtain rfl := List.mem_singleton.mp hlast
          rw [hnew] at hstatus
          cases hstatus
      waiting := h.waiting
      room := by
        rw [HasRoom] at hroom
        rw [unfinished, List.countP_append, ← unfinished]
        have hone := List.countP_le_length (p := fun row : LearningJob => row.status.isUnfinished) (l := [item])
        rw [List.length_singleton] at hone
        omega }

lemma update (h : Inv limit s) {item : LearningJob} (hfree : ∀ w, ¬ Running s w item.id)
    (hstatus : item.status ≠ .running) (hroom : unfinished (updateJob s.rows item) ≤ (max limit 1).toNat)
    {waiting : List LearningJob} (hwaiting : ∀ job ∈ waiting, job.status ≠ .running) :
    Inv limit { s with rows := updateJob s.rows item, waiting := waiting } where
  ids := nodup_updateJob h.ids
  held w jobId hw := by
    obtain ⟨row, hrow, hid, hrunning⟩ := h.held w jobId hw
    exact ⟨row, mem_updateJob_other hrow fun heq => hfree w (heq ▸ hid ▸ hw), hid, hrunning⟩
  apart := h.apart
  holder row hrow hrunning := by
    rcases mem_updateJob hrow with ⟨_, hitem⟩ | ⟨_, hold⟩
    · exact absurd (hitem ▸ hrunning) hstatus
    · exact h.holder row hold hrunning
  waiting := hwaiting
  room := hroom

lemma mark (h : Inv limit s) (worker : Fin n) (hsafe : Safe limit s (.mark worker)) : Inv limit (s.mark worker) := by
  rw [JobState.mark]
  split
  swap
  · exact h
  rename_i job todo completed hworker
  have hidle : (s.workers worker).current = none := by rw [hworker]
  obtain ⟨row, hrow, hid, hpending⟩ := hsafe job (by rw [hworker]; rfl) hidle
  have hfree (w : Fin n) : ¬ Running s w job.id := by
    intro hw
    obtain ⟨other, hother, hotherId, hrunning⟩ := h.held w job.id hw
    obtain rfl := eq_of_id h.ids hrow hother (hid.trans hotherId.symm)
    rw [hpending] at hrunning
    cases hrunning
  set begunJob := begun s.clock job
  have hbegunId : begunJob.id = job.id := rfl
  have hrunning (v : Fin n) (jobId : String) :
      Running { s.setWorker worker ⟨todo, some begunJob, completed⟩ with rows := updateJob s.rows begunJob } v jobId ↔
        if v = worker then job.id = jobId else Running s v jobId := by
    refine Iff.trans running_setWorker ?_
    split_ifs with hv
    · simp [hbegunId]
    · rfl
  constructor
  · exact nodup_updateJob h.ids
  · intro v jobId hv
    rw [hrunning] at hv
    split_ifs at hv with hw
    · exact hv ▸ exists_updateJob hrow hid
    · obtain ⟨other, hother, hotherId, hstatus⟩ := h.held v jobId hv
      refine ⟨other, mem_updateJob_other hother fun heq => hfree v ?_, hotherId, hstatus⟩
      exact hbegunId ▸ heq ▸ hotherId ▸ hv
  · intro v w jobId hv hw
    rw [hrunning] at hv hw
    split_ifs at hv hw with hv' hw' hw'
    · exact hv'.trans hw'.symm
    · exact absurd (hv ▸ hw) (hfree w)
    · exact absurd (hw ▸ hv) (hfree v)
    · exact h.apart v w jobId hv hw
  · intro other hother hstatus
    rcases mem_updateJob hother with ⟨hotherId, _⟩ | ⟨_, hold⟩
    · exact ⟨worker, (hrunning worker other.id).mpr (by rw [if_pos rfl]; exact hotherId.symm)⟩
    · obtain ⟨v, hv⟩ := h.holder other hold hstatus
      refine ⟨v, (hrunning v other.id).mpr ?_⟩
      rw [if_neg fun hworker' => not_running hidle (hworker' ▸ hv)]
      exact hv
  · exact h.waiting
  · refine le_trans (unfinished_updateJob_le fun other hother hotherId _ => ?_) h.room
    obtain rfl := eq_of_id h.ids hrow hother (hid.trans hotherId.symm)
    simp [hpending, JobStatus.isUnfinished]

lemma save (h : Inv limit s) (worker : Fin n) : Inv limit (s.save worker) := by
  rw [JobState.save]
  split
  swap
  · exact h
  rename_i todo job completed hworker
  split_ifs with hstatus
  · exact h
  have hholds : Running s worker job.id := by rw [Running, hworker]; rfl
  set saved := stamped s.clock job
  have hsavedId : saved.id = job.id := rfl
  have hsavedStatus : saved.status = job.status := rfl
  have hrunning (v : Fin n) (jobId : String) :
      Running { s.setWorker worker ⟨todo, none, completed ++ [saved]⟩ with rows := updateJob s.rows saved } v jobId ↔
        v ≠ worker ∧ Running s v jobId := by
    refine Iff.trans running_setWorker ?_
    split_ifs with hv
    · simp [hv]
    · simp [hv]
  constructor
  · exact nodup_updateJob h.ids
  · intro v jobId hv
    obtain ⟨hne, hv⟩ := (hrunning v jobId).mp hv
    obtain ⟨row, hrow, hid, hrow'⟩ := h.held v jobId hv
    refine ⟨row, mem_updateJob_other hrow fun heq => hne ?_, hid, hrow'⟩
    exact h.apart v worker job.id (hsavedId ▸ heq ▸ hid ▸ hv) hholds
  · intro v w jobId hv hw
    exact h.apart v w jobId ((hrunning v jobId).mp hv).2 ((hrunning w jobId).mp hw).2
  · intro row hrow hrow'
    rcases mem_updateJob hrow with ⟨_, hitem⟩ | ⟨hne, hold⟩
    · exact absurd (hsavedStatus ▸ hitem ▸ hrow') hstatus
    · obtain ⟨v, hv⟩ := h.holder row hold hrow'
      refine ⟨v, (hrunning v row.id).mpr ⟨?_, hv⟩⟩
      rintro rfl
      rw [Running, hworker] at hv
      exact hne (Option.some.inj hv).symm
  · exact h.waiting
  · refine le_trans (unfinished_updateJob_le fun row hrow hid _ => ?_) h.room
    obtain ⟨other, hother, hotherId, hrow'⟩ := h.held worker job.id hholds
    obtain rfl := eq_of_id h.ids hrow hother (hid.trans hotherId.symm)
    simp [hrow', JobStatus.isUnfinished]

lemma write (h : Inv limit s) (call : ℕ) (hsafe : Safe limit s (.write call)) : Inv limit (s.write call) := by
  rw [JobState.write]
  split
  swap
  · exact h
  rename_i job hjob
  obtain ⟨hfree, hroom⟩ := hsafe job hjob
  have hstatus := h.waiting job (List.mem_of_getElem? hjob)
  refine h.update hfree hstatus ?_ fun other hother => h.waiting other (List.mem_of_mem_eraseIdx hother)
  by_cases hpending : job.status = .pending
  · have hroom := hroom hpending
    rw [HasRoom] at hroom
    exact le_trans (unfinished_updateJob_le_succ h.ids) hroom
  · refine le_trans (unfinished_updateJob_le fun row _ _ hunfinished => ?_) h.room
    rcases of_decide_eq_true hunfinished with hitem | hitem
    · exact absurd hitem hpending
    · exact absurd hitem hstatus

lemma waiting_append (h : Inv limit s) {read : Option LearningJob} (hread : ∀ job ∈ read, job.status ≠ .running) :
    Inv limit { s with waiting := s.waiting ++ read.toList } := by
  refine h.congr rfl (fun _ _ => Iff.rfl) (List.forall_mem_append.mpr ⟨h.waiting, fun job hjob => ?_⟩)
  exact hread job (Option.mem_toList.mp hjob)

lemma setWorker (h : Inv limit s) (worker : Fin n) {state : JobWorker}
    (hsame : state.current.map (·.id) = (s.workers worker).current.map (·.id)) : Inv limit (s.setWorker worker state) := by
  refine h.congr rfl (fun v jobId => running_setWorker.trans ?_) h.waiting
  split_ifs with hv
  · subst hv
    rw [Running, hsame]
  · rfl

lemma finishRun (h : Inv limit s) (worker : Fin n) (answer : Except String Document) :
    Inv limit (s.finishRun settings worker answer) := by
  rw [JobState.finishRun]
  split
  swap
  · exact h
  rename_i todo job completed hworker
  split_ifs
  · have hid : (ended settings job (runJob job answer)).id = job.id := by cases runJob job answer <;> rfl
    exact h.setWorker worker (by rw [hworker, Option.map_some, hid, Option.map_some])
  · exact h

lemma processJobs (h : Inv limit s) (worker : Fin n) (calls : ℤ) : Inv limit (s.processJobs settings worker calls) := by
  rw [JobState.processJobs]
  split
  · rename_i hworker
    exact h.setWorker worker (by rw [hworker])
  · exact h

theorem step (h : Inv limit s) (action : JobAction n) (hsafe : Safe limit s action) :
    Inv limit (s.step settings action) := by
  cases action with
  | enqueue id idempotencyKey jobType payload => exact h.enqueueJob hsafe rfl
  | processJobs worker calls => exact h.processJobs worker calls
  | mark worker => exact h.mark worker hsafe
  | runJob worker answer => exact h.finishRun worker answer
  | save worker => exact h.save worker
  | stop worker => exact h.setWorker worker (by rw [show (s.workers worker).current = none from hsafe])
  | retryJob jobId =>
    refine h.waiting_append fun job hjob => ?_
    obtain ⟨row, _, hretried⟩ := Option.bind_eq_some_iff.mp hjob
    rw [retried] at hretried
    split_ifs at hretried
    exact Option.some.inj hretried ▸ JobStatus.noConfusion
  | resolveJob jobId signedBy evidence =>
    refine h.waiting_append fun job hjob => ?_
    obtain ⟨row, _, hresolved⟩ := Option.bind_eq_some_iff.mp hjob
    rw [resolved] at hresolved
    split_ifs at hresolved
    exact Option.some.inj hresolved ▸ JobStatus.noConfusion
  | write call => exact h.write call hsafe
  | giveUp call =>
    exact h.congr rfl (fun _ _ => Iff.rfl) fun job hjob => h.waiting job (List.mem_of_mem_eraseIdx hjob)
  | tick seconds => exact h.congr rfl (fun _ _ => Iff.rfl) h.waiting

theorem start : Inv limit ({} : JobState n) where
  ids := List.nodup_nil
  held _ _ hw := absurd hw (not_running rfl)
  apart _ _ _ hv _ := absurd hv (not_running rfl)
  holder _ hrow := absurd hrow List.not_mem_nil
  waiting _ hjob := absurd hjob List.not_mem_nil
  room := Nat.zero_le _

end Inv

/-- No call of a worker or an operator knows the running job any more. -/
structure Stranded (jobId : String) (s : JobState n) : Prop where
  present : ∃ row ∈ s.rows, row.id = jobId
  running : ∀ row ∈ s.rows, row.id = jobId → row.status = .running
  listed : ∀ w, ∀ job ∈ (s.workers w).todo, job.id ≠ jobId
  idle : ∀ w, ¬ Running s w jobId
  unread : ∀ job ∈ s.waiting, job.id ≠ jobId

namespace Stranded

variable {settings : LearningSettings} {limit : ℤ} {s : JobState n} {jobId : String}

theorem not_lawful (h : Stranded jobId s) : ¬ Lawful settings limit s := by
  intro hlawful
  obtain ⟨row, hrow, rfl⟩ := h.present
  have hrunning := h.running row hrow rfl
  have hselected := hlawful.selected row hrow (by simp [hrunning, JobStatus.isUnfinished]) h.idle
  rw [JobState.selected] at hselected
  split_ifs at hselected
  · have hfiltered := (List.mem_insertionSort _).mp (List.mem_of_mem_take hselected)
    simp [hrunning] at hfiltered
  · cases hselected

lemma setWorker (h : Stranded jobId s) (worker : Fin n) {state : JobWorker}
    (hlisted : ∀ job ∈ state.todo, job.id ≠ jobId) (hidle : ∀ job ∈ state.current, job.id ≠ jobId) :
    Stranded jobId (s.setWorker worker state) where
  present := h.present
  running := h.running
  listed w job hjob := by
    by_cases hw : w = worker
    · subst hw
      rw [JobState.setWorker_workers_self] at hjob
      exact hlisted job hjob
    · rw [JobState.setWorker_workers_other s worker hw] at hjob
      exact h.listed w job hjob
  idle w := by
    rw [running_setWorker]
    split_ifs with hw
    · intro hrunning
      obtain ⟨job, hjob, hid⟩ := Option.map_eq_some_iff.mp hrunning
      exact hidle job hjob hid
    · exact h.idle w
  unread := h.unread

lemma update (h : Stranded jobId s) {item : LearningJob} (hother : item.id ≠ jobId) {waiting : List LearningJob}
    (hwaiting : ∀ job ∈ waiting, job.id ≠ jobId) :
    Stranded jobId { s with rows := updateJob s.rows item, waiting := waiting } where
  present := by
    obtain ⟨row, hrow, hid⟩ := h.present
    exact ⟨row, mem_updateJob_other hrow fun heq => hother (heq ▸ hid), hid⟩
  running row hrow hid := by
    rcases mem_updateJob hrow with ⟨hitem, _⟩ | ⟨_, hold⟩
    · exact absurd (hitem.symm.trans hid) hother
    · exact h.running row hold hid
  listed := h.listed
  idle := h.idle
  unread := hwaiting

lemma current_ne (h : Stranded jobId s) {worker : Fin n} {job : LearningJob}
    (hjob : (s.workers worker).current = some job) : job.id ≠ jobId := by
  rintro rfl
  exact h.idle worker (by rw [Running, hjob]; rfl)

lemma waiting_append (h : Stranded jobId s) {read : Option LearningJob} (hread : ∀ job ∈ read, job.id ≠ jobId) :
    Stranded jobId { s with waiting := s.waiting ++ read.toList } := by
  refine ⟨h.present, h.running, h.listed, h.idle, List.forall_mem_append.mpr ⟨h.unread, fun job hjob => ?_⟩⟩
  exact hread job (Option.mem_toList.mp hjob)

lemma processJobs (h : Stranded jobId s) (worker : Fin n) (calls : ℤ) :
    Stranded jobId (s.processJobs settings worker calls) := by
  rw [JobState.processJobs]
  split
  · refine h.setWorker worker (fun job hjob => ?_) nofun
    rintro rfl
    dsimp only at hjob
    rw [JobState.selected] at hjob
    split_ifs at hjob
    · have hfiltered := (List.mem_insertionSort _).mp (List.mem_of_mem_take hjob)
      obtain ⟨hrow, hpending⟩ := List.mem_filter.mp hfiltered
      simp [h.running job hrow rfl] at hpending
    · cases hjob
  · exact h

lemma mark (h : Stranded jobId s) (worker : Fin n) : Stranded jobId (s.mark worker) := by
  rw [JobState.mark]
  split
  swap
  · exact h
  rename_i job todo completed hworker
  have hlisted : ∀ other ∈ job :: todo, other.id ≠ jobId := by
    have hworker' := h.listed worker
    rwa [hworker] at hworker'
  have hjob : (begun s.clock job).id ≠ jobId := hlisted job List.mem_cons_self
  refine (h.setWorker worker (fun other hother => hlisted other (List.mem_cons_of_mem _ hother)) ?_).update hjob h.unread
  intro other hother
  obtain rfl := Option.some.inj hother
  exact hjob

lemma finishRun (h : Stranded jobId s) (worker : Fin n) (answer : Except String Document) :
    Stranded jobId (s.finishRun settings worker answer) := by
  rw [JobState.finishRun]
  split
  swap
  · exact h
  rename_i todo job completed hworker
  split_ifs
  · refine h.setWorker worker (fun other hother => h.listed worker other (by rw [hworker]; exact hother)) ?_
    intro other hother
    obtain rfl := Option.some.inj hother
    have hid : (ended settings job (runJob job answer)).id = job.id := by cases runJob job answer <;> rfl
    rw [hid]
    exact h.current_ne (by rw [hworker])
  · exact h

lemma save (h : Stranded jobId s) (worker : Fin n) : Stranded jobId (s.save worker) := by
  rw [JobState.save]
  split
  swap
  · exact h
  rename_i todo job completed hworker
  split_ifs
  · exact h
  · have hcurrent : (s.workers worker).current = some job := by rw [hworker]
    have hid : job.id ≠ jobId := h.current_ne hcurrent
    have hjob : (stamped s.clock job).id ≠ jobId := hid
    have hfree : Stranded jobId (s.setWorker worker ⟨todo, none, completed ++ [stamped s.clock job]⟩) := by
      refine h.setWorker worker (fun other hother => h.listed worker other ?_) nofun
      rw [hworker]
      exact hother
    exact hfree.update hjob h.unread

lemma enqueueJob (h : Stranded jobId s) (item : LearningJob) : Stranded jobId (s.enqueueJob item) := by
  rw [JobState.enqueueJob]
  split_ifs with hany
  · exact h
  obtain ⟨row, hrow, hid⟩ := h.present
  refine ⟨⟨row, List.mem_append_left _ hrow, hid⟩, fun other hother hotherId => ?_, h.listed, h.idle, h.unread⟩
  rcases List.mem_append.mp hother with hold | hnew
  · exact h.running other hold hotherId
  · have hitem : row.id = item.id := by rw [hid, ← hotherId, List.mem_singleton.mp hnew]
    exact absurd (List.any_eq_true.mpr ⟨row, hrow, by simp [hitem]⟩) hany

theorem step (h : Stranded jobId s) {action : JobAction n} (hretry : action ≠ .retryJob jobId) :
    Stranded jobId (s.step settings action) := by
  cases action with
  | enqueue id idempotencyKey jobType payload => exact h.enqueueJob _
  | processJobs worker calls => exact h.processJobs worker calls
  | mark worker => exact h.mark worker
  | runJob worker answer => exact h.finishRun worker answer
  | save worker => exact h.save worker
  | stop worker => exact h.setWorker worker nofun nofun
  | retryJob other =>
    refine h.waiting_append fun job hjob => ?_
    obtain ⟨row, hrow, hretried⟩ := Option.bind_eq_some_iff.mp hjob
    rw [retried] at hretried
    split_ifs at hretried
    obtain rfl := Option.some.inj hretried
    have hid : row.id = other := by simpa using List.find?_some hrow
    exact fun heq => hretry (congrArg JobAction.retryJob (hid.symm.trans heq))
  | resolveJob other signedBy evidence =>
    refine h.waiting_append fun job hjob => ?_
    obtain ⟨row, hrow, hresolved⟩ := Option.bind_eq_some_iff.mp hjob
    rw [resolved] at hresolved
    split_ifs at hresolved with hrefused
    obtain rfl := Option.some.inj hresolved
    intro heq
    have hrunning := h.running row (List.mem_of_find?_eq_some hrow) heq
    exact hrefused (.inr (.inr (by rw [hrunning]; exact nofun)))
  | write call =>
    change Stranded jobId (s.write call)
    rw [JobState.write]
    split
    · rename_i job hjob
      exact h.update (h.unread job (List.mem_of_getElem? hjob))
        fun other hother => h.unread other (List.mem_of_mem_eraseIdx hother)
    · exact h
  | giveUp call =>
    exact ⟨h.present, h.running, h.listed, h.idle, fun job hjob => h.unread job (List.mem_of_mem_eraseIdx hjob)⟩
  | tick seconds => exact ⟨h.present, h.running, h.listed, h.idle, h.unread⟩

theorem run (h : Stranded jobId s) {actions : List (JobAction n)} (hretry : .retryJob jobId ∉ actions) :
    Stranded jobId (run (JobState.step settings) s actions) := by
  have hall : Allowed (JobState.step settings) (fun _ action => action ≠ .retryJob jobId) s actions :=
    allowed_of_forall fun action haction heq => hretry (heq ▸ haction)
  exact invariant (I := Stranded jobId) (fun _ _ hinv hne => hinv.step hne) h hall

end Stranded

theorem run_once (settings : LearningSettings) (limit : ℤ) (actions : List (JobAction n))
    (henabled : settings.learningWorkerEnabled = true)
    (h : Allowed (JobState.step settings) (Safe limit) {} actions) :
    Always (JobState.step settings) (Lawful settings limit) {} actions :=
  always_of_allowed (fun _ action hinv hsafe => hinv.step action hsafe) (fun _ hinv => hinv.lawful henabled) Inv.start h

def enabled : LearningSettings := { learningWorkerEnabled := true }

-- Two workers list the job. The first one runs it and fails, so that it is pending again when the second begins,
-- which counts its try from the row it had listed.
def tryInTurn {n : ℕ} (first second : Fin n) : List (JobAction n) :=
  [.enqueue "learningjob_1" "counterfactual:2026-01-05" "counterfactual_labels" [], .processJobs first 10,
    .processJobs second 10, .mark first, .runJob first (.error "no bars"), .save first, .mark second,
    .runJob second (.ok []), .save second]

theorem run_once_try_in_turn :
    Allowed (JobState.step enabled) (Safe 10) {} (tryInTurn (0 : Fin 2) 1) ∧
    Always (JobState.step enabled) (Lawful enabled 10) {} (tryInTurn (0 : Fin 2) 1) ∧
    (Runs.run (JobState.step enabled) {} (tryInTurn (0 : Fin 2) 1)).rows.map (fun row => (row.status, row.attempts)) =
      [(.completed, 1)] := by
  have hsafe : Allowed (JobState.step enabled) (Safe 10) {} (tryInTurn (0 : Fin 2) 1) := by decide +kernel
  exact ⟨hsafe, run_once enabled 10 _ rfl hsafe, by decide +kernel⟩

def oneJob {n : ℕ} (worker : Fin n) : List (JobAction n) :=
  [.enqueue "learningjob_1" "counterfactual:2026-01-05" "counterfactual_labels" [], .processJobs worker 10, .mark worker]

/-- Two workers that list the pending job both run it, and a worker that dies leaves it behind for good. -/
theorem run_twice_or_never :
    ¬ Always (JobState.step enabled) (Lawful enabled 10) {}
      [.enqueue "learningjob_1" "counterfactual:2026-01-05" "counterfactual_labels" [],
        .processJobs 0 10, .processJobs 1 10, .mark 0, .mark (1 : Fin 2)] ∧
    ∀ later : List (JobAction 2), .retryJob "learningjob_1" ∉ later →
      ¬ Always (JobState.step enabled) (Lawful enabled 10) {} (oneJob (0 : Fin 2) ++ .stop 0 :: later) := by
  constructor
  · intro h
    exact absurd (h.last.once 0 1 "learningjob_1" rfl rfl) (by decide)
  · intro later hretry h
    have hstranded :
        Stranded "learningjob_1" (Runs.run (JobState.step enabled) {} (oneJob (0 : Fin 2) ++ [.stop 0])) := by
      refine ⟨⟨_, List.mem_cons_self, rfl⟩, fun row hrow _ => ?_, fun w job hjob => ?_, fun w => ?_, fun job hjob => ?_⟩
      · obtain rfl := List.mem_singleton.mp hrow
        rfl
      · match w with
        | 0 => cases hjob
        | 1 => cases hjob
      · match w with
        | 0 => exact nofun
        | 1 => exact nofun
      · cases hjob
    have hlast := h.last
    rw [List.append_cons, run_append] at hlast
    exact (hstranded.run hretry).not_lawful hlast

end AlgoTrader.Learning.JobsRunOnce
