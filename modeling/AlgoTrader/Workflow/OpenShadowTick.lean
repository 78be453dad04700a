import AlgoTrader.Lib.Runs
import AlgoTrader.Workflow.OpenShadowSlots
import Mathlib.Logic.Function.Basic

/-! The ticks of the open shadow (``app/workflow/open_shadow.py``): one record for each session date,
worked on tick by tick from its cursor, and closed once. -/

namespace AlgoTrader.Workflow.OpenShadow

open Broker.Etoro

inductive Status
  | running
  | complete
  | incompleteAtDeadline
  | missedDeadline
  | noWatchlist
  | watchlistUnreadable
  | watchlistWrongDate
  | watchlistNotFinal
  | watchlistMissedCutoff
  deriving DecidableEq, Repr

def Status.final (status : Status) : Bool := status ≠ .running

structure Candidate where
  symbol : String
  strategy : String
  specKey : String
  kind : String
  signalBarTs : String
  entry : ℚ
  stop : ℚ
  target : ℚ
  rr : Option ℚ
  oosExpectancyR : Option ℚ
  copyEdgeReason : Option String
  copyRuleReasons : List String
  deriving DecidableEq, Repr

structure Quoted where
  entryAtQuote : ℚ
  entryDriftBps : ℚ
  driftFromSignalOk : Bool
  rrAtQuote : Option ℚ
  etoroAmountUsd : Option ℚ
  etoroCopyReasons : List String
  deriving DecidableEq, Repr

inductive Verdict
  | unavailable (reason : String)
  | mismatch (reasons : List String)
  | gateFailed (reasons : List String)
  | entered (quoted : Quoted)
  deriving DecidableEq, Repr

structure Result where
  candidate : Candidate
  verdict : Verdict
  deriving DecidableEq, Repr

def Result.row? (result : Result) : Option Row :=
  match result.verdict with
  | .entered quoted => some {
      symbol := result.candidate.symbol
      strategy := result.candidate.strategy
      specKey := result.candidate.specKey
      kind := result.candidate.kind
      entryAtQuote := quoted.entryAtQuote
      entryDriftBps := quoted.entryDriftBps
      stop := result.candidate.stop
      target := result.candidate.target
      rrAtQuote := quoted.rrAtQuote
      oosExpectancyR := result.candidate.oosExpectancyR
      etoroAmountUsd := quoted.etoroAmountUsd
      etoroCopyRulesOk := quoted.etoroCopyReasons.isEmpty
      driftFromSignalOk := quoted.driftFromSignalOk }
  | _ => none

/-- ``marked`` and ``driftGated`` are what ``_finalize`` makes of the results. -/
structure Record where
  sessionDate : ℤ
  status : Status
  reason : Option String
  runId : String
  cursor : ℕ
  ticks : ℕ
  candidates : List Candidate
  results : List Result
  account : Option Account
  pausedReason : Option String
  marked : List (Row × Mark)
  driftGated : List (Row × Mark)
  deriving DecidableEq

def Record.new (sessionDate : ℤ) (status : Status) (reason : Option String) (runId : String) : Record :=
  { sessionDate, status, reason, runId, cursor := 0, ticks := 0, candidates := [], results := [], account := none
    pausedReason := none, marked := [], driftGated := [] }

def Record.resumable (record : Record) (sessionDate : ℤ) : Bool :=
  record.sessionDate = sessionDate ∧ record.status = .running ∧ record.cursor ≤ record.candidates.length ∧
    record.results.length = record.cursor ∧ record.account.isSome

/-- How the check of one candidate ends. After ``raised`` the tick ends with an exception. -/
inductive Answer
  | verdict (verdict : Verdict)
  | rateLimited
  | noAnswer
  | raised
  deriving DecidableEq, Repr

def Record.add (record : Record) (candidate : Candidate) (verdict : Verdict) : Record :=
  { record with results := record.results ++ [⟨candidate, verdict⟩], cursor := record.cursor + 1 }

/-- The loop over the candidates, until the list ends or the tick's budget does: then no answer is left. -/
def processFrom (record : Record) : List Answer → Record × Bool
  | [] => (record, false)
  | answer :: rest =>
    match record.candidates[record.cursor]? with
    | none => (record, false)
    | some candidate =>
      match answer with
      | .verdict verdict => processFrom (record.add candidate verdict) rest
      | .rateLimited => ({ record with pausedReason := some "etoro_rate_limit" }, false)
      | .noAnswer => (record, false)
      | .raised => (record, true)

def process (record : Record) (answers : List Answer) : Record × Bool :=
  processFrom { record with pausedReason := none } answers

def enteredRows (record : Record) : List Row := record.results.filterMap Result.row?

def Record.etoro (record : Record) : Account := record.account.getD ⟨none, none, [], [], 0, []⟩

def finalize (settings : Settings) (record : Record) (complete : Bool) : Record :=
  { record with
    marked := slots settings (enteredRows record) record.etoro
    driftGated := slots settings ((enteredRows record).filter Row.driftFromSignalOk) record.etoro
    status := if complete then .complete else .incompleteAtDeadline }

inductive Refusal
  | noWatchlist
  | unreadable
  | wrongDate
  | notFinal
  | missedCutoff
  deriving DecidableEq, Repr

def Refusal.status : Refusal → Status
  | .noWatchlist => .noWatchlist
  | .unreadable => .watchlistUnreadable
  | .wrongDate => .watchlistWrongDate
  | .notFinal => .watchlistNotFinal
  | .missedCutoff => .watchlistMissedCutoff

inductive Started
  | raised
  | refused (refusal : Refusal)
  | running (candidates : List Candidate) (account : Account)

/-- What a tick finds: the time in New York, the stored inputs, the answers of the checks it has time
for, and which of its calls to the store and the log fail. -/
structure Tick where
  enabled : Bool
  deferred : Bool
  date : ℤ
  weekend : Bool
  minute : ℕ
  opens : ℕ
  secondsLeft : ℚ
  marketOpenScanned : Bool
  runId : String
  start : Started
  answers : List Answer
  readFails : Bool := false
  closeReadFails : Bool := false
  saveFails : Bool := false
  logFails : Bool := false

inductive LogEntry
  | completed (record : Record)
  | error (date : ℤ)
  deriving DecidableEq

structure Shadow where
  stored : ℤ → Option Record
  done : Option ℤ
  errorDay : Option ℤ
  log : List LogEntry

def Shadow.start : Shadow := ⟨fun _ => none, none, none, []⟩

def deadlineMinute : ℕ := 630
def closeOutEnds : ℕ := 960
def minStartSeconds : ℚ := 55

section Tick

variable (settings : Settings)

def save (s : Shadow) (record : Record) : Shadow :=
  { s with stored := Function.update s.stored record.sessionDate (some record) }

def close (s : Shadow) (t : Tick) (record : Record) : Shadow × Bool :=
  if t.closeReadFails then (s, true)
  else if (s.stored record.sessionDate).any (·.status.final) then ({ s with done := some record.sessionDate }, false)
  else if t.saveFails then (s, true)
  else
    let saved := { save s record with done := some record.sessionDate }
    if t.logFails then (saved, true) else ({ saved with log := saved.log ++ [.completed record] }, false)

def pastDeadline (t : Tick) : Bool := deadlineMinute ≤ t.minute

def work (s : Shadow) (t : Tick) (record : Record) : Shadow × Bool :=
  let processed := if pastDeadline t then (record, false)
    else process { record with ticks := record.ticks + 1 } t.answers
  if processed.2 then (s, true)
  else
    let finished := processed.1.candidates.length ≤ processed.1.cursor
    if ¬ finished ∧ ¬ pastDeadline t then
      if t.saveFails then (s, true) else (save s processed.1, false)
    else close s t (finalize settings processed.1 finished)

def begin_ (s : Shadow) (t : Tick) : Shadow × Bool :=
  if pastDeadline t then
    close s t (Record.new t.date .missedDeadline
      (some (if t.marketOpenScanned then "not_started" else "market_open_scan_not_completed")) t.runId)
  else
    match t.start with
    | .raised => (s, true)
    | .refused refusal => close s t (Record.new t.date refusal.status none t.runId)
    | .running candidates account =>
      work settings s t
        { Record.new t.date .running none t.runId with candidates := candidates, account := some account }

def idle (s : Shadow) (t : Tick) : Bool :=
  !t.enabled || t.deferred || t.weekend || s.done == some t.date || t.minute < t.opens ||
    closeOutEnds ≤ t.minute || t.secondsLeft < minStartSeconds

def tickBody (s : Shadow) (t : Tick) : Shadow × Bool :=
  if idle s t then (s, false)
  else if t.readFails then (s, true)
  else if (s.stored t.date).any (·.status.final) then ({ s with done := some t.date }, false)
  else if ¬ t.marketOpenScanned ∧ ¬ pastDeadline t then (s, false)
  else
    match (s.stored t.date).filter (·.resumable t.date) with
    | some record => work settings s t record
    | none => begin_ settings s t

def reportError (s : Shadow) (t : Tick) : Shadow :=
  if s.errorDay = some t.date then s
  else
    { s with
      errorDay := some t.date
      log := if t.logFails then s.log else s.log ++ [.error t.date] }

def tick (s : Shadow) (t : Tick) : Shadow :=
  let ticked := tickBody settings s t
  if ticked.2 then reportError ticked.1 t else ticked.1

inductive Action
  | tick (tick : Tick)
  | restart

def step (s : Shadow) : Action → Shadow
  | .tick t => tick settings s t
  | .restart => { s with done := none, errorDay := none }

end Tick

/-- What the record of a date says: the candidates up to the cursor are the ones checked, in their
order, and the ranking of a closed day is that of all it checked. -/
structure Kept (settings : Settings) (date : ℤ) (record : Record) : Prop where
  date : record.sessionDate = date
  checked : record.results.map Result.candidate = record.candidates.take record.cursor
  cursor : record.cursor ≤ record.candidates.length
  account : record.status = .running → record.account.isSome = true
  complete : record.status = .complete → record.cursor = record.candidates.length
  incomplete : record.status = .incompleteAtDeadline → record.cursor < record.candidates.length
  ranking : record.status = .complete ∨ record.status = .incompleteAtDeadline →
    record.marked = slots settings (enteredRows record) record.etoro ∧
      record.driftGated = slots settings ((enteredRows record).filter Row.driftFromSignalOk) record.etoro

/-- How a record goes on: its setups stay the same, nothing checked is lost, and a closed one stays. -/
structure Carried (record later : Record) : Prop where
  runId : later.runId = record.runId
  candidates : later.candidates = record.candidates
  account : later.account = record.account
  results : record.results <+: later.results
  closed : record.status.final = true → later = record

lemma Carried.refl (record : Record) : Carried record record :=
  ⟨rfl, rfl, rfl, List.prefix_rfl, fun _ => rfl⟩

lemma Carried.trans {record later last : Record} (h : Carried record later) (h' : Carried later last) :
    Carried record last where
  runId := h'.runId.trans h.runId
  candidates := h'.candidates.trans h.candidates
  account := h'.account.trans h.account
  results := h.results.trans h'.results
  closed := fun hfinal => by
    obtain rfl := h.closed hfinal
    exact h'.closed hfinal

section Process

variable {settings : Settings} {date : ℤ} {record : Record}

lemma Kept.length (h : Kept settings date record) : record.results.length = record.cursor := by
  rw [← List.length_map Result.candidate, h.checked, List.length_take, Nat.min_eq_left h.cursor]

lemma resumable_iff : record.resumable date = true ↔ record.sessionDate = date ∧ record.status = .running ∧
    record.cursor ≤ record.candidates.length ∧ record.results.length = record.cursor ∧
      record.account.isSome = true := by
  simp only [Record.resumable, decide_eq_true_eq]

lemma Kept.resumable (h : Kept settings date record) (hrunning : record.status = .running) :
    record.resumable date = true :=
  resumable_iff.mpr ⟨h.date, hrunning, h.cursor, h.length, h.account hrunning⟩

structure Checked (record processed : Record) : Prop where
  date : processed.sessionDate = record.sessionDate
  status : processed.status = record.status
  runId : processed.runId = record.runId
  candidates : processed.candidates = record.candidates
  account : processed.account = record.account
  results : record.results <+: processed.results
  checked : record.results.map Result.candidate = record.candidates.take record.cursor →
    processed.results.map Result.candidate = processed.candidates.take processed.cursor
  cursor : record.cursor ≤ record.candidates.length → processed.cursor ≤ processed.candidates.length

lemma Checked.same {processed : Record} (hdate : processed.sessionDate = record.sessionDate)
    (hstatus : processed.status = record.status) (hrun : processed.runId = record.runId)
    (hcandidates : processed.candidates = record.candidates) (haccount : processed.account = record.account)
    (hresults : processed.results = record.results) (hcursor : processed.cursor = record.cursor) :
    Checked record processed where
  date := hdate
  status := hstatus
  runId := hrun
  candidates := hcandidates
  account := haccount
  results := by rw [hresults]
  checked := fun h => by rw [hresults, hcandidates, hcursor, h]
  cursor := fun h => by rw [hcandidates, hcursor]; exact h

lemma Checked.trans {processed last : Record} (h : Checked record processed) (h' : Checked processed last) :
    Checked record last where
  date := h'.date.trans h.date
  status := h'.status.trans h.status
  runId := h'.runId.trans h.runId
  candidates := h'.candidates.trans h.candidates
  account := h'.account.trans h.account
  results := h.results.trans h'.results
  checked := fun hchecked => h'.checked (h.checked hchecked)
  cursor := fun hcursor => h'.cursor (h.cursor hcursor)

lemma checked_add {candidate : Candidate} (verdict : Verdict)
    (hnext : record.candidates[record.cursor]? = some candidate) : Checked record (record.add candidate verdict) where
  date := rfl
  status := rfl
  runId := rfl
  candidates := rfl
  account := rfl
  results := List.prefix_append _ _
  checked := fun h => by
    simp only [Record.add, List.map_append, List.map_cons, List.map_nil, h]
    rw [List.take_add_one, hnext]
    rfl
  cursor := fun _ => (List.getElem?_eq_some_iff.mp hnext).1

lemma checked_processFrom (answers : List Answer) : Checked record (processFrom record answers).1 := by
  induction answers generalizing record with
  | nil => exact Checked.same rfl rfl rfl rfl rfl rfl rfl
  | cons answer rest ih =>
    rw [processFrom]
    split
    · exact Checked.same rfl rfl rfl rfl rfl rfl rfl
    · rename_i candidate hnext
      cases answer with
      | verdict verdict => exact (checked_add verdict hnext).trans ih
      | rateLimited => exact Checked.same rfl rfl rfl rfl rfl rfl rfl
      | noAnswer => exact Checked.same rfl rfl rfl rfl rfl rfl rfl
      | raised => exact Checked.same rfl rfl rfl rfl rfl rfl rfl

lemma checked_process (answers : List Answer) : Checked record (process record answers).1 := by
  have hpaused : Checked record { record with pausedReason := none } := Checked.same rfl rfl rfl rfl rfl rfl rfl
  exact hpaused.trans (checked_processFrom answers)

lemma final_running (h : record.status = .running) : record.status.final ≠ true := by
  rw [h]
  decide

lemma Checked.carried {processed : Record} (h : Checked record processed) (hrunning : record.status = .running) :
    Carried record processed :=
  ⟨h.runId, h.candidates, h.account, h.results, fun hfinal => absurd hfinal (final_running hrunning)⟩

lemma Checked.kept {processed : Record} (h : Checked record processed) (hkept : Kept settings date record)
    (hrunning : record.status = .running) : Kept settings date processed := by
  have hstatus : processed.status = .running := h.status.trans hrunning
  exact {
    date := h.date.trans hkept.date
    checked := h.checked hkept.checked
    cursor := h.cursor hkept.cursor
    account := fun _ => by rw [h.account, hkept.account hrunning]
    complete := fun hcomplete => nomatch hstatus.symm.trans hcomplete
    incomplete := fun hincomplete => nomatch hstatus.symm.trans hincomplete
    ranking := fun hclosed => by rw [hstatus] at hclosed; rcases hclosed with h | h <;> exact nomatch h }

lemma carried_finalize (complete : Bool) (hrunning : record.status = .running) :
    Carried record (finalize settings record complete) :=
  ⟨rfl, rfl, rfl, List.prefix_rfl, fun hfinal => absurd hfinal (final_running hrunning)⟩

lemma final_finalize (complete : Bool) : (finalize settings record complete).status.final = true := by
  cases complete <;> rfl

lemma kept_finalize (hkept : Kept settings date record) {complete : Bool}
    (hcomplete : complete = true ↔ record.candidates.length ≤ record.cursor) :
    Kept settings date (finalize settings record complete) where
  date := hkept.date
  checked := hkept.checked
  cursor := hkept.cursor
  account := fun h => by cases complete <;> exact nomatch h
  complete := fun h => by
    cases complete with
    | false => exact nomatch h
    | true => exact le_antisymm hkept.cursor (hcomplete.mp rfl)
  incomplete := fun h => by
    cases complete with
    | true => exact nomatch h
    | false => exact not_le.mp fun hle => nomatch hcomplete.mpr hle
  ranking := fun _ => ⟨rfl, rfl⟩

lemma kept_new {status : Status} (reason : Option String) (runId : String) (hcomplete : status ≠ .complete)
    (hincomplete : status ≠ .incompleteAtDeadline) (hrunning : status ≠ .running) :
    Kept settings date (Record.new date status reason runId) where
  date := rfl
  checked := rfl
  cursor := le_rfl
  account := fun h => absurd h hrunning
  complete := fun h => absurd h hcomplete
  incomplete := fun h => absurd h hincomplete
  ranking := fun h => absurd h (not_or.mpr ⟨hcomplete, hincomplete⟩)

lemma kept_started (runId : String) (candidates : List Candidate) (account : Account) :
    Kept settings date { Record.new date .running none runId with
      candidates := candidates, account := some account } where
  date := rfl
  checked := rfl
  cursor := Nat.zero_le _
  account := fun _ => rfl
  complete := fun h => nomatch h
  incomplete := fun h => nomatch h
  ranking := fun h => by rcases h with h | h <;> exact nomatch h

end Process

def completedDates (log : List LogEntry) : List ℤ :=
  log.filterMap fun entry =>
    match entry with
    | .completed record => some record.sessionDate
    | .error _ => none

structure Sound (settings : Settings) (s : Shadow) : Prop where
  kept : ∀ date record, s.stored date = some record → Kept settings date record
  done : ∀ date, s.done = some date → ∃ record, s.stored date = some record ∧ record.status.final = true
  logged : ∀ record, .completed record ∈ s.log →
    s.stored record.sessionDate = some record ∧ record.status.final = true
  once : (completedDates s.log).Nodup

def Grown (s s' : Shadow) : Prop :=
  ∀ date record, s.stored date = some record → ∃ later, s'.stored date = some later ∧ Carried record later

lemma Grown.refl (s : Shadow) : Grown s s := fun _ record h => ⟨record, h, Carried.refl record⟩

lemma Grown.trans {s s' s'' : Shadow} (h : Grown s s') (h' : Grown s' s'') : Grown s s'' := by
  intro date record hrecord
  obtain ⟨later, hlater, hcarried⟩ := h date record hrecord
  obtain ⟨last, hlast, hcarried'⟩ := h' date later hlater
  exact ⟨last, hlast, hcarried.trans hcarried'⟩

section Step

variable {settings : Settings} {s : Shadow} {t : Tick} {record : Record}

lemma stored_save_self (s : Shadow) (record : Record) :
    (save s record).stored record.sessionDate = some record := Function.update_self _ _ _

lemma stored_save_of_ne {date : ℤ} (hdate : date ≠ record.sessionDate) :
    (save s record).stored date = s.stored date := Function.update_of_ne hdate _ _

lemma grown_save (hcarried : ∀ old, s.stored record.sessionDate = some old → Carried old record) :
    Grown s (save s record) := by
  intro date old hold
  by_cases hdate : date = record.sessionDate
  · subst hdate
    exact ⟨record, stored_save_self s record, hcarried old hold⟩
  · exact ⟨old, (stored_save_of_ne hdate).trans hold, Carried.refl old⟩

lemma Sound.save (h : Sound settings s) (hkept : Kept settings record.sessionDate record)
    (hopen : ∀ old, s.stored record.sessionDate = some old → old.status.final ≠ true) :
    Sound settings (save s record) where
  kept := fun date other hother => by
    by_cases hdate : date = record.sessionDate
    · subst hdate
      have heq : record = other := Option.some.inj ((stored_save_self s record).symm.trans hother)
      exact heq ▸ hkept
    · exact h.kept date other ((stored_save_of_ne hdate).symm.trans hother)
  done := fun date hdone => by
    obtain ⟨other, hother, hfinal⟩ := h.done date hdone
    by_cases hdate : date = record.sessionDate
    · exact absurd hfinal (hopen other (hdate ▸ hother))
    · exact ⟨other, (stored_save_of_ne hdate).trans hother, hfinal⟩
  logged := fun other hother => by
    obtain ⟨hstored, hfinal⟩ := h.logged other hother
    have hdate : other.sessionDate ≠ record.sessionDate := fun heq => hopen other (heq ▸ hstored) hfinal
    exact ⟨(stored_save_of_ne hdate).trans hstored, hfinal⟩
  once := h.once

lemma Sound.setDone (h : Sound settings s) {date : ℤ} {closed : Record} (hstored : s.stored date = some closed)
    (hfinal : closed.status.final = true) : Sound settings { s with done := some date } where
  kept := h.kept
  done := fun _ hdone => ⟨closed, Option.some.inj hdone ▸ hstored, hfinal⟩
  logged := h.logged
  once := h.once

lemma mem_completedDates {log : List LogEntry} {date : ℤ} :
    date ∈ completedDates log ↔ ∃ record, .completed record ∈ log ∧ record.sessionDate = date := by
  rw [completedDates, List.mem_filterMap]
  constructor
  · rintro ⟨entry, hentry, hdate⟩
    cases entry with
    | completed record => exact ⟨record, hentry, Option.some.inj hdate⟩
    | error day => exact nomatch hdate
  · rintro ⟨record, hrecord, rfl⟩
    exact ⟨.completed record, hrecord, rfl⟩

lemma Sound.logCompleted (h : Sound settings s) (hstored : s.stored record.sessionDate = some record)
    (hfinal : record.status.final = true) (hnew : record.sessionDate ∉ completedDates s.log) :
    Sound settings { s with log := s.log ++ [.completed record] } where
  kept := h.kept
  done := h.done
  logged := fun other hother => by
    rcases List.mem_append.mp hother with hearlier | hlast
    · exact h.logged other hearlier
    · obtain rfl : other = record := LogEntry.completed.inj (List.mem_singleton.mp hlast)
      exact ⟨hstored, hfinal⟩
  once := by
    have hdates : completedDates (s.log ++ [.completed record]) = completedDates s.log ++ [record.sessionDate] :=
      List.filterMap_append
    rw [hdates, List.nodup_append]
    refine ⟨h.once, List.nodup_singleton _, fun date hdate other hother heq => hnew ?_⟩
    rwa [heq, List.mem_singleton.mp hother] at hdate

lemma Sound.open_not_logged (h : Sound settings s)
    (hopen : ∀ old, s.stored record.sessionDate = some old → old.status.final ≠ true) :
    record.sessionDate ∉ completedDates s.log := by
  intro hmem
  obtain ⟨other, hother, hdate⟩ := mem_completedDates.mp hmem
  obtain ⟨hstored, hfinal⟩ := h.logged other hother
  exact hopen other (hdate ▸ hstored) hfinal

lemma Sound.close (h : Sound settings s) (hkept : Kept settings record.sessionDate record)
    (hfinal : record.status.final = true)
    (hcarried : ∀ old, s.stored record.sessionDate = some old → Carried old record) :
    Sound settings (close s t record).1 ∧ Grown s (close s t record).1 := by
  rw [OpenShadow.close]
  split_ifs with hread hclosed hsave hlog
  · exact ⟨h, Grown.refl s⟩
  · obtain ⟨closed, hstored, hclosed⟩ := (Option.any_eq_true _ _).mp hclosed
    exact ⟨h.setDone hstored hclosed, Grown.refl s⟩
  · exact ⟨h, Grown.refl s⟩
  all_goals
    have hopen : ∀ old, s.stored record.sessionDate = some old → old.status.final ≠ true :=
      fun old hold hfinal => hclosed ((Option.any_eq_true _ _).mpr ⟨old, hold, hfinal⟩)
    have hself := stored_save_self s record
    have hsaved := (h.save hkept hopen).setDone hself hfinal
  · exact ⟨hsaved, grown_save hcarried⟩
  · exact ⟨hsaved.logCompleted hself hfinal (h.open_not_logged hopen), grown_save hcarried⟩

lemma Sound.work (h : Sound settings s) (hkept : Kept settings t.date record) (hrunning : record.status = .running)
    (hopen : ∀ old, s.stored t.date = some old → old = record) :
    Sound settings (work settings s t record).1 ∧ Grown s (work settings s t record).1 := by
  have hchecked (processed : Record × Bool) (hprocessed : processed = if pastDeadline t then (record, false)
      else process { record with ticks := record.ticks + 1 } t.answers) : Checked record processed.1 := by
    rw [hprocessed]
    split_ifs with hpast
    · exact Checked.same rfl rfl rfl rfl rfl rfl rfl
    · have hticks : Checked record { record with ticks := record.ticks + 1 } :=
        Checked.same rfl rfl rfl rfl rfl rfl rfl
      exact hticks.trans (checked_process t.answers)
  rw [OpenShadow.work]
  generalize hprocessed : (if pastDeadline t then (record, false)
      else process { record with ticks := record.ticks + 1 } t.answers) = processed
  have hstep := hchecked processed hprocessed.symm
  have hnext := hstep.kept hkept hrunning
  have hstatus : processed.1.status = .running := hstep.status.trans hrunning
  dsimp only
  split_ifs with hraised hgoesOn hsave
  · exact ⟨h, Grown.refl s⟩
  · exact ⟨h, Grown.refl s⟩
  · have hold : ∀ old, s.stored processed.1.sessionDate = some old → old = record :=
      fun old hold => hopen old (hnext.date ▸ hold)
    exact ⟨h.save (hnext.date.symm ▸ hnext) fun old hmem => by rw [hold old hmem]; exact final_running hrunning,
      grown_save fun old hmem => by rw [hold old hmem]; exact hstep.carried hrunning⟩
  · have hclosed : Kept settings t.date (finalize settings processed.1
        (decide (processed.1.candidates.length ≤ processed.1.cursor))) := kept_finalize hnext decide_eq_true_iff
    have hcarried : Carried record (finalize settings processed.1
        (decide (processed.1.candidates.length ≤ processed.1.cursor))) :=
      (hstep.carried hrunning).trans (carried_finalize _ hstatus)
    refine h.close (hclosed.date.symm ▸ hclosed) (final_finalize _) fun old hold => ?_
    rw [hopen old (hclosed.date ▸ hold)]
    exact hcarried

lemma Sound.begin_ (h : Sound settings s) (hnone : s.stored t.date = none) :
    Sound settings (begin_ settings s t).1 ∧ Grown s (begin_ settings s t).1 := by
  have hnew (record : Record) (hdate : record.sessionDate = t.date) :
      ∀ old, s.stored record.sessionDate = some old → Carried old record := by
    intro old hold
    rw [hdate, hnone] at hold
    exact nomatch hold
  rw [OpenShadow.begin_]
  by_cases hpast : pastDeadline t = true
  · rw [if_pos hpast]
    exact h.close (kept_new _ _ (by decide) (by decide) (by decide)) rfl (hnew _ rfl)
  · rw [if_neg hpast]
    cases t.start with
    | raised => exact ⟨h, Grown.refl s⟩
    | refused refusal =>
      have hkept : Kept settings t.date (Record.new t.date refusal.status none t.runId) := by
        refine kept_new none t.runId ?_ ?_ ?_ <;> cases refusal <;> decide
      exact h.close hkept (by cases refusal <;> rfl) (hnew _ rfl)
    | running candidates account =>
      refine h.work (kept_started t.runId candidates account) rfl fun old hold => ?_
      rw [hnone] at hold
      exact nomatch hold

lemma Sound.tickBody (h : Sound settings s) :
    Sound settings (tickBody settings s t).1 ∧ Grown s (tickBody settings s t).1 := by
  rw [OpenShadow.tickBody]
  split_ifs with hidle hread hclosed hwaits
  · exact ⟨h, Grown.refl s⟩
  · exact ⟨h, Grown.refl s⟩
  · obtain ⟨closed, hstored, hfinal⟩ := (Option.any_eq_true _ _).mp hclosed
    exact ⟨h.setDone hstored hfinal, Grown.refl s⟩
  · exact ⟨h, Grown.refl s⟩
  · cases hstored : s.stored t.date with
    | none => exact h.begin_ hstored
    | some record =>
      have hkept := h.kept t.date record hstored
      have hrunning : record.status = .running := by
        by_contra hstatus
        exact hclosed ((Option.any_eq_true _ _).mpr ⟨record, hstored, decide_eq_true hstatus⟩)
      have hresume : (some record).filter (·.resumable t.date) = some record :=
        Option.filter_some_pos (hkept.resumable hrunning)
      rw [hresume]
      exact h.work hkept hrunning fun old hold => Option.some.inj (hold.symm.trans hstored)

lemma Sound.logError (h : Sound settings s) (date : ℤ) :
    Sound settings { s with log := s.log ++ [.error date] } where
  kept := h.kept
  done := h.done
  logged := fun record hrecord => h.logged record <|
    (List.mem_append.mp hrecord).resolve_right fun hlast => nomatch List.mem_singleton.mp hlast
  once := by
    have hdates : completedDates (s.log ++ [.error date]) = completedDates s.log ++ [] := List.filterMap_append
    rw [hdates, List.append_nil]
    exact h.once

lemma Sound.reportError (h : Sound settings s) : Sound settings (reportError s t) := by
  have hday : Sound settings { s with errorDay := some t.date } := ⟨h.kept, h.done, h.logged, h.once⟩
  rw [OpenShadow.reportError]
  split_ifs
  · exact h
  · exact hday
  · exact hday.logError t.date

lemma stored_reportError : (reportError s t).stored = s.stored := by
  rw [reportError]
  split_ifs <;> rfl

lemma Sound.tick (h : Sound settings s) : Sound settings (tick settings s t) ∧ Grown s (tick settings s t) := by
  obtain ⟨hsound, hgrown⟩ := h.tickBody (t := t)
  rw [OpenShadow.tick]
  split_ifs
  · refine ⟨hsound.reportError, fun date record hrecord => ?_⟩
    rw [stored_reportError]
    exact hgrown date record hrecord
  · exact ⟨hsound, hgrown⟩

lemma Sound.step (h : Sound settings s) (action : Action) :
    Sound settings (step settings s action) ∧ Grown s (step settings s action) := by
  cases action with
  | tick t => exact h.tick
  | restart => exact ⟨⟨h.kept, fun _ hdone => absurd hdone.symm (Option.some_ne_none _), h.logged, h.once⟩, Grown.refl s⟩

lemma sound_start : Sound settings Shadow.start where
  kept := fun _ _ h => nomatch h
  done := fun _ h => nomatch h
  logged := fun _ h => nomatch h
  once := List.nodup_nil

lemma Sound.run (h : Sound settings s) (actions : List Action) :
    Sound settings (Runs.run (OpenShadow.step settings) s actions) ∧
      Grown s (Runs.run (OpenShadow.step settings) s actions) := by
  induction actions generalizing s with
  | nil => exact ⟨h, Grown.refl s⟩
  | cons action rest ih =>
    obtain ⟨hsound, hgrown⟩ := h.step action
    obtain ⟨hlast, hrest⟩ := ih hsound
    exact ⟨hlast, hgrown.trans hrest⟩

end Step

section Run

variable (settings : Settings)

def reached (actions : List Action) : Shadow := Runs.run (step settings) Shadow.start actions

lemma sound_reached (actions : List Action) : Sound settings (reached settings actions) :=
  (sound_start.run actions).1

/-- Whatever ticks fail, run out of time or fall after a restart: the record of a date checks its
setups once each, in order, keeps what it checked, and once closed stays as it is. -/
theorem reached_record (earlier later : List Action) (date : ℤ) (record : Record)
    (h : (reached settings earlier).stored date = some record) :
    Kept settings date record ∧
      ∃ last, (reached settings (earlier ++ later)).stored date = some last ∧ Carried record last := by
  have hsound := sound_reached settings earlier
  refine ⟨hsound.kept date record h, ?_⟩
  rw [reached, Runs.run_append]
  exact (hsound.run later).2 date record h

/-- Two setups: one check on the first tick, which then runs into the rate limit, and one on the second,
after a restart. -/
def openedDay : List Action :=
  let setup (symbol : String) : Candidate :=
    ⟨symbol, "breakout", "breakout:1d", "strict", "2026-10-19", 100, 95, 110, some 2, some (1 / 10), none, []⟩
  let account : Account := ⟨some 1000, some 500, [], [], 0, []⟩
  let quoted : Quoted := ⟨101, 100, false, some (3 / 2), some 50, []⟩
  let morning (minute : ℕ) (answers : List Answer) : Tick :=
    { enabled := true, deferred := false, date := 20, weekend := false, minute := minute, opens := 575
      secondsLeft := 100, marketOpenScanned := true, runId := "run", start := .running [setup "AAA", setup "BBB"] account
      answers := answers }
  [.tick (morning 576 [.verdict (.entered quoted), .rateLimited]), .restart,
    .tick (morning 577 [.verdict (.mismatch ["no_buy_signal"])])]

theorem openedDay_record : ∃ record last, (reached {} (openedDay.take 1)).stored 20 = some record ∧
    (reached {} (openedDay.take 1 ++ openedDay.drop 1)).stored 20 = some last ∧
      Kept {} 20 record ∧ Carried record last ∧ last.status = .complete := by
  obtain ⟨record, hrecord⟩ := Option.isSome_iff_exists.mp
    (by decide +kernel : ((reached {} (openedDay.take 1)).stored 20).isSome = true)
  obtain ⟨hkept, last, hlast, hcarried⟩ := reached_record {} (openedDay.take 1) (openedDay.drop 1) 20 record hrecord
  have hstatus : ((reached {} openedDay).stored 20).map Record.status = some .complete := by decide +kernel
  rw [← List.take_append_drop 1 openedDay, hlast] at hstatus
  exact ⟨record, last, hrecord, hlast, hkept, hcarried, Option.some.inj hstatus⟩

theorem reached_completed (actions : List Action) :
    (completedDates (reached settings actions).log).Nodup ∧
    (∀ record, .completed record ∈ (reached settings actions).log →
      (reached settings actions).stored record.sessionDate = some record ∧ record.status.final = true) ∧
    (∀ date, (reached settings actions).done = some date →
      ∃ record, (reached settings actions).stored date = some record ∧ record.status.final = true) := by
  have h := sound_reached settings actions
  exact ⟨h.once, h.logged, h.done⟩

/-- A tick between the deadline and the bell that has its time and whose calls do not fail. -/
structure CloseOut (t : Tick) : Prop where
  enabled : t.enabled = true
  deferred : t.deferred = false
  weekend : t.weekend = false
  opens : t.opens ≤ t.minute
  deadline : deadlineMinute ≤ t.minute
  bell : t.minute < closeOutEnds
  seconds : minStartSeconds ≤ t.secondsLeft
  reads : t.readFails = false
  closeReads : t.closeReadFails = false
  saves : t.saveFails = false
  logs : t.logFails = false

variable {settings} {s : Shadow} {t : Tick} {record : Record}

lemma CloseOut.idle_iff (h : CloseOut t) : idle s t = true ↔ s.done = some t.date := by
  have hopens := not_lt.mpr h.opens
  have hbell := not_le.mpr h.bell
  have hseconds := not_lt.mpr h.seconds
  simp [idle, h.enabled, h.deferred, h.weekend, hopens, hbell, hseconds]

lemma CloseOut.close (h : CloseOut t) (hopen : ∀ old, s.stored record.sessionDate = some old → old.status.final ≠ true) :
    (close s t record).2 = false ∧ (close s t record).1.stored record.sessionDate = some record := by
  have hany : ¬ (s.stored record.sessionDate).any (·.status.final) = true := fun hany => by
    obtain ⟨old, hold, hfinal⟩ := (Option.any_eq_true _ _).mp hany
    exact hopen old hold hfinal
  rw [OpenShadow.close, h.closeReads, h.saves, h.logs, if_neg Bool.false_ne_true, if_neg hany,
    if_neg Bool.false_ne_true, if_neg Bool.false_ne_true]
  exact ⟨rfl, stored_save_self s record⟩

lemma CloseOut.tick_of_body {closed : Record} (hbody : (tickBody settings s t).2 = false ∧
    (tickBody settings s t).1.stored t.date = some closed) : (tick settings s t).stored t.date = some closed := by
  rw [OpenShadow.tick, hbody.1, if_neg Bool.false_ne_true]
  exact hbody.2

structure ClosedFrom (before : Option Record) (closed : Record) : Prop where
  final : closed.status.final = true
  carried : ∀ old, before = some old → Carried old closed ∧ closed.results = old.results
  missed : before = none → closed.status = .missedDeadline

lemma CloseOut.body (h : CloseOut t) (hsound : Sound settings s) (hnotDone : s.done ≠ some t.date) :
    ∃ closed, ((tickBody settings s t).2 = false ∧ (tickBody settings s t).1.stored t.date = some closed) ∧
      ClosedFrom (s.stored t.date) closed := by
  have hidle : ¬ idle s t = true := fun hidle => hnotDone (h.idle_iff.mp hidle)
  have hpast : pastDeadline t = true := decide_eq_true h.deadline
  rw [tickBody, if_neg hidle, h.reads, if_neg Bool.false_ne_true]
  split_ifs with hclosed hwaits
  · obtain ⟨closed, hstored, hfinal⟩ := (Option.any_eq_true _ _).mp hclosed
    refine ⟨closed, ⟨rfl, hstored⟩, hfinal, fun old hold => ?_, fun hnone => ?_⟩
    · obtain rfl := Option.some.inj (hold.symm.trans hstored)
      exact ⟨Carried.refl old, rfl⟩
    · exact absurd (hnone.symm.trans hstored) (Option.some_ne_none _).symm
  · exact absurd hpast hwaits.2
  · have hopen : ∀ old, s.stored t.date = some old → old.status.final ≠ true :=
      fun old hold hfinal => hclosed ((Option.any_eq_true _ _).mpr ⟨old, hold, hfinal⟩)
    cases hstored : s.stored t.date with
    | none =>
      rw [Option.filter_none, begin_, if_pos hpast]
      exact ⟨_, h.close hopen, rfl, fun old hold => absurd hold.symm (Option.some_ne_none old), fun _ => rfl⟩
    | some record =>
      have hkept := hsound.kept t.date record hstored
      have hrunning : record.status = .running := by
        by_contra hstatus
        exact hopen record hstored (decide_eq_true hstatus)
      have hresume : (some record).filter (·.resumable t.date) = some record :=
        Option.filter_some_pos (hkept.resumable hrunning)
      rw [hresume]
      dsimp only
      rw [work, if_pos hpast, if_neg Bool.false_ne_true, if_neg fun hgoesOn => hgoesOn.2 hpast]
      dsimp only
      generalize decide (record.candidates.length ≤ record.cursor) = finished
      obtain ⟨hok, hlast⟩ : (OpenShadow.close s t (finalize settings record finished)).2 = false ∧
          (OpenShadow.close s t (finalize settings record finished)).1.stored record.sessionDate =
            some (finalize settings record finished) :=
        h.close fun old hold => hopen old (hkept.date ▸ hold)
      rw [hkept.date] at hlast
      refine ⟨finalize settings record finished, ⟨hok, hlast⟩, final_finalize finished, fun old hold => ?_,
        fun hnone => absurd hnone (Option.some_ne_none record)⟩
      obtain rfl := Option.some.inj hold
      exact ⟨carried_finalize finished hrunning, rfl⟩

theorem reached_closeOut (settings : Settings) (actions : List Action) (t : Tick) (h : CloseOut t) :
    ∃ closed, (tick settings (reached settings actions) t).stored t.date = some closed ∧
      closed.status.final = true ∧
      (∀ old, (reached settings actions).stored t.date = some old →
        Carried old closed ∧ closed.results = old.results) ∧
      ((reached settings actions).stored t.date = none → closed.status = .missedDeadline) := by
  have hsound := sound_reached settings actions
  by_cases hdone : (reached settings actions).done = some t.date
  · obtain ⟨closed, hstored, hfinal⟩ := hsound.done t.date hdone
    have hbody : tickBody settings (reached settings actions) t = (reached settings actions, false) := by
      rw [tickBody, if_pos (h.idle_iff.mpr hdone)]
    refine ⟨closed, CloseOut.tick_of_body (by rw [hbody]; exact ⟨rfl, hstored⟩), hfinal, fun old hold => ?_,
      fun hnone => absurd (hnone.symm.trans hstored) (Option.some_ne_none _).symm⟩
    obtain rfl := Option.some.inj (hold.symm.trans hstored)
    exact ⟨Carried.refl old, rfl⟩
  · obtain ⟨closed, hbody, hclosed⟩ := h.body hsound hdone
    exact ⟨closed, CloseOut.tick_of_body hbody, hclosed.final, hclosed.carried, hclosed.missed⟩

end Run

def deadlineTick : Tick :=
  { enabled := true, deferred := false, date := 20, weekend := false, minute := 640, opens := 575, secondsLeft := 100
    marketOpenScanned := true, runId := "run", start := .raised, answers := [] }

theorem openedDay_closes : ∃ closed, (tick {} (reached {} (openedDay.take 1)) deadlineTick).stored 20 = some closed ∧
    closed.status.final = true := by
  have hcloseOut : CloseOut deadlineTick := by constructor <;> decide +kernel
  obtain ⟨closed, hstored, hfinal, -⟩ := reached_closeOut {} (openedDay.take 1) deadlineTick hcloseOut
  exact ⟨closed, hstored, hfinal⟩

end AlgoTrader.Workflow.OpenShadow
