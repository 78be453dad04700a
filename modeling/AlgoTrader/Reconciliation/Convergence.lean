import AlgoTrader.Reconciliation.Stream

/-! When the next sweep makes good what streamed updates left: a fingerprint stands only for a row as
the sweep wrote it, unless an update in flight is still to drop it. -/

namespace AlgoTrader.Reconciliation

open Automation

def InSync (rows : String → StoredExecution) (row : Reported) : Prop :=
  ∀ id payload exits, row = ⟨.execution id, .execution payload exits⟩ →
    rows id = (rows id).update payload exits

def Shared.Dropping (s : Shared) (key : Key) : Prop := ∃ keys ∈ s.drops, key ∈ keys

def Shared.remembering (s : Shared) : Option Reported :=
  match s.phase with
  | .wrote _ row _ => some row
  | _ => none

structure Shared.Trusted (s : Shared) : Prop where
  recorded : ∀ id payload exits, s.written (.execution id) = some (.execution payload exits) →
    (∀ row ∈ s.remembering, row.key ≠ .execution id) →
    s.rows id = (s.rows id).update payload exits ∨ s.Dropping (.execution id)
  remembering : ∀ row ∈ s.remembering, InSync s.rows row ∨ s.Dropping row.key

/-- No fingerprint is dropped for a streamed write that landed between the sweep's write of the row
and its record of it, and no sweep stops there with an older fingerprint. -/
def undisturbed (s : Shared) : Step → Prop
  | .drop i => ∀ row ∈ s.remembering, ∀ rest, s.drops[i]? = some (row.key :: rest) → InSync s.rows row
  | .raise => ∀ row ∈ s.remembering, s.written row.key = none
  | _ => True

section Steps

variable {crc32 : Key → ℕ} {s s' : Shared} {key : Key} {row : Reported}

lemma Shared.Trusted.of_same (h : s.Trusted) (hrows : s'.rows = s.rows) (hdrops : s'.drops = s.drops)
    (hremembering : s'.remembering = none)
    (hwritten : ∀ id parts, s'.written (.execution id) = some parts →
      s.written (.execution id) = some parts ∧ ∀ row ∈ s.remembering, row.key ≠ .execution id) :
    s'.Trusted where
  recorded id payload exits hkey _ := by
    obtain ⟨hold, hother⟩ := hwritten id _ hkey
    rw [hrows, Shared.Dropping, hdrops]
    exact h.recorded id payload exits hold hother
  remembering row hrow := by
    rw [hremembering] at hrow
    cases hrow

lemma Shared.not_remembering (h : s.remembering = none) (key : Key) : ∀ row ∈ s.remembering, row.key ≠ key := by
  intro row hrow
  rw [h] at hrow
  cases hrow

lemma Shared.Trusted.of_idle (h : s.Trusted) (hidle : s.remembering = none) (hrows : s'.rows = s.rows)
    (hdrops : s'.drops = s.drops) (hremembering : s'.remembering = none)
    (hwritten : ∀ id parts, s'.written (.execution id) = some parts → s.written (.execution id) = some parts) :
    s'.Trusted :=
  h.of_same hrows hdrops hremembering fun id parts hkey => ⟨hwritten id parts hkey, Shared.not_remembering hidle _⟩

lemma changed_frame (m : State) (row : Reported) :
    (changed m row).2.written = m.written ∧ (changed m row).2.store = m.store := by
  obtain ⟨budget, hbudget⟩ := changed_budget m row
  rw [hbudget]
  exact ⟨rfl, rfl⟩

lemma trusted_compare (h : s.Trusted) : (compareNext s).Trusted := by
  rw [compareNext]
  split
  case h_1 found hphase =>
    have hidle : s.remembering = none := by rw [Shared.remembering, hphase]
    exact h.of_idle hidle rfl rfl rfl fun _ _ hkey => hkey
  case h_2 found row rest hphase =>
    have hidle : s.remembering = none := by rw [Shared.remembering, hphase]
    have hframe := (changed_frame s.toState row).1
    rcases hchanged : changed s.toState row with ⟨writes, memory⟩
    rw [hchanged] at hframe
    have hwritten (id : String) (parts : Parts) (hkey : memory.written (.execution id) = some parts) :
        s.written (.execution id) = some parts := hframe ▸ hkey
    cases writes with
    | false => exact h.of_idle hidle rfl rfl rfl hwritten
    | true => exact h.of_idle hidle rfl rfl rfl hwritten
  case h_3 => exact h

lemma writeExecution_of_ne {found rows : String → StoredExecution} {id : String} (hne : row.key ≠ .execution id) :
    writeExecution found rows row id = rows id := by
  obtain ⟨key, parts⟩ := row
  cases key with
  | order => rfl
  | execution other =>
    have hid : id ≠ other := fun heq => hne (congrArg Key.execution heq.symm)
    cases parts with
    | execution => exact Function.update_of_ne hid ..
    | order => rfl
    | leg => rfl

lemma inSync_write (found rows : String → StoredExecution) (row : Reported) :
    InSync (writeExecution found rows row) row := by
  rintro id payload exits rfl
  change Function.update rows id _ id = (Function.update rows id _ id).update payload exits
  rw [Function.update_self, StoredExecution.update_update]

lemma trusted_write (h : s.Trusted) : (writeNext s).Trusted := by
  rw [writeNext]
  split
  case h_1 found row rest hphase =>
    have hidle : s.remembering = none := by rw [Shared.remembering, hphase]
    constructor
    · intro id payload exits hkey hother
      have hne : row.key ≠ .execution id := hother row rfl
      change writeExecution found s.rows row id = (writeExecution found s.rows row id).update payload exits ∨ _
      rw [writeExecution_of_ne hne]
      exact h.recorded id payload exits hkey (Shared.not_remembering hidle _)
    · intro other hrow
      cases hrow
      exact Or.inl (inSync_write found s.rows row)
  case h_2 => exact h

lemma trusted_remember (h : s.Trusted) : (rememberNext s).Trusted := by
  rw [rememberNext]
  split
  case h_1 found row rest hphase =>
    have hrow : s.remembering = some row := by rw [Shared.remembering, hphase]
    constructor
    · intro id payload exits hkey _
      change Function.update s.written row.key (some row.parts) (.execution id) = _ at hkey
      change s.rows id = (s.rows id).update payload exits ∨ s.Dropping _
      by_cases heq : row.key = .execution id
      · rw [← heq, Function.update_self] at hkey
        have hexecution : row = ⟨.execution id, .execution payload exits⟩ := by
          rw [← heq, ← Option.some.inj hkey]
        rcases h.remembering row hrow with hsync | hdropping
        · exact Or.inl (hsync id payload exits hexecution)
        · exact Or.inr (heq ▸ hdropping)
      · rw [Function.update_of_ne (Ne.symm heq)] at hkey
        refine h.recorded id payload exits hkey fun other hother => ?_
        rw [hrow] at hother
        cases hother
        exact heq
    · intro other hother
      cases hother
  case h_2 => exact h

lemma trusted_ingest (h : s.Trusted) (i : ℕ) : (ingestNext s i).Trusted := by
  rw [ingestNext]
  split
  case h_1 => exact h
  case h_2 update hget =>
    have hdropping {key : Key} (hkey : s.Dropping key) : ∃ keys ∈ s.drops ++ [update.keys], key ∈ keys := by
      obtain ⟨keys, hkeys, hmem⟩ := hkey
      exact ⟨keys, List.mem_append_left _ hkeys, hmem⟩
    have hown : ∃ keys ∈ s.drops ++ [update.keys], Key.execution update.executionId ∈ keys :=
      ⟨update.keys, List.mem_append_right _ (List.mem_singleton_self _), List.mem_cons_self⟩
    constructor
    · intro id payload exits hkey hother
      by_cases heq : id = update.executionId
      · subst heq
        exact Or.inr hown
      · change Function.update s.rows _ _ id = (Function.update s.rows _ _ id).update payload exits ∨ _
        rw [Function.update_of_ne heq]
        exact (h.recorded id payload exits hkey hother).imp_right hdropping
    · intro row hrow
      by_cases heq : row.key = .execution update.executionId
      · exact Or.inr (heq ▸ hown)
      · refine (h.remembering row hrow).imp (fun hsync => ?_) hdropping
        rintro id payload exits rfl
        have hne : id ≠ update.executionId := fun hid => heq (congrArg Key.execution hid)
        change Function.update s.rows _ _ id = (Function.update s.rows _ _ id).update payload exits
        rw [Function.update_of_ne hne]
        exact hsync id payload exits rfl

lemma mem_drops {drops : List (List Key)} {i : ℕ} {key other : Key} {rest keys : List Key}
    (hget : drops[i]? = some (key :: rest)) (hkeys : keys ∈ drops) (hother : other ∈ keys) (hne : other ≠ key) :
    ∃ keys ∈ if rest = [] then drops.eraseIdx i else drops.set i rest, other ∈ keys := by
  obtain ⟨j, hj⟩ := List.mem_iff_getElem?.mp hkeys
  by_cases hij : j = i
  · subst hij
    cases hget.symm.trans hj
    have hrest := (List.mem_cons.mp hother).resolve_left hne
    rw [if_neg (List.ne_nil_of_mem hrest)]
    obtain ⟨hlt, -⟩ := List.getElem?_eq_some_iff.mp hj
    exact ⟨rest, List.mem_iff_getElem?.mpr ⟨j, by rw [List.getElem?_set_self hlt]⟩, hrest⟩
  · refine ⟨keys, ?_, hother⟩
    split_ifs
    · exact List.mem_eraseIdx_iff_getElem?.mpr ⟨j, hij, hj⟩
    · exact List.mem_iff_getElem?.mpr ⟨j, by rw [List.getElem?_set_ne (Ne.symm hij), hj]⟩

lemma trusted_drop (h : s.Trusted) (i : ℕ) (hund : undisturbed s (.drop i)) : (dropNext s i).Trusted := by
  rw [dropNext]
  split
  case h_1 key rest hget =>
    have hdropping {other : Key} (hother : s.Dropping other) (hne : other ≠ key) :
        ∃ keys ∈ if rest = [] then s.drops.eraseIdx i else s.drops.set i rest, other ∈ keys := by
      obtain ⟨keys, hkeys, hmem⟩ := hother
      exact mem_drops hget hkeys hmem hne
    constructor
    · intro id payload exits hkey hother
      change Function.update s.written key none (.execution id) = _ at hkey
      by_cases heq : .execution id = key
      · rw [heq, Function.update_self] at hkey
        cases hkey
      · rw [Function.update_of_ne heq] at hkey
        exact (h.recorded id payload exits hkey hother).imp_right fun hdrop => hdropping hdrop heq
    · intro row hrow
      by_cases heq : row.key = key
      · exact Or.inl (hund row hrow rest (heq ▸ hget))
      · exact (h.remembering row hrow).imp_right fun hdrop => hdropping hdrop heq
  case h_2 => exact h

lemma trusted_start (hwritten : ∀ key, s.written key = none) (hidle : s.remembering = none) : s.Trusted := by
  constructor
  · intro id payload exits hkey
    exact absurd ((hwritten _).symm.trans hkey) (Option.some_ne_none _).symm
  · intro row hrow
    rw [hidle] at hrow
    cases hrow

lemma trusted_step (action : Step) (h : s.Trusted) (hund : undisturbed s action) :
    (s.step crc32 action).Trusted := by
  cases action with
  | beginSweep =>
    rw [Shared.step]
    split
    case h_1 hphase =>
      have hidle : s.remembering = none := by rw [Shared.remembering, hphase]
      exact h.of_idle hidle rfl rfl rfl fun _ _ hkey => written_begin hkey
    case h_2 => exact h
  | readBroker book =>
    rw [Shared.step]
    split
    case h_1 hphase =>
      have hidle : s.remembering = none := by rw [Shared.remembering, hphase]
      exact h.of_idle hidle rfl rfl rfl fun _ _ hkey => hkey
    case h_2 => exact h
  | compare => exact trusted_compare h
  | write => exact trusted_write h
  | remember => exact trusted_remember h
  | raise =>
    refine h.of_same rfl rfl rfl fun id parts hkey => ⟨hkey, fun row hrow heq => ?_⟩
    rw [← heq] at hkey
    exact Option.some_ne_none parts (hkey.symm.trans (hund row hrow))
  | readOrder executionId payload => exact ⟨h.recorded, h.remembering⟩
  | ingest i => exact trusted_ingest h i
  | drop i => exact trusted_drop h i hund
  | restart => exact trusted_start (fun _ => rfl) rfl

end Steps

def soloVisit (found : String → StoredExecution) (row : Reported) (rest : List Reported) (s : Shared) : Shared :=
  { s with
    toState := visitRow s.toState row
    rows := if (changed s.toState row).1 then writeExecution found s.rows row else s.rows
    phase := .next found rest }

def soloRows (found : String → StoredExecution) : List Reported → Shared → Shared
  | [], s => { s with phase := .idle }
  | row :: rest, s => soloRows found rest (soloVisit found row rest s)

section Solo

variable {crc32 : Key → ℕ} {s : Shared} {found : String → StoredExecution} {row : Reported}
  {rows rest : List Reported} {id : String}

lemma run_visit (hphase : s.phase = .next found (row :: rest)) :
    Runs.run (Shared.step crc32) s [.compare, .write, .remember] = soloVisit found row rest s := by
  change rememberNext (writeNext (compareNext s)) = _
  rw [compareNext, hphase]
  dsimp only
  rw [soloVisit, visitRow]
  rcases changed s.toState row with ⟨writes, memory⟩
  cases writes <;> rfl

lemma run_rows (hphase : s.phase = .next found rows) :
    Runs.run (Shared.step crc32) s (rows.flatMap (fun _ => [.compare, .write, .remember]) ++ [.compare]) =
      soloRows found rows s := by
  induction rows generalizing s with
  | nil =>
    change compareNext s = _
    rw [compareNext, hphase]
    rfl
  | cons row rest ih =>
    rw [List.flatMap_cons, List.append_assoc, Runs.run_append, run_visit hphase]
    exact ih rfl

lemma run_solo (book : Book) (hidle : s.phase = .idle) :
    Runs.run (Shared.step crc32) s (soloSweep book) =
      soloRows s.rows (reportedRows book)
        { s with toState := beginSweep crc32 s.toState, phase := .next s.rows (reportedRows book) } := by
  have hbegin : Runs.run (Shared.step crc32) s [.beginSweep, .readBroker book] =
      { s with toState := beginSweep crc32 s.toState, phase := .next s.rows (reportedRows book) } := by
    change Shared.step crc32 (Shared.step crc32 s .beginSweep) (.readBroker book) = _
    rw [show Shared.step crc32 s .beginSweep = { s with toState := beginSweep crc32 s.toState, phase := .started } by
      rw [Shared.step, hidle]]
    rfl
  rw [soloSweep, List.append_assoc, Runs.run_append, hbegin]
  exact run_rows rfl

lemma soloRows_state : (soloRows found rows s).toState = rows.foldl visitRow s.toState := by
  induction rows generalizing s with
  | nil => rfl
  | cons row rest ih => exact ih

lemma soloVisit_rows_of_ne (hne : row.key ≠ .execution id) : (soloVisit found row rest s).rows id = s.rows id := by
  change (if _ then writeExecution found s.rows row else s.rows) id = s.rows id
  split_ifs
  · exact writeExecution_of_ne hne
  · rfl

lemma soloRows_frame (found : String → StoredExecution) (s : Shared) (h : .execution id ∉ rows.map (·.key)) :
    (soloRows found rows s).rows id = s.rows id := by
  induction rows generalizing s with
  | nil => rfl
  | cons row rest ih =>
    obtain ⟨hne, hrest⟩ := not_or.mp (mt List.mem_cons.mpr h)
    exact (ih _ hrest).trans (soloVisit_rows_of_ne (Ne.symm hne))

lemma unchanged_cases (m : State) (h : (changed m row).1 = false) :
    m.written row.key = some row.parts ∨ (visitRow m row).written row.key = none := by
  rw [visitRow]
  rw [changed] at h ⊢
  cases hwritten : m.written row.key with
  | some last =>
    rw [hwritten] at h
    have hsame : last = row.parts := by simpa using h
    rw [hsame]
    exact Or.inl rfl
  | none =>
    rw [hwritten] at h
    right
    dsimp only at h ⊢
    split_ifs at h ⊢
    exact hwritten

lemma soloRows_row (found : String → StoredExecution) {payload : Payload} {exits : List Payload}
    (hnodup : (rows.map (·.key)).Nodup) (hrow : ⟨.execution id, .execution payload exits⟩ ∈ rows)
    (hknown : (soloRows found rows s).knows (.execution id) = true) :
    s.written (.execution id) = some (.execution payload exits) ∧ (soloRows found rows s).rows id = s.rows id ∨
      (soloRows found rows s).rows id = (found id).update payload exits := by
  induction rows generalizing s with
  | nil => cases hrow
  | cons row rest ih =>
    obtain ⟨hnot, hrest⟩ := List.nodup_cons.mp hnodup
    rcases List.mem_cons.mp hrow with rfl | hrow
    · have hframe := soloRows_frame found (soloVisit found ⟨.execution id, .execution payload exits⟩ rest s) hnot
      cases hchanged : (changed s.toState ⟨.execution id, .execution payload exits⟩).1 with
      | true =>
        right
        refine hframe.trans ?_
        change (if (changed s.toState _).1 then writeExecution found s.rows _ else s.rows) id = _
        rw [hchanged, if_pos rfl]
        exact Function.update_self ..
      | false =>
        have hrows : (soloVisit found ⟨.execution id, .execution payload exits⟩ rest s).rows id = s.rows id := by
          change (if (changed s.toState _).1 then writeExecution found s.rows _ else s.rows) id = _
          rw [hchanged, if_neg Bool.false_ne_true]
        rcases unchanged_cases s.toState hchanged with hsame | hnone
        · exact Or.inl ⟨hsame, hframe.trans hrows⟩
        · rw [State.knows, soloRows_state, List.foldl_cons, (foldl_frame hnot).1, hnone] at hknown
          cases hknown
    · have hkey : .execution id ∈ rest.map (·.key) := List.mem_map_of_mem hrow
      have hne : row.key ≠ .execution id := (ne_of_mem_of_not_mem hkey hnot).symm
      have hwritten : (visitRow s.toState row).written (.execution id) = s.written (.execution id) :=
        ((visit s.toState row).frame (Ne.symm hne)).1
      have hrows : (soloVisit found row rest s).rows id = s.rows id := soloVisit_rows_of_ne hne
      rcases ih (s := soloVisit found row rest s) hrest hrow hknown with ⟨hsame, hkept⟩ | hupdated
      · exact Or.inl ⟨hwritten ▸ hsame, hkept.trans hrows⟩
      · exact Or.inr hupdated

end Solo

def Shared.Quiet (s : Shared) : Prop := s.phase.isIdle = true ∧ s.drops = []

instance (s : Shared) : Decidable s.Quiet := inferInstanceAs (Decidable (_ ∧ _))

lemma Shared.Quiet.idle {s : Shared} (h : s.Quiet) : s.phase = .idle := by
  have hidle := h.1
  cases hphase : s.phase with
  | idle => rfl
  | _ =>
    rw [hphase] at hidle
    cases hidle

structure Converges (crc32 : Key → ℕ) (book : Book) (s : Shared) : Prop where
  not_frozen : ∀ id payload exits, s.written (.execution id) = some (.execution payload exits) →
    s.rows id = (s.rows id).update payload exits
  next_sweep : ∀ before id payload exits after,
    reportedRows book = before ++ ⟨.execution id, .execution payload exits⟩ :: after →
    ((beginSweep crc32 s.toState).written (.execution id) ≠ none ∨
      (before.filter fun row => (beginSweep crc32 s.toState).written row.key = none).length < unknownWriteBudget) →
    (Runs.run (Shared.step crc32) s (soloSweep book)).rows id = (s.rows id).update payload exits

lemma Shared.Trusted.not_frozen {s : Shared} (h : s.Trusted) (hquiet : s.Quiet) {id : String} {payload : Payload}
    {exits : List Payload} (hkey : s.written (.execution id) = some (.execution payload exits)) :
    s.rows id = (s.rows id).update payload exits := by
  have hnone : s.remembering = none := by rw [Shared.remembering, hquiet.idle]
  rcases h.recorded id payload exits hkey (Shared.not_remembering hnone _) with hsync | ⟨keys, hkeys, -⟩
  · exact hsync
  · rw [hquiet.2] at hkeys
    exact absurd hkeys List.not_mem_nil

lemma converges_of_trusted {crc32 : Key → ℕ} {s : Shared} (h : s.Trusted) (hquiet : s.Quiet) (book : Book) :
    Converges crc32 book s := by
  refine ⟨fun id payload exits => h.not_frozen hquiet, ?_⟩
  intro before id payload exits after hrows hreach
  rw [run_solo book hquiet.idle]
  have hknown : (fullSweep crc32 book s.toState).knows (.execution id) = true := by
    refine (knows_after_iff hrows).mpr (hreach.imp_left fun hne => ?_)
    exact Option.isSome_iff_ne_none.mpr hne
  rw [fullSweep] at hknown
  rcases soloRows_row s.rows
    (s := { s with toState := beginSweep crc32 s.toState, phase := .next s.rows (reportedRows book) })
    (keys_nodup book) (mem_of_split hrows) (by rw [soloRows_state]; exact hknown) with ⟨hsame, hkept⟩ | hupdated
  · exact hkept.trans (h.not_frozen hquiet (written_begin hsame))
  · exact hupdated

theorem stream_and_sweep_converge (crc32 : Key → ℕ) (rows : String → StoredExecution) {steps : List Step}
    (hall : Runs.Allowed (Shared.step crc32) undisturbed { rows } steps)
    (hquiet : (Runs.run (Shared.step crc32) { rows } steps).Quiet) (book : Book) :
    Converges crc32 book (Runs.run (Shared.step crc32) { rows } steps) := by
  have hstart : Shared.Trusted { rows } := trusted_start (fun _ => rfl) rfl
  have htrusted := Runs.invariant (fun _ step h hund => trusted_step step h hund) hstart hall
  exact converges_of_trusted htrusted hquiet book

def soldOff : Book where
  executions := [⟨"exec-3", "buy-3"⟩]
  orders := [soldTen, boughtTen "buy-3" []]
  execution_ids_nodup := by decide
  ids_ne := by decide +kernel
  ids_nodup := by decide
  filled_nonneg := by decide +kernel

def upToWrite : List Step :=
  [.beginSweep, .readBroker soldOff, .compare, .write, .remember, .compare, .write]

/-- A streamed update of the execution, from its read to its last dropped fingerprint. -/
def streamed : List Step := [.readOrder "exec-3" (boughtTen "buy-3" []), .ingest 0, .drop 0, .drop 0]

def sweepEnd : List Step := [.compare, .write, .remember, .compare]

lemma undisturbed_of_none {s : Shared} {i : ℕ} (h : s.remembering.isNone = true) : undisturbed s (.drop i) := by
  intro row hrow
  rw [Option.isNone_iff_eq_none.mp h] at hrow
  cases hrow

theorem stream_and_sweep_converge_later :
    (Runs.run (Shared.step fun _ => 0) { rows := fun _ => {} }
        (upToWrite ++ [.remember] ++ streamed ++ sweepEnd)).Quiet ∧
      Converges (fun _ => 0) soldOff (Runs.run (Shared.step fun _ => 0) { rows := fun _ => {} }
        (upToWrite ++ [.remember] ++ streamed ++ sweepEnd)) := by
  have hall : Runs.Allowed (Shared.step fun _ => 0) undisturbed { rows := fun _ => {} }
      (upToWrite ++ [.remember] ++ streamed ++ sweepEnd) :=
    ⟨trivial, trivial, trivial, trivial, trivial, trivial, trivial, trivial, trivial, trivial,
      undisturbed_of_none (by decide +kernel), undisturbed_of_none (by decide +kernel),
      trivial, trivial, trivial, trivial, trivial⟩
  have hquiet : (Runs.run (Shared.step fun _ => 0) { rows := fun _ => {} }
      (upToWrite ++ [.remember] ++ streamed ++ sweepEnd)).Quiet := by decide +kernel
  exact ⟨hquiet, stream_and_sweep_converge (fun _ => 0) (fun _ => {}) hall hquiet soldOff⟩

/-- The same update between the sweep's write of the row and its record of it. -/
theorem stream_frozen_in :
    ¬ ∀ (crc32 : Key → ℕ) (rows : String → StoredExecution) (steps : List Step) (book : Book),
      (Runs.run (Shared.step crc32) { rows } steps).Quiet →
        Converges crc32 book (Runs.run (Shared.step crc32) { rows } steps) := by
  intro h
  have hquiet : (Runs.run (Shared.step fun _ => 0) { rows := fun _ => {} }
      (upToWrite ++ streamed ++ [.remember] ++ sweepEnd)).Quiet := by decide +kernel
  have hconverges := h (fun _ => 0) (fun _ => {}) _ soldOff hquiet
  exact absurd (hconverges.not_frozen "exec-3" (boughtTen "buy-3" []) [soldTen] (by decide +kernel))
    (by decide +kernel)

end AlgoTrader.Reconciliation
