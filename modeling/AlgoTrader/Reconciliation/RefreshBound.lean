import AlgoTrader.Reconciliation.SweepsKept

/-! What skipped writes cost: a reported row is brought up to date exactly when fewer rows stand before
it than a cycle of sweeps has unknown writes for. -/

namespace AlgoTrader.Reconciliation

open Automation

def plan (crc32 : Key → ℕ) (book : Book) : RollingRefresh Key where
  slot := crc32
  slices := refreshSlices
  budget := unknownWriteBudget
  entries := (reportedRows book).map (·.key)

def UpToDate (book : Book) (s : State) : Prop :=
  ∀ row ∈ reportedRows book, s.store row.key = some row.parts

/-- A write that raises after it took effect strikes only rows whose state was unknown. -/
def acknowledged (crc32 : Key → ℕ) (s : State) : Action → Prop
  | .attempt (some book) outcome => ∀ row ∈ reportedRows book, outcome row.key = .unacknowledged →
      (beginSweep crc32 s).written row.key = none
  | _ => True

structure LosesNothing (crc32 : Key → ℕ) (book : Book) (s : State) : Prop where
  recorded : ∀ row ∈ reportedRows book,
    s.written row.key = some row.parts → s.store row.key = some row.parts
  changed : ∀ before row after, reportedRows book = before ++ row :: after →
    (∃ last, s.written row.key = some last ∧ last ≠ row.parts) →
    ((fullSweep crc32 book s).store row.key = some row.parts ↔
      crc32 row.key % refreshSlices ≠ (s.sweepNo + 1) % refreshSlices ∨
      (before.filter fun row => (beginSweep crc32 s).written row.key = none).length < unknownWriteBudget)
  completed : ∀ outcome next, reconcileOnce crc32 book outcome s = .ok next → fullSweep crc32 book s = next
  settles : (reportedRows book).length ≤ refreshSlices * unknownWriteBudget →
    ∀ n ≥ refreshSlices * (reportedRows book).length, UpToDate book ((fullSweep crc32 book)^[n] s)

section Recorded

variable {crc32 : Key → ℕ} {book : Book} {s s' : State} {outcome : Key → WriteOutcome}

lemma written_begin {key : Key} {parts : Parts} (h : (beginSweep crc32 s).written key = some parts) :
    s.written key = some parts := by
  change (if _ then none else s.written key) = some parts at h
  split_ifs at h
  exact h

lemma recorded_begin (h : s.Recorded) : (beginSweep crc32 s).Recorded := fun key parts hwritten =>
  h key parts (written_begin hwritten)

lemma recorded_fullSweep (h : s.Recorded) : (fullSweep crc32 book s).Recorded :=
  foldl_recorded (recorded_begin h)

lemma recorded_iterate (h : s.Recorded) (n : ℕ) : ((fullSweep crc32 book)^[n] s).Recorded := by
  induction n with
  | zero => exact h
  | succ n ih =>
    rw [Function.iterate_succ_apply']
    exact recorded_fullSweep ih

lemma begin_empty (crc32 : Key → ℕ) (store : Key → Option Parts) (key : Key) :
    (beginSweep crc32 { store }).written key = none := by
  change (if _ then none else none) = none
  exact ite_self none

lemma recorded_empty (store : Key → Option Parts) : State.Recorded { store } := by
  intro key parts hwritten
  exact absurd hwritten (Option.some_ne_none parts).symm

lemma recorded_put (h : s.Recorded) {row : Reported} (hnone : s.written row.key = none) : (s.put row).Recorded := by
  intro key parts hwritten
  rw [store_put]
  split_ifs with heq
  · subst heq
    exact absurd (hnone.symm.trans hwritten) (Option.some_ne_none parts).symm
  · exact h key parts hwritten

lemma changed_budget (s : State) (row : Reported) :
    ∃ budget, (changed s row).2 = { s with unknownBudget := budget } := by
  rw [changed]
  split
  · exact ⟨s.unknownBudget, rfl⟩
  · split_ifs
    · exact ⟨s.unknownBudget, rfl⟩
    · exact ⟨s.unknownBudget - 1, rfl⟩

lemma recorded_sweepRow {row : Reported} (h : s.Recorded)
    (hack : outcome row.key = .unacknowledged → s.written row.key = none) :
    (∀ s', sweepRow outcome s row = .ok s' → Visit s row s') ∧
      ∀ s', sweepRow outcome s row = .error s' → s'.Recorded := by
  refine ⟨fun s' hok => visitRow_of_ok hok ▸ visit s row, fun s' herr => ?_⟩
  obtain ⟨budget, hbudget⟩ := changed_budget s row
  rw [sweepRow] at herr
  rcases hchanged : changed s row with ⟨writes, next⟩
  rw [hchanged] at herr hbudget
  cases hbudget
  cases writes with
  | false => cases herr
  | true =>
    cases hout : outcome row.key <;> simp only [hout] at herr
    case done => cases herr
    case lost =>
      cases herr
      exact h
    case unacknowledged =>
      cases herr
      exact recorded_put (s := { s with unknownBudget := budget }) h (hack hout)

lemma recorded_foldlM {rows : List Reported} (hnodup : (rows.map (·.key)).Nodup) (h : s.Recorded)
    (hack : ∀ row ∈ rows, outcome row.key = .unacknowledged → s.written row.key = none) :
    (∀ s', rows.foldlM (sweepRow outcome) s = .ok s' → s'.Recorded) ∧
      ∀ s', rows.foldlM (sweepRow outcome) s = .error s' → s'.Recorded := by
  induction rows generalizing s with
  | nil =>
    refine ⟨fun s' hok => ?_, nofun⟩
    cases hok
    exact h
  | cons row rest ih =>
    obtain ⟨hnot, hrest⟩ := List.nodup_cons.mp hnodup
    obtain ⟨hok, herr⟩ := recorded_sweepRow h (hack row List.mem_cons_self)
    rw [List.foldlM_cons]
    cases hrow : sweepRow outcome s row with
    | error failed =>
      refine ⟨nofun, fun s' hfailed => ?_⟩
      cases hfailed
      exact herr failed hrow
    | ok next =>
      have hvisit := hok next hrow
      refine ih hrest (hvisit.recorded h) fun other hother hout => ?_
      have hkey : other.key ∈ rest.map (·.key) := List.mem_map_of_mem hother
      have hne : other.key ≠ row.key := ne_of_mem_of_not_mem hkey hnot
      rw [(hvisit.frame hne).1]
      exact hack other (List.mem_cons_of_mem _ hother) hout

lemma recorded_attempt (h : s.Recorded) {book : Option Book}
    (hack : acknowledged crc32 s (.attempt book outcome)) : (attempt crc32 s outcome book).Recorded := by
  cases book with
  | none => exact recorded_begin h
  | some book =>
    have hbegin : (beginSweep crc32 s).Recorded := recorded_begin h
    obtain ⟨hok, herr⟩ := recorded_foldlM (keys_nodup book) hbegin hack
    rw [attempt]
    cases hresult : reconcileOnce crc32 book outcome s with
    | ok s' => exact hok s' hresult
    | error s' => exact herr s' hresult

lemma recorded_step (action : Action) (h : s.Recorded) (hack : acknowledged crc32 s action) :
    (step crc32 s action).Recorded := by
  cases action with
  | attempt book outcome => exact recorded_attempt h hack
  | restart book outcome => exact recorded_empty _

lemma recorded_run {actions : List Action} (hall : Runs.Allowed (step crc32) (acknowledged crc32) {} actions) :
    (Runs.run (step crc32) {} actions).Recorded :=
  Runs.invariant (fun _ action h hack => recorded_step action h hack) (recorded_empty _) hall

end Recorded

section Knows

variable {crc32 : Key → ℕ} {book : Book} {s : State} {row : Reported}

lemma knows_begin (book : Book) :
    (beginSweep crc32 s).knows = (plan crc32 book).kept (s.sweepNo + 1) s.knows := by
  funext key
  change (if crc32 key % refreshSlices = (s.sweepNo + 1) % refreshSlices then none else s.written key).isSome =
    ((s.written key).isSome && !decide (crc32 key % refreshSlices = (s.sweepNo + 1) % refreshSlices))
  split_ifs with hdue
  · rw [decide_eq_true hdue, Bool.not_true, Bool.and_false]
    rfl
  · rw [decide_eq_false hdue, Bool.not_false, Bool.and_true]

lemma knows_fullSweep : (fullSweep crc32 book s).knows = (plan crc32 book).round (s.sweepNo + 1) s.knows := by
  funext key
  rw [fullSweep, knows_foldl (keys_nodup book), knows_begin book]
  rfl

lemma Visit.sweepNo {s' : State} (h : Visit s row s') : s'.sweepNo = s.sweepNo := by
  cases h <;> rfl

lemma sweepNo_foldl (rows : List Reported) : (rows.foldl visitRow s).sweepNo = s.sweepNo := by
  induction rows generalizing s with
  | nil => rfl
  | cons row rest ih =>
    rw [List.foldl_cons, ih, (visit s row).sweepNo]

lemma sweepNo_fullSweep : (fullSweep crc32 book s).sweepNo = s.sweepNo + 1 := sweepNo_foldl _

lemma knows_iterate (n : ℕ) :
    ((fullSweep crc32 book)^[n] s).sweepNo = s.sweepNo + n ∧
      ((fullSweep crc32 book)^[n] s).knows = (plan crc32 book).rounds s.sweepNo s.knows n := by
  induction n with
  | zero => exact ⟨rfl, rfl⟩
  | succ n ih =>
    rw [Function.iterate_succ_apply', sweepNo_fullSweep, knows_fullSweep, ih.1, ih.2]
    exact ⟨rfl, rfl⟩

lemma fullSweep_row (crc32 : Key → ℕ) (h : s.Recorded) (hrow : row ∈ reportedRows book) :
    ((fullSweep crc32 book s).knows row.key = true → (fullSweep crc32 book s).store row.key = some row.parts) ∧
      ((fullSweep crc32 book s).knows row.key = false →
        (fullSweep crc32 book s).store row.key = s.store row.key) := by
  rcases foldl_row (s := beginSweep crc32 s) (keys_nodup book) hrow with hwritten | ⟨hnone, hstore⟩
  · refine ⟨fun _ => recorded_fullSweep h _ _ hwritten, fun hunknown => ?_⟩
    exact absurd ((State.knows_of_some hwritten).symm.trans hunknown) Bool.false_ne_true.symm
  · refine ⟨fun hknown => ?_, fun _ => hstore⟩
    exact absurd ((State.knows_of_none hnone).symm.trans hknown) Bool.false_ne_true

lemma store_fullSweep (h : s.Recorded) (hrow : row ∈ reportedRows book)
    (hstore : s.store row.key = some row.parts) : (fullSweep crc32 book s).store row.key = some row.parts := by
  obtain ⟨hknown, hunknown⟩ := fullSweep_row crc32 h hrow
  cases hknows : (fullSweep crc32 book s).knows row.key with
  | true => exact hknown hknows
  | false => exact (hunknown hknows).trans hstore

lemma store_iterate (h : s.Recorded) (hrow : row ∈ reportedRows book) {m n : ℕ} (hle : m ≤ n)
    (hstore : ((fullSweep crc32 book)^[m] s).store row.key = some row.parts) :
    ((fullSweep crc32 book)^[n] s).store row.key = some row.parts := by
  induction n, hle using Nat.le_induction with
  | base => exact hstore
  | succ n _ ih =>
    rw [Function.iterate_succ_apply']
    exact store_fullSweep (recorded_iterate h n) hrow ih

end Knows

section Bound

variable {crc32 : Key → ℕ} {book : Book} {s : State} {row : Reported} {before after : List Reported}

lemma plan_entries (crc32 : Key → ℕ) (hrows : reportedRows book = before ++ row :: after) :
    (plan crc32 book).entries = before.map (·.key) ++ row.key :: after.map (·.key) := by
  change (reportedRows book).map (·.key) = _
  rw [hrows, List.map_append, List.map_cons]

lemma mem_of_split (hrows : reportedRows book = before ++ row :: after) : row ∈ reportedRows book :=
  hrows ▸ List.mem_append_right _ List.mem_cons_self

lemma unknown_begin (rows : List Reported) :
    (RollingRefresh.unknown (beginSweep crc32 s).knows (rows.map (·.key))).length =
      (rows.filter fun row => (beginSweep crc32 s).written row.key = none).length := by
  rw [RollingRefresh.unknown, List.filter_map, List.length_map]
  congr 1
  apply List.filter_congr
  intro row _
  rw [Function.comp_apply, State.knows]
  cases (beginSweep crc32 s).written row.key <;> rfl

lemma knows_after_iff (hrows : reportedRows book = before ++ row :: after) :
    (fullSweep crc32 book s).knows row.key = true ↔
      (beginSweep crc32 s).knows row.key = true ∨
      (before.filter fun row => (beginSweep crc32 s).written row.key = none).length < unknownWriteBudget := by
  rw [← unknown_begin, knows_fullSweep, knows_begin book]
  exact RollingRefresh.round_iff (plan_entries crc32 hrows) (keys_nodup book)

lemma changed_written_iff (h : s.Recorded) (hrows : reportedRows book = before ++ row :: after)
    {last : Parts} (hlast : s.written row.key = some last) (hne : last ≠ row.parts) :
    (fullSweep crc32 book s).store row.key = some row.parts ↔
      crc32 row.key % refreshSlices ≠ (s.sweepNo + 1) % refreshSlices ∨
      (before.filter fun row => (beginSweep crc32 s).written row.key = none).length < unknownWriteBudget := by
  obtain ⟨hknown, hunknown⟩ := fullSweep_row crc32 h (mem_of_split hrows)
  have hkept : (beginSweep crc32 s).knows row.key = true ↔
      crc32 row.key % refreshSlices ≠ (s.sweepNo + 1) % refreshSlices := by
    change (if _ then none else s.written row.key).isSome = true ↔ _
    rw [hlast]
    split_ifs with hdue
    · exact ⟨nofun, fun hnot => absurd hdue hnot⟩
    · exact ⟨fun _ => hdue, fun _ => rfl⟩
  rw [← hkept, ← knows_after_iff hrows]
  constructor
  · intro hstore
    by_contra hnot
    rw [hunknown (Bool.eq_false_of_not_eq_true hnot), h _ _ hlast] at hstore
    exact hne (Option.some.inj hstore)
  · exact hknown

lemma settles (h : s.Recorded) (hfit : (reportedRows book).length ≤ refreshSlices * unknownWriteBudget)
    {n : ℕ} (hn : refreshSlices * (reportedRows book).length ≤ n) : UpToDate book ((fullSweep crc32 book)^[n] s) := by
  intro row hrow
  obtain ⟨before, after, hrows⟩ := List.append_of_mem hrow
  have hlength : before.length + 1 ≤ (reportedRows book).length := by
    rw [hrows, List.length_append, List.length_cons]
    omega
  have hbefore : (before.map (·.key)).length < (plan crc32 book).slices * (plan crc32 book).budget := by
    rw [List.length_map]
    exact lt_of_lt_of_le hlength hfit
  obtain ⟨i, hi, hknown⟩ := RollingRefresh.reached s.sweepNo s.knows (plan_entries crc32 hrows)
    (keys_nodup book) (Nat.succ_pos 11) hbefore
  rw [← (knows_iterate (i + 1)).2, Function.iterate_succ_apply'] at hknown
  have hstore : ((fullSweep crc32 book)^[i + 1] s).store row.key = some row.parts := by
    rw [Function.iterate_succ_apply']
    exact (fullSweep_row crc32 (recorded_iterate h i) hrow).1 hknown
  apply store_iterate h hrow _ hstore
  calc i + 1 ≤ (before.length + 1) * refreshSlices := by rwa [List.length_map] at hi
    _ ≤ (reportedRows book).length * refreshSlices := Nat.mul_le_mul_right _ hlength
    _ ≤ n := by rwa [Nat.mul_comm]

/-- A row with a cycle's budget of rows before it is never written after a restart. -/
lemma starves (crc32 : Key → ℕ) (hrows : reportedRows book = before ++ row :: after)
    (hfull : refreshSlices * unknownWriteBudget ≤ before.length) (n : ℕ) :
    ((fullSweep crc32 book)^[n] {}).store row.key = none := by
  have hbefore : (plan crc32 book).slices * (plan crc32 book).budget ≤ (before.map (·.key)).length := by
    rw [List.length_map]
    exact hfull
  have hrecorded (n : ℕ) : ((fullSweep crc32 book)^[n] {}).Recorded := recorded_iterate (recorded_empty _) n
  have hnever := RollingRefresh.starved (plan_entries crc32 hrows) (keys_nodup book) (Nat.succ_pos 11)
    hbefore 0
  induction n with
  | zero => rfl
  | succ n ih =>
    have hunknown : ((fullSweep crc32 book)^[n + 1] {}).knows row.key = false := by
      rw [(knows_iterate (n + 1)).2]
      exact hnever (n + 1)
    rw [Function.iterate_succ_apply'] at hunknown ⊢
    exact ((fullSweep_row crc32 (hrecorded n) (mem_of_split hrows)).2 hunknown).trans ih

lemma not_upToDate (hfull : refreshSlices * unknownWriteBudget < (reportedRows book).length) (n : ℕ) :
    ¬ UpToDate book ((fullSweep crc32 book)^[n] {}) := by
  intro h
  have hsplit := (List.take_append_drop (refreshSlices * unknownWriteBudget) (reportedRows book)).symm
  cases hrest : (reportedRows book).drop (refreshSlices * unknownWriteBudget) with
  | nil => exact absurd (List.drop_eq_nil_iff.mp hrest) (not_le.mpr hfull)
  | cons row after =>
    rw [hrest] at hsplit
    have hlength : refreshSlices * unknownWriteBudget ≤
        ((reportedRows book).take (refreshSlices * unknownWriteBudget)).length := by
      rw [List.length_take]
      omega
    have hnone := starves crc32 hsplit hlength n
    rw [h row (mem_of_split hsplit)] at hnone
    cases hnone

end Bound

/-- After any run whose failed writes struck known rows without an effect, skipped writes lose nothing
of a listing that fits a cycle's budget; a longer listing never settles after a restart. -/
theorem skipped_writes_kept (crc32 : Key → ℕ) {actions : List Action}
    (hall : Runs.Allowed (step crc32) (acknowledged crc32) {} actions) (book : Book) :
    LosesNothing crc32 book (Runs.run (step crc32) {} actions) ∧
      (refreshSlices * unknownWriteBudget < (reportedRows book).length →
        ∀ n, ¬ UpToDate book ((fullSweep crc32 book)^[n] {})) := by
  have hrecorded := recorded_run hall
  refine ⟨⟨fun row _ => hrecorded row.key row.parts, ?_, fun _ _ => fullSweep_of_completed, ?_⟩, not_upToDate⟩
  · rintro before row after hrows ⟨last, hlast, hne⟩
    exact changed_written_iff hrecorded hrows hlast hne
  · intro hfit n hn
    exact settles hrecorded hfit hn

/-- Every write of the first attempt raises after it took effect, and the service restarts. -/
theorem skipped_writes_kept_failures :
    Runs.Allowed (step fun _ => 0) (acknowledged fun _ => 0) {}
        [.attempt (some breakEven) fun _ => .unacknowledged, .restart none fun _ => .done,
          .attempt (some sharedSell) fun _ => .lost] ∧
      LosesNothing (fun _ => 0) breakEven (Runs.run (step fun _ => 0) {}
        [.attempt (some breakEven) fun _ => .unacknowledged, .restart none fun _ => .done,
          .attempt (some sharedSell) fun _ => .lost]) := by
  have hall : Runs.Allowed (step fun _ => 0) (acknowledged fun _ => 0) {}
      [.attempt (some breakEven) fun _ => .unacknowledged, .restart none fun _ => .done,
        .attempt (some sharedSell) fun _ => .lost] := ⟨fun _ _ _ => begin_empty _ _ _, trivial, nofun, trivial⟩
  exact ⟨hall, (skipped_writes_kept (fun _ => 0) hall breakEven).1⟩

def label (kind : Char) (i : ℕ) : String := String.ofList (kind :: List.replicate i 'x')

lemma label_inj {kind kind' : Char} {i j : ℕ} (h : label kind i = label kind' j) : kind = kind' ∧ i = j := by
  have hlist := congrArg String.toList h
  rw [label, label, String.toList_ofList, String.toList_ofList] at hlist
  obtain ⟨hkind, hrest⟩ := List.cons.inj hlist
  have hlength := congrArg List.length hrest
  rw [List.length_replicate, List.length_replicate] at hlength
  exact ⟨hkind, hlength⟩

def bracketOrder (i : ℕ) : Payload where
  brokerOrderId := label 'b' i
  symbol := "AAPL"
  side := "buy"
  legs := [{ brokerOrderId := label 's' i }, { brokerOrderId := label 't' i }]

def ownExecution (i : ℕ) : Execution := ⟨label 'e' i, label 'b' i⟩

lemma bracket_ids (n : ℕ) : (brokerOrders ((List.range n).map bracketOrder)).map (·.brokerOrderId) =
    (List.range n).flatMap fun i => [label 'b' i, label 's' i, label 't' i] := by
  rw [brokerOrders, List.flatMap_map, List.map_flatMap]
  rfl

def ownBrackets (n : ℕ) : Book where
  executions := (List.range n).map ownExecution
  orders := (List.range n).map bracketOrder
  execution_ids_nodup := by
    rw [List.map_map]
    exact List.nodup_range.map fun i j h => (label_inj h).2
  ids_ne := by
    intro order horder hempty
    have hid : order.brokerOrderId ∈ (List.range n).flatMap fun i => [label 'b' i, label 's' i, label 't' i] := by
      rw [← bracket_ids]
      exact List.mem_map_of_mem horder
    obtain ⟨i, -, hlabel⟩ := List.mem_flatMap.mp hid
    have hnonempty (kind : Char) : label kind i ≠ "" := fun h => by
      have hlist := congrArg String.toList h
      rw [label, String.toList_ofList] at hlist
      cases hlist
    rw [hempty] at hlabel
    simp only [List.mem_cons, List.not_mem_nil, or_false] at hlabel
    rcases hlabel with h | h | h <;> exact hnonempty _ h.symm
  ids_nodup := by
    rw [bracket_ids]
    refine List.nodup_flatMap.mpr ⟨fun i _ => ?_, ?_⟩
    · have hne {kind kind' : Char} (hkind : kind ≠ kind') : label kind i ≠ label kind' i :=
        fun h => hkind (label_inj h).1
      simp [hne]
    · refine List.nodup_range.imp fun {i j} hij id hid hid' => hij ?_
      simp only [List.mem_cons, List.not_mem_nil, or_false] at hid hid'
      rcases hid with rfl | rfl | rfl <;> rcases hid' with h | h | h <;> exact (label_inj h).2
  filled_nonneg := by
    intro order horder
    obtain ⟨payload, hpayload, hleg⟩ := List.mem_flatMap.mp horder
    obtain ⟨i, -, rfl⟩ := List.mem_map.mp hpayload
    simp only [bracketOrder, List.mem_cons, List.not_mem_nil, or_false] at hleg
    rcases hleg with rfl | rfl | rfl <;> exact le_refl _

lemma ownBrackets_owned {n i : ℕ} (hi : i ∈ List.range n) :
    ∃ execution, executionByOrder (ownBrackets n) (label 'b' i) = some execution := by
  rw [← Option.isSome_iff_exists, executionByOrder, List.find?_isSome]
  have hne : label 'b' i ≠ "" := (ownBrackets n).ids_ne (bracketOrder i).toLeg
    (mem_brokerOrders (List.mem_map_of_mem hi)).1
  refine ⟨ownExecution i, List.mem_reverse.mpr (List.mem_filter.mpr ⟨?_, decide_eq_true hne⟩), decide_eq_true rfl⟩
  exact List.mem_map_of_mem hi

lemma ownBrackets_rows (n : ℕ) : (reportedRows (ownBrackets n)).length = n * 4 := by
  have hfour : (ownBrackets n).orders.map (fun order => (orderRows (ownBrackets n) order).length) =
      List.replicate n 4 := by
    refine List.eq_replicate_iff.mpr ⟨by simp [ownBrackets], fun length hlength => ?_⟩
    obtain ⟨order, horder, rfl⟩ := List.mem_map.mp hlength
    obtain ⟨i, hi, rfl⟩ := List.mem_map.mp horder
    obtain ⟨execution, howned⟩ := ownBrackets_owned hi
    have hkeys := congrArg List.length (keys_orderRows horder)
    rw [executionKey, executionId, show (bracketOrder i).brokerOrderId = label 'b' i from rfl, howned] at hkeys
    rwa [List.length_map] at hkeys
  rw [reportedRows, List.length_flatMap, hfour, List.sum_replicate, smul_eq_mul]

theorem full_listing_starves :
    ¬ ∀ (crc32 : Key → ℕ) (book : Book), ∃ N, ∀ n ≥ N, UpToDate book ((fullSweep crc32 book)^[n] {}) := by
  intro h
  obtain ⟨N, hN⟩ := h (fun _ => 0) (ownBrackets 500)
  refine not_upToDate ?_ N (hN N (le_refl N))
  rw [ownBrackets_rows]
  decide

end AlgoTrader.Reconciliation
