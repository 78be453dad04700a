import AlgoTrader.Lib.Rounding
import AlgoTrader.Utils.Time
import Mathlib.Data.List.Sort

/-! The chronological split of the learning dataset (``build_dataset`` and ``train_challenger`` in
``app/learning/modeling.py``). The cut goes by position, so rows of one decision time may lie on both sides. -/

namespace AlgoTrader.Learning.Dataset

open AlgoTrader.Utils.Time

structure Decision where
  id : String
  createdAt : Timestamp
  accepted : Bool := false
  deriving DecidableEq

structure Label where
  id : String
  decisionSnapshotId : String
  labelType : String
  deriving DecidableEq

/-- The two tables; a decision's id is its primary key. -/
structure Db where
  decisions : List Decision
  labels : List Label
  ids_nodup : (decisions.map Decision.id).Nodup

structure Row where
  decision : Decision
  label : Label
  deriving DecidableEq

def Row.createdAt (row : Row) : Timestamp := row.decision.createdAt

def joined (db : Db) : List Row :=
  db.decisions.flatMap fun d => (db.labels.filter (·.decisionSnapshotId = d.id)).map fun label => ⟨d, label⟩

/-- An answer of ``list_labeled_decisions``: the order of rows with one time is the database's own. -/
def Listed (db : Db) (limit : ℕ) (rows : List Row) : Prop :=
  ∃ ordered : List Row, ordered.Perm (joined db) ∧ ordered.Pairwise (·.createdAt ≤ ·.createdAt) ∧
    rows = ordered.take (max limit 1)

def datasetLimit : ℕ := 100000

/-- Floats are the rationals they stand for. -/
structure Settings where
  trainingEnabled : Bool := false
  minTrainingRows : ℤ := 200
  holdoutFraction : ℚ := Rounding.toDouble (2 / 10)
  embargoRows : ℤ := 5

structure LearningDataset where
  rows : List Row
  splitIndex : ℕ
  embargoRows : ℕ
  acceptedOosTrades : ℕ
  sourceCutoffAt : Option Timestamp
  trainStartAt : Option Timestamp
  trainEndAt : Option Timestamp
  holdoutStartAt : Option Timestamp
  holdoutEndAt : Option Timestamp

section Split

variable (s : Settings) (rows : List Row)

def splitIndex (rowCount : ℕ) : ℕ :=
  let holdoutFraction := min (max s.holdoutFraction (Rounding.toDouble (1 / 10))) (Rounding.toDouble (4 / 10))
  ⌊Rounding.toDouble (rowCount * Rounding.toDouble (1 - holdoutFraction))⌋.toNat

-- ``int`` of a product of floats, which is just below 63 here.
example : splitIndex { holdoutFraction := Rounding.toDouble (3 / 10) } 90 = 62 := by decide +kernel

def embargo : ℕ := (max s.embargoRows 0).toNat

def sorted : List Row := rows.insertionSort (·.createdAt ≤ ·.createdAt)

def buildDataset : LearningDataset :=
  let rows := sorted rows
  let split := splitIndex s rows.length
  let trainRows := rows.take (split - embargo s)
  let holdoutRows := rows.drop split
  { rows := rows
    splitIndex := split
    embargoRows := embargo s
    acceptedOosTrades := holdoutRows.countP fun row => row.decision.accepted && row.label.labelType = "real"
    sourceCutoffAt := rows.getLast?.map Row.createdAt
    trainStartAt := trainRows.head?.map Row.createdAt
    trainEndAt := trainRows.getLast?.map Row.createdAt
    holdoutStartAt := holdoutRows.head?.map Row.createdAt
    holdoutEndAt := holdoutRows.getLast?.map Row.createdAt }

def LearningDataset.train (dataset : LearningDataset) : List Row :=
  dataset.rows.take (dataset.splitIndex - dataset.embargoRows)

def LearningDataset.holdout (dataset : LearningDataset) : List Row := dataset.rows.drop dataset.splitIndex

-- The rows a challenger is trained on, and those it is tested on.
def trainChallenger : Except String (List Row × List Row) :=
  if !s.trainingEnabled then .error "Learning training is disabled"
  else
    let dataset := buildDataset s rows
    if dataset.rows.length < s.minTrainingRows then
      .error ("Insufficient learning rows: " ++ toString dataset.rows.length ++ "/" ++ toString s.minTrainingRows)
    else if dataset.train = [] ∨ dataset.holdout = [] then
      .error "Chronological train/holdout split is empty"
    else .ok (dataset.train, dataset.holdout)

end Split

def labelCount (db : Db) (d : Decision) : ℕ := db.labels.countP (·.decisionSnapshotId = d.id)

def rowsOf (db : Db) (times : Timestamp → Bool) : ℕ :=
  min ((db.decisions.filter (times ·.createdAt)).map (labelCount db)).sum datasetLimit

/-- No time has its first label among the training rows and its last among the holdout. -/
def CutsBetweenTimes (s : Settings) (db : Db) : Prop :=
  let split := splitIndex s (rowsOf db fun _ => true)
  ∀ d ∈ db.decisions, rowsOf db (· < d.createdAt) < split - embargo s → rowsOf db (· ≤ d.createdAt) ≤ split

structure LeakFree (train holdout : List Row) : Prop where
  no_shared_decision : ∀ a ∈ train, ∀ b ∈ holdout, a.decision.id ≠ b.decision.id
  earlier : ∀ a ∈ train, ∀ b ∈ holdout, a.createdAt < b.createdAt

section Cut

variable {α : Type} {time : α → Timestamp} {p : α → Bool} {l : List α}

lemma lt_countP_iff (hdown : l.Pairwise fun a b => p b → p a) {i : ℕ} {a : α} (ha : l[i]? = some a) :
    i < l.countP p ↔ p a = true := by
  induction l generalizing i with
  | nil => cases ha
  | cons x rest ih =>
    obtain ⟨hx, hrest⟩ := List.pairwise_cons.mp hdown
    cases i with
    | zero =>
      obtain rfl := Option.some.inj ha
      rw [List.countP_cons]
      constructor
      · intro hpos
        by_contra hnot
        rw [if_neg hnot, add_zero, List.countP_pos_iff] at hpos
        obtain ⟨b, hb, hp⟩ := hpos
        exact hnot (hx b hb hp)
      · intro hp
        rw [if_pos hp]
        exact Nat.succ_pos _
    | succ i =>
      rw [List.getElem?_cons_succ] at ha
      rw [List.countP_cons, ← ih hrest ha]
      split_ifs with hp
      · exact Nat.succ_lt_succ_iff
      · have hnone : rest.countP p = 0 := List.countP_eq_zero.mpr fun b hb hpb => hp (hx b hb hpb)
        omega

lemma countP_take_of_down (hdown : l.Pairwise fun a b => p b → p a) (n : ℕ) :
    (l.take n).countP p = min (l.countP p) n := by
  induction l generalizing n with
  | nil => simp
  | cons x rest ih =>
    obtain ⟨hx, hrest⟩ := List.pairwise_cons.mp hdown
    cases n with
    | zero => simp
    | succ n =>
      rw [List.take_succ_cons, List.countP_cons, List.countP_cons, ih hrest]
      split_ifs with hp
      · exact (Nat.succ_min_succ _ _).symm
      · have hnone : rest.countP p = 0 := List.countP_eq_zero.mpr fun b hb hpb => hp (hx b hb hpb)
        simp [hnone]

lemma earlier_iff_counts (hsorted : l.Pairwise (time · ≤ time ·)) {times : List Timestamp}
    (htimes : ∀ a ∈ l, time a ∈ times) {k split : ℕ} (hk : k ≤ split) :
    (∀ a ∈ l.take k, ∀ b ∈ l.drop split, time a < time b) ↔
      ∀ t ∈ times, l.countP (time · < t) < k → l.countP (time · ≤ t) ≤ split := by
  have hbefore (t : Timestamp) : l.Pairwise fun a b => decide (time b < t) → decide (time a < t) :=
    hsorted.imp fun hab hb => decide_eq_true (hab.trans_lt (of_decide_eq_true hb))
  have hupTo (t : Timestamp) : l.Pairwise fun a b => decide (time b ≤ t) → decide (time a ≤ t) :=
    hsorted.imp fun hab hb => decide_eq_true (hab.trans (of_decide_eq_true hb))
  constructor
  · intro h t _ hfew
    by_contra hmany
    have hlength := List.countP_le_length (p := fun a => decide (time a ≤ t)) (l := l)
    have ha : l[l.countP (time · < t)]? = some l[l.countP (time · < t)] := List.getElem?_eq_getElem (by omega)
    have hb : l[split]? = some l[split] := List.getElem?_eq_getElem (by omega)
    have hlate : ¬ time l[l.countP (time · < t)] < t := fun hlt =>
      absurd ((lt_countP_iff (hbefore t) ha).mpr (decide_eq_true hlt)) (lt_irrefl _)
    have hearly : time l[split] ≤ t := of_decide_eq_true ((lt_countP_iff (hupTo t) hb).mp (not_le.mp hmany))
    have hmem : l[l.countP (time · < t)] ∈ l.take k :=
      List.mem_of_getElem? (by rwa [List.getElem?_take_of_lt hfew])
    have hmem' : l[split] ∈ l.drop split := List.mem_of_getElem? (i := 0) (by rwa [List.getElem?_drop])
    exact absurd (h _ hmem _ hmem') (not_lt.mpr (hearly.trans (not_lt.mp hlate)))
  · intro h a ha b hb
    by_contra hnot
    obtain ⟨i, hi⟩ := List.mem_iff_getElem?.mp ha
    obtain ⟨j, hj⟩ := List.mem_iff_getElem?.mp hb
    rw [List.getElem?_drop] at hj
    have hik : i < k := by
      by_contra hle
      rw [List.getElem?_take_eq_none (not_lt.mp hle)] at hi
      cases hi
    rw [List.getElem?_take_of_lt hik] at hi
    have hfew : l.countP (time · < time a) ≤ i := by
      by_contra hlt
      have := of_decide_eq_true ((lt_countP_iff (hbefore (time a)) hi).mp (not_le.mp hlt))
      exact lt_irrefl _ this
    have hmany := (lt_countP_iff (hupTo (time a)) hj).mpr (decide_eq_true (not_lt.mp hnot))
    have := h (time a) (htimes a (List.mem_of_mem_take ha)) (by omega)
    omega

end Cut

section Leak

variable {s : Settings} {db : Db} {rows : List Row}

lemma mem_joined {row : Row} (h : row ∈ joined db) : row.decision ∈ db.decisions := by
  obtain ⟨d, hd, hrow⟩ := List.mem_flatMap.mp h
  obtain ⟨label, -, rfl⟩ := List.mem_map.mp hrow
  exact hd

-- A decision has one time, however many labels it has.
lemma same_time {limit : ℕ} (hrows : Listed db limit rows) {a b : Row} (ha : a ∈ rows) (hb : b ∈ rows)
    (hid : a.decision.id = b.decision.id) : a.createdAt = b.createdAt := by
  obtain ⟨ordered, hperm, -, rfl⟩ := hrows
  have hmem {row : Row} (h : row ∈ ordered.take (max limit 1)) : row.decision ∈ db.decisions :=
    mem_joined (hperm.mem_iff.mp (List.mem_of_mem_take h))
  have hsame := List.inj_on_of_nodup_map db.ids_nodup (hmem ha) (hmem hb) hid
  rw [Row.createdAt, Row.createdAt, hsame]

lemma sorted_pairwise (rows : List Row) : (sorted rows).Pairwise (·.createdAt ≤ ·.createdAt) := by
  have : Std.Total fun a b : Row => a.createdAt ≤ b.createdAt := ⟨fun a b => le_total _ _⟩
  have : IsTrans Row fun a b => a.createdAt ≤ b.createdAt := ⟨fun a b c hab hbc => hab.trans hbc⟩
  exact List.pairwise_insertionSort _ _

lemma mem_sorted {row : Row} : row ∈ sorted rows ↔ row ∈ rows := List.mem_insertionSort _

lemma countP_joined (db : Db) (times : Timestamp → Bool) :
    (joined db).countP (times ·.createdAt) = ((db.decisions.filter (times ·.createdAt)).map (labelCount db)).sum := by
  rw [joined]
  induction db.decisions with
  | nil => rfl
  | cons d rest ih =>
    have hown : ((db.labels.filter (·.decisionSnapshotId = d.id)).map fun label => (⟨d, label⟩ : Row)).countP
        (times ·.createdAt) = if times d.createdAt then labelCount db d else 0 := by
      rw [List.countP_map, labelCount]
      split_ifs with htimes
      · rw [List.countP_eq_length_filter (l := db.labels)]
        refine List.countP_eq_length.mpr ?_
        exact fun _ _ => htimes
      · exact List.countP_eq_zero.mpr fun _ _ => htimes
    rw [List.flatMap_cons, List.countP_append, ih, hown, List.filter_cons]
    split_ifs
    · rw [List.map_cons, List.sum_cons]
    · exact zero_add _

lemma countP_sorted (hrows : Listed db datasetLimit rows) {times : Timestamp → Bool}
    (hdown : ∀ t t', t ≤ t' → times t' → times t) :
    (sorted rows).countP (times ·.createdAt) = rowsOf db times := by
  obtain ⟨ordered, hperm, hordered, rfl⟩ := hrows
  rw [sorted, (List.perm_insertionSort _ _).countP_eq, rowsOf, ← countP_joined, ← hperm.countP_eq]
  exact countP_take_of_down (hordered.imp fun hab => hdown _ _ hab) datasetLimit

lemma length_sorted (hrows : Listed db datasetLimit rows) : rows.length = rowsOf db fun _ => true := by
  rw [← countP_sorted hrows fun _ _ _ _ => rfl, List.countP_true, sorted, List.length_insertionSort]

lemma leakFree_iff_cut (hrows : Listed db datasetLimit rows) :
    LeakFree (buildDataset s rows).train (buildDataset s rows).holdout ↔ CutsBetweenTimes s db := by
  have hmem {row : Row} (h : row ∈ sorted rows) : row.createdAt ∈ db.decisions.map Decision.createdAt := by
    obtain ⟨ordered, hperm, -, rfl⟩ := hrows
    exact List.mem_map_of_mem (mem_joined (hperm.mem_iff.mp (List.mem_of_mem_take (mem_sorted.mp h))))
  have hcut := earlier_iff_counts (sorted_pairwise rows) (fun _ h => hmem h)
    (Nat.sub_le (splitIndex s (sorted rows).length) (embargo s))
  have hearlier : LeakFree (buildDataset s rows).train (buildDataset s rows).holdout ↔
      ∀ a ∈ (buildDataset s rows).train, ∀ b ∈ (buildDataset s rows).holdout, a.createdAt < b.createdAt := by
    refine ⟨LeakFree.earlier, fun h => ⟨fun a ha b hb hid => ?_, h⟩⟩
    have ha' := mem_sorted.mp (List.mem_of_mem_take ha)
    have hb' := mem_sorted.mp (List.mem_of_mem_drop hb)
    exact absurd (same_time hrows ha' hb' hid) (h a ha b hb).ne
  rw [hearlier]
  refine hcut.trans ?_
  have hlength : (sorted rows).length = rowsOf db fun _ => true :=
    (List.length_insertionSort _ _).trans (length_sorted hrows)
  rw [CutsBetweenTimes, hlength]
  simp only [List.forall_mem_map]
  refine forall₂_congr fun d _ => ?_
  rw [countP_sorted hrows fun t t' htt' ht' => decide_eq_true (htt'.trans_lt (of_decide_eq_true ht')),
    countP_sorted hrows fun t t' htt' ht' => decide_eq_true (htt'.trans (of_decide_eq_true ht'))]

lemma trainChallenger_ok {split : List Row × List Row} (h : trainChallenger s rows = .ok split) :
    split = ((buildDataset s rows).train, (buildDataset s rows).holdout) := by
  rw [trainChallenger] at h
  dsimp only at h
  split_ifs at h
  cases h
  rfl

end Leak

theorem split_leak_free_iff (s : Settings) (db : Db) {rows : List Row} (hrows : Listed db datasetLimit rows) :
    (LeakFree (buildDataset s rows).train (buildDataset s rows).holdout ↔ CutsBetweenTimes s db) ∧
      ∀ split, trainChallenger s rows = .ok split → (LeakFree split.1 split.2 ↔ CutsBetweenTimes s db) := by
  refine ⟨leakFree_iff_cut hrows, fun split hsplit => ?_⟩
  rw [trainChallenger_ok hsplit]
  exact leakFree_iff_cut hrows

def nightly : Settings := { trainingEnabled := true, minTrainingRows := 10, embargoRows := 0 }

def decided (n : ℕ) : Decision := { id := toString n, createdAt := n }

def labelOf (n : ℕ) (labelType : String) : Label :=
  { id := toString n ++ labelType, decisionSnapshotId := toString n, labelType := labelType }

def tenDecisions : Db :=
  { decisions := (List.range 10).map decided
    labels := (List.range 10).map fun n => labelOf n "real"
    ids_nodup := by decide +kernel }

theorem split_leak_free_of_distinct_times :
    (LeakFree (buildDataset nightly (joined tenDecisions)).train (buildDataset nightly (joined tenDecisions)).holdout ↔
        CutsBetweenTimes nightly tenDecisions) ∧
      ∀ split, trainChallenger nightly (joined tenDecisions) = .ok split →
        (LeakFree split.1 split.2 ↔ CutsBetweenTimes nightly tenDecisions) := by
  have hrows : Listed tenDecisions datasetLimit (joined tenDecisions) := by
    refine ⟨joined tenDecisions, List.Perm.refl _, by decide +kernel, ?_⟩
    exact (List.take_of_length_le (by decide +kernel)).symm
  exact split_leak_free_iff nightly tenDecisions hrows

-- The eighth of nine decisions has two labels: rows 7 and 8 of ten.
def nineDecisions : Db :=
  { decisions := (List.range 9).map decided
    labels := labelOf 7 "shadow" :: (List.range 9).map fun n => labelOf n "real"
    ids_nodup := by decide +kernel }

theorem split_leaks :
    Listed nineDecisions datasetLimit (joined nineDecisions) ∧
      (trainChallenger nightly (joined nineDecisions)).toOption.isSome ∧
      ¬ LeakFree (buildDataset nightly (joined nineDecisions)).train
        (buildDataset nightly (joined nineDecisions)).holdout := by
  refine ⟨⟨joined nineDecisions, List.Perm.refl _, by decide +kernel, ?_⟩, by decide +kernel, fun h => ?_⟩
  · exact (List.take_of_length_le (by decide +kernel)).symm
  · have hshared := h.no_shared_decision ⟨decided 7, labelOf 7 "shadow"⟩ (by decide +kernel)
      ⟨decided 7, labelOf 7 "real"⟩ (by decide +kernel)
    exact hshared rfl

end AlgoTrader.Learning.Dataset
