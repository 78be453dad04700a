import Mathlib.Data.List.Nodup
import Mathlib.Data.List.MinMax

/-! Rows grouped by a key, of which each group keeps those with the last stamp, read through a second,
coarser key. -/

namespace Latest

variable {α κ γ τ : Type*} [LinearOrder τ] (key : α → κ) (coarse : α → γ) (stamp : α → τ)

def IsNewest (rows : List α) (row : α) : Prop :=
  row ∈ rows ∧ ∀ other ∈ rows, key other = key row → stamp other ≤ stamp row

variable [DecidableEq κ]

def newest (rows : List α) (k : κ) : Option τ := ((rows.filter (key · = k)).map stamp).max?

def latest (rows : List α) : List α :=
  rows.filter fun row => newest key stamp rows (key row) = some (stamp row)

variable {key coarse stamp} {rows : List α} {row : α}

lemma newest_eq_some {k : κ} {t : τ} :
    newest key stamp rows k = some t ↔
      (∃ row ∈ rows, key row = k ∧ stamp row = t) ∧ ∀ row ∈ rows, key row = k → stamp row ≤ t := by
  rw [newest, List.max?_eq_some_iff]
  simp only [List.mem_map, List.mem_filter, decide_eq_true_eq]
  constructor
  · rintro ⟨⟨row, ⟨hmem, hkey⟩, hstamp⟩, hle⟩
    exact ⟨⟨row, hmem, hkey, hstamp⟩, fun other hother hk => hle _ ⟨other, ⟨hother, hk⟩, rfl⟩⟩
  · rintro ⟨⟨row, hmem, hkey, hstamp⟩, hle⟩
    refine ⟨⟨row, ⟨hmem, hkey⟩, hstamp⟩, ?_⟩
    rintro _ ⟨other, ⟨hother, hk⟩, rfl⟩
    exact hle other hother hk

lemma mem_latest : row ∈ latest key stamp rows ↔ IsNewest key stamp rows row := by
  simp only [latest, List.mem_filter, decide_eq_true_eq, newest_eq_some, IsNewest]
  constructor
  · rintro ⟨hmem, -, hle⟩
    exact ⟨hmem, hle⟩
  · rintro ⟨hmem, hle⟩
    exact ⟨hmem, ⟨row, hmem, rfl, rfl⟩, hle⟩

variable (key stamp) in
lemma exists_isNewest (hrow : row ∈ rows) : ∃ last, IsNewest key stamp rows last ∧ key last = key row := by
  cases hnewest : newest key stamp rows (key row) with
  | none =>
    rw [newest, List.max?_eq_none_iff, List.map_eq_nil_iff, List.filter_eq_nil_iff] at hnewest
    exact absurd (decide_eq_true rfl) (hnewest row hrow)
  | some t =>
    obtain ⟨⟨last, hmem, hkey, rfl⟩, hle⟩ := newest_eq_some.mp hnewest
    exact ⟨last, ⟨hmem, fun other hother hk => hle other hother (hk.trans hkey)⟩, hkey⟩

lemma eq_singleton {l : List α} (hnodup : l.Nodup) (hrow : row ∈ l) (hall : ∀ other ∈ l, other = row) :
    l = [row] := by
  cases l with
  | nil => cases hrow
  | cons first rest =>
    obtain rfl := hall first List.mem_cons_self
    cases rest with
    | nil => rfl
    | cons second rest =>
      obtain rfl := hall second (List.mem_cons_of_mem _ List.mem_cons_self)
      exact absurd List.mem_cons_self (List.nodup_cons.mp hnodup).1

variable [DecidableEq γ]

variable (key coarse stamp rows) in
/-- Of every class of the coarse key exactly one row is left, and it is the newest of the class. -/
def Once : Prop :=
  ∀ row ∈ rows, ∃ last, (latest key stamp rows).filter (coarse · = coarse row) = [last] ∧
    IsNewest coarse stamp rows last

lemma mem_class {k : γ} : row ∈ (latest key stamp rows).filter (coarse · = k) ↔
    IsNewest key stamp rows row ∧ coarse row = k := by
  rw [List.mem_filter, mem_latest, decide_eq_true_eq]

lemma Once.unique (h : Once key coarse stamp rows) {a b : α} (ha : IsNewest key stamp rows a)
    (hb : IsNewest key stamp rows b) (hclass : coarse a = coarse b) : a = b := by
  obtain ⟨last, hlast, _⟩ := h a ha.1
  have hmemA : a ∈ [last] := hlast ▸ mem_class.mpr ⟨ha, rfl⟩
  have hmemB : b ∈ [last] := hlast ▸ mem_class.mpr ⟨hb, hclass.symm⟩
  exact (List.mem_singleton.mp hmemA).trans (List.mem_singleton.mp hmemB).symm

theorem once_iff (hnodup : rows.Nodup)
    (hcoarser : ∀ a ∈ rows, ∀ b ∈ rows, key a = key b → coarse a = coarse b) :
    Once key coarse stamp rows ↔
      (∀ a ∈ rows, ∀ b ∈ rows, coarse a = coarse b → key a = key b) ∧
        ∀ a b, IsNewest key stamp rows a → IsNewest key stamp rows b → key a = key b → a = b := by
  constructor
  · intro honce
    refine ⟨fun a ha b hb hclass => ?_, fun a b ha hb hkey => honce.unique ha hb (hcoarser a ha.1 b hb.1 hkey)⟩
    obtain ⟨lastA, hlastA, hkeyA⟩ := exists_isNewest key stamp ha
    obtain ⟨lastB, hlastB, hkeyB⟩ := exists_isNewest key stamp hb
    have hclassA := hcoarser lastA hlastA.1 a ha hkeyA
    have hclassB := hcoarser lastB hlastB.1 b hb hkeyB
    rw [← hkeyA, ← hkeyB, honce.unique hlastA hlastB (hclassA.trans (hclass.trans hclassB.symm))]
  · rintro ⟨hfine, hunique⟩ row hrow
    obtain ⟨last, hlast, hkey⟩ := exists_isNewest key stamp hrow
    have hclass := hcoarser last hlast.1 row hrow hkey
    refine ⟨last, ?_, hlast.1, fun other hother hc => hlast.2 other hother (hfine other hother last hlast.1 hc)⟩
    apply eq_singleton ((hnodup.filter _).filter _) (mem_class.mpr ⟨hlast, hclass⟩)
    intro other hother
    obtain ⟨hnewest, hc⟩ := mem_class.mp hother
    exact hunique other last hnewest hlast (hfine other hnewest.1 last hlast.1 (hc.trans hclass.symm))

end Latest
