import Mathlib.Data.Finset.Card
import Mathlib.Data.Finset.Range
import Mathlib.Tactic.Common

/-! Marked days crossed between two dates: after the first, up to and including the last. -/

namespace Crossings

def daysFrom (a : ℤ) (n : ℕ) : Finset ℤ := (Finset.range n).image fun k : ℕ => a + k

lemma mem_daysFrom {a d : ℤ} {n : ℕ} : d ∈ daysFrom a n ↔ a ≤ d ∧ d < a + n := by
  simp only [daysFrom, Finset.mem_image, Finset.mem_range]
  constructor
  · rintro ⟨k, hk, rfl⟩
    omega
  · intro h
    exact ⟨(d - a).toNat, by omega, by omega⟩

section Count

variable (p : ℤ → Prop) [DecidablePred p]

def crossed (a b : ℤ) : Finset ℤ := {d ∈ daysFrom (a + 1) (b - a).toNat | p d}

lemma mem_crossed {a b d : ℤ} : d ∈ crossed p a b ↔ a < d ∧ d ≤ b ∧ p d := by
  rw [crossed, Finset.mem_filter, mem_daysFrom, ← and_assoc]
  apply and_congr_left
  intro _
  omega

@[simp] lemma crossed_self (a : ℤ) : crossed p a a = ∅ := by
  rw [crossed, Int.sub_self]
  rfl

lemma card_crossed_add {a b c : ℤ} (hab : a ≤ b) (hbc : b ≤ c) :
    (crossed p a b).card + (crossed p b c).card = (crossed p a c).card := by
  have hdisjoint : Disjoint (crossed p a b) (crossed p b c) := by
    rw [Finset.disjoint_left]
    intro d hd hd'
    rw [mem_crossed] at hd hd'
    omega
  rw [← Finset.card_union_of_disjoint hdisjoint]
  congr 1
  ext d
  simp only [Finset.mem_union, mem_crossed]
  constructor
  · rintro (⟨h1, h2, hp⟩ | ⟨h1, h2, hp⟩)
    · exact ⟨h1, h2.trans hbc, hp⟩
    · exact ⟨hab.trans_lt h1, h2, hp⟩
  · rintro ⟨h1, h2, hp⟩
    rcases le_or_gt d b with hdb | hdb
    · exact .inl ⟨h1, hdb, hp⟩
    · exact .inr ⟨hdb, h2, hp⟩

-- A loop over the days from ``a`` on counts the marked ones among the ``n`` it looks at.
lemma countP_range_eq_card (a : ℤ) (n : ℕ) :
    (List.range n).countP (fun k : ℕ => decide (p (a + k))) = {d ∈ daysFrom a n | p d}.card := by
  induction n with
  | zero => rfl
  | succ n ih =>
    have hlast : daysFrom a (n + 1) = insert (a + n) (daysFrom a n) := by
      ext d
      rw [Finset.mem_insert, mem_daysFrom, mem_daysFrom]
      omega
    have hnot : a + n ∉ {d ∈ daysFrom a n | p d} := by
      simp [mem_daysFrom]
    rw [List.range_succ, List.countP_append, ih, hlast, Finset.filter_insert]
    by_cases hp : p (a + n)
    · simp [hp, Finset.card_insert_of_notMem hnot]
    · simp [hp]

lemma countP_range_succ_eq_card (a b : ℤ) :
    (List.range (b - a).toNat).countP (fun k : ℕ => decide (p (a + 1 + k))) = (crossed p a b).card :=
  countP_range_eq_card p (a + 1) (b - a).toNat

end Count

section Marks

variable {p : ℤ → Prop} [DecidablePred p] {l : List ℤ}

lemma getElem_lt_succ (hsorted : l.Pairwise (· < ·)) {i : ℕ} (hi : i + 1 < l.length) : l[i] < l[i + 1] :=
  List.pairwise_iff_getElem.mp hsorted i (i + 1) _ hi (Nat.lt_succ_self i)

lemma getElem_le_getElem (hsorted : l.Pairwise (· < ·)) {j i : ℕ} (hji : j ≤ i) (hi : i < l.length) :
    l[j] ≤ l[i] := by
  rcases hji.eq_or_lt with rfl | hlt
  · rfl
  · exact (List.pairwise_iff_getElem.mp hsorted j i _ hi hlt).le

-- Every listed day after the ``j``-th is one crossing more.
theorem sub_le_card_crossed (hsorted : l.Pairwise (· < ·)) (hmarked : ∀ d ∈ l, p d) {j i : ℕ} (hji : j ≤ i)
    (hi : i < l.length) : i - j ≤ (crossed p l[j] l[i]).card := by
  induction i, hji using Nat.le_induction with
  | base => simp
  | succ i hji ih =>
    have hstep := getElem_lt_succ hsorted hi
    have hlast : 0 < (crossed p l[i] l[i + 1]).card := by
      rw [Finset.card_pos]
      exact ⟨l[i + 1], (mem_crossed p).mpr ⟨hstep, le_rfl, hmarked _ (List.getElem_mem hi)⟩⟩
    have hsplit := card_crossed_add p (getElem_le_getElem hsorted hji (by omega)) hstep.le
    have := ih (by omega)
    omega

theorem card_crossed_eq_sub (hsorted : l.Pairwise (· < ·)) (hmarked : ∀ d ∈ l, p d) {j i : ℕ} (hji : j ≤ i)
    (hi : i < l.length) (hall : ∀ d, l[j] < d → d ≤ l[i] → p d → d ∈ l) :
    (crossed p l[j] l[i]).card = i - j := by
  induction i, hji using Nat.le_induction with
  | base => simp
  | succ i hji ih =>
    have hstep := getElem_lt_succ hsorted hi
    have hfirst := getElem_le_getElem hsorted hji (by omega)
    -- A listed day between two neighbours of a sorted list is the later one.
    have hone : crossed p l[i] l[i + 1] = {l[i + 1]} := by
      ext d
      rw [mem_crossed, Finset.mem_singleton]
      constructor
      · rintro ⟨hlt, hle, hd⟩
        obtain ⟨k, hk, rfl⟩ := List.getElem_of_mem (hall d (hfirst.trans_lt hlt) hle hd)
        have hik : i < k := by
          by_contra hki
          exact absurd hlt (not_lt.mpr (getElem_le_getElem hsorted (not_lt.mp hki) (by omega)))
        exact le_antisymm hle (getElem_le_getElem hsorted hik hk)
      · rintro rfl
        exact ⟨hstep, le_rfl, hmarked _ (List.getElem_mem hi)⟩
    have hsplit := card_crossed_add p hfirst hstep.le
    have := ih (by omega) (fun d hlt hle hd => hall d hlt (hle.trans hstep.le) hd)
    rw [hone, Finset.card_singleton] at hsplit
    omega

end Marks

end Crossings
