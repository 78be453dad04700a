import Mathlib.Algebra.Order.BigOperators.Group.List
import Mathlib.Algebra.Order.Ring.Rat
import Mathlib.Tactic.Linarith

/-! Claims on one quantity, each served as if it were the only one. -/

namespace Shares

lemma sum_eq_sum_filter {α : Type*} {amount part : α → ℚ} {p : α → Prop} [DecidablePred p] {l : List α}
    (h : ∀ a ∈ l, amount a = if p a then part a else 0) :
    (l.map amount).sum = ((l.filter p).map part).sum := by
  induction l with
  | nil => rfl
  | cons a rest ih =>
    have hrest := ih fun b hb => h b (List.mem_cons_of_mem a hb)
    rw [List.map_cons, List.sum_cons, hrest, h a List.mem_cons_self]
    by_cases hp : p a
    · rw [if_pos hp, List.filter_cons_of_pos (by simpa using hp), List.map_cons, List.sum_cons]
    · rw [if_neg hp, List.filter_cons_of_neg (by simpa using hp), zero_add]

def share (quantity claim : ℚ) : ℚ := min claim quantity

variable {claims : List ℚ} {quantity : ℚ}

lemma share_nonneg {claim : ℚ} (hclaim : 0 ≤ claim) (hquantity : 0 ≤ quantity) : 0 ≤ share quantity claim :=
  le_min hclaim hquantity

lemma share_le_claim (quantity claim : ℚ) : share quantity claim ≤ claim := min_le_left claim quantity

lemma share_le_quantity (quantity claim : ℚ) : share quantity claim ≤ quantity := min_le_right claim quantity

lemma sum_share_le_sum (claims : List ℚ) : (claims.map (share quantity)).sum ≤ claims.sum := by
  induction claims with
  | nil => exact le_refl 0
  | cons claim rest ih =>
    rw [List.map_cons, List.sum_cons, List.sum_cons]
    exact add_le_add (share_le_claim quantity claim) ih

lemma sum_share_nonneg (hclaims : ∀ claim ∈ claims, 0 < claim) (hquantity : 0 ≤ quantity) :
    0 ≤ (claims.map (share quantity)).sum := by
  apply List.sum_nonneg
  intro served hserved
  obtain ⟨claim, hclaim, rfl⟩ := List.mem_map.mp hserved
  exact share_nonneg (hclaims claim hclaim).le hquantity

lemma sum_share_pos (hclaims : ∀ claim ∈ claims, 0 < claim) (hquantity : 0 < quantity) (hne : claims ≠ []) :
    0 < (claims.map (share quantity)).sum := by
  cases claims with
  | nil => exact absurd rfl hne
  | cons claim rest =>
    rw [List.map_cons, List.sum_cons]
    have hfirst : 0 < share quantity claim := lt_min (hclaims claim List.mem_cons_self) hquantity
    have hrest := sum_share_nonneg (fun claim hclaim => hclaims claim (List.mem_cons_of_mem _ hclaim)) hquantity.le
    linarith

lemma sum_share_eq_sum (hfit : ∀ claim ∈ claims, claim ≤ quantity) :
    (claims.map (share quantity)).sum = claims.sum := by
  congr 1
  conv_rhs => rw [← List.map_id claims]
  apply List.map_congr_left
  intro claim hclaim
  exact min_eq_left (hfit claim hclaim)

/-- A claim larger than the quantity takes all of it, so that any other claim overdraws it. -/
lemma quantity_lt_of_large {claim : ℚ} (hclaims : ∀ claim ∈ claims, 0 < claim) (hquantity : 0 < quantity)
    (hmem : claim ∈ claims) (hlarge : quantity < claim) (htwo : 1 < claims.length) :
    quantity < (claims.map (share quantity)).sum := by
  obtain ⟨before, after, rfl⟩ := List.append_of_mem hmem
  have hothers : before ++ after ≠ [] := by
    intro hnil
    obtain ⟨rfl, rfl⟩ := List.append_eq_nil_iff.mp hnil
    exact absurd htwo (lt_irrefl 1)
  have hpos : ∀ other ∈ before ++ after, 0 < other := by
    intro other hother
    apply hclaims
    rcases List.mem_append.mp hother with hbefore | hafter
    · exact List.mem_append_left _ hbefore
    · exact List.mem_append_right _ (List.mem_cons_of_mem _ hafter)
  have hrest := sum_share_pos hpos hquantity hothers
  have hall : share quantity claim = quantity := min_eq_right hlarge.le
  rw [List.map_append, List.sum_append] at hrest ⊢
  rw [List.map_cons, List.sum_cons, hall]
  linarith

/-- Serving every claim alone stays within the quantity exactly when there is nothing to share, when
nobody shares it, or when all the claims fit. -/
theorem sum_share_le_iff (hclaims : ∀ claim ∈ claims, 0 < claim) (hquantity : 0 ≤ quantity) :
    (claims.map (share quantity)).sum ≤ quantity ↔
      quantity = 0 ∨ claims.length ≤ 1 ∨ claims.sum ≤ quantity := by
  constructor
  · intro hle
    by_contra hnot
    push Not at hnot
    obtain ⟨hne, htwo, hover⟩ := hnot
    have hpos : 0 < quantity := lt_of_le_of_ne hquantity hne.symm
    have hfit : ∀ claim ∈ claims, claim ≤ quantity := by
      intro claim hmem
      by_contra hlarge
      exact absurd hle (not_le.mpr (quantity_lt_of_large hclaims hpos hmem (not_le.mp hlarge) htwo))
    rw [sum_share_eq_sum hfit] at hle
    exact absurd hle (not_le.mpr hover)
  · rintro (rfl | hone | hfit)
    · have hnone : ∀ served ∈ claims.map (share 0), served ≤ 0 := by
        intro served hserved
        obtain ⟨claim, -, rfl⟩ := List.mem_map.mp hserved
        exact share_le_quantity 0 claim
      exact (List.sum_le_card_nsmul _ 0 hnone).trans_eq (nsmul_zero _)
    · match claims, hone with
      | [], _ => exact hquantity
      | [claim], _ =>
        rw [List.map_singleton, List.sum_singleton]
        exact share_le_quantity quantity claim
    · exact (sum_share_le_sum claims).trans hfit

end Shares
