import Mathlib.Algebra.Order.BigOperators.Group.List
import Mathlib.Algebra.Order.Ring.Rat
import Mathlib.Tactic.Linarith

/-! Totals of a list by a key, kept within a limit as it grows. -/

namespace Tally

variable {α κ : Type*} [DecidableEq κ] (amount : α → ℚ) (key : α → κ)

def total (l : List α) (k : κ) : ℚ := ((l.filter (key · = k)).map amount).sum

def Within (limit : ℚ) (l : List α) : Prop := ∀ a ∈ l, total amount key l (key a) ≤ limit

instance (limit : ℚ) (l : List α) : Decidable (Within amount key limit l) := List.decidableBAll _ l

variable {amount key} {l : List α} {a : α} {k : κ} {limit : ℚ}

@[simp] lemma total_nil : total amount key [] k = 0 := rfl

lemma total_append_singleton :
    total amount key (l ++ [a]) k = total amount key l k + if key a = k then amount a else 0 := by
  rw [total, total, List.filter_append, List.map_append, List.sum_append]
  split_ifs with h <;> simp [h]

-- A running total kept as a function is booked by updating it at the key.
lemma update_add_apply {used : κ → ℚ} {booked : κ} {x : ℚ} :
    Function.update used booked (used booked + x) k = used k + if booked = k then x else 0 := by
  by_cases h : booked = k
  · rw [h, Function.update_self, if_pos rfl]
  · rw [Function.update_of_ne (Ne.symm h), if_neg h, add_zero]

lemma Within.append_singleton (h : Within amount key limit l) (hfit : total amount key l (key a) + amount a ≤ limit) :
    Within amount key limit (l ++ [a]) := by
  intro b hb
  rw [total_append_singleton]
  split_ifs with hkey
  · rwa [← hkey]
  · rcases List.mem_append.mp hb with hold | hnew
    · rw [add_zero]
      exact h b hold
    · exact absurd (congrArg key (List.mem_singleton.mp hnew)).symm hkey

lemma within_append_singleton_iff (hnonneg : 0 ≤ amount a) :
    Within amount key limit (l ++ [a]) ↔
      Within amount key limit l ∧ total amount key l (key a) + amount a ≤ limit := by
  refine ⟨fun h => ⟨fun b hb => ?_, ?_⟩, fun ⟨h, hfit⟩ => h.append_singleton hfit⟩
  · have hall := h b (List.mem_append_left _ hb)
    rw [total_append_singleton] at hall
    split_ifs at hall <;> linarith
  · have hall := h a (List.mem_append_right _ (List.mem_singleton_self a))
    rwa [total_append_singleton, if_pos rfl] at hall

lemma total_cons : total amount key (a :: l) k = (if key a = k then amount a else 0) + total amount key l k := by
  rw [total, List.filter_cons]
  split_ifs with h <;> simp_all [total]

lemma total_nonpos (h : ∀ a ∈ l, amount a ≤ 0) : total amount key l k ≤ 0 := by
  induction l with
  | nil => exact le_rfl
  | cons a l ih =>
    have hrest := ih fun b hb => h b (List.mem_cons_of_mem _ hb)
    have hfirst := h a List.mem_cons_self
    rw [total_cons]
    split_ifs <;> linarith

lemma total_le_of_mem (h : ∀ b ∈ l, amount b ≤ 0) (ha : a ∈ l) : total amount key l (key a) ≤ amount a := by
  induction l with
  | nil => cases ha
  | cons b l ih =>
    have hl := fun c hc => h c (List.mem_cons_of_mem b hc)
    rw [total_cons]
    rcases List.mem_cons.mp ha with rfl | hmem
    · have hrest : total amount key l (key a) ≤ 0 := total_nonpos hl
      rw [if_pos rfl]
      linarith
    · have hrest := ih hl hmem
      have hfirst := h b List.mem_cons_self
      split_ifs <;> linarith

lemma sum_parts {M : Type*} [AddCommMonoid M] (f : α → M) {keys : List κ} {l : List α} (hnodup : keys.Nodup)
    (hkeys : ∀ a ∈ l, key a ∈ keys) :
    (keys.map fun k => ((l.filter (key · = k)).map f).sum).sum = (l.map f).sum := by
  induction keys generalizing l with
  | nil =>
    rw [List.eq_nil_iff_forall_not_mem.mpr fun a ha => List.not_mem_nil (hkeys a ha)]
    rfl
  | cons k rest ih =>
    obtain ⟨hk, hrest⟩ := List.nodup_cons.mp hnodup
    have hsplit := ((List.filter_append_perm (key · = k) l).map f).sum_eq
    rw [List.map_append, List.sum_append] at hsplit
    rw [List.map_cons, List.sum_cons, ← hsplit, ← ih hrest (l := l.filter fun a => !decide (key a = k))]
    · refine congrArg₂ (· + ·) rfl (congrArg List.sum (List.map_congr_left fun other hother => ?_))
      rw [List.filter_filter]
      refine congrArg (fun part => (List.map f part).sum) (List.filter_congr fun a _ => ?_)
      rw [Bool.eq_iff_iff, Bool.and_eq_true, decide_eq_true_eq, Bool.not_eq_true', decide_eq_false_iff_not]
      exact ⟨fun h => ⟨h, fun hkey => hk (hkey ▸ h ▸ hother)⟩, And.left⟩
    · intro a ha
      obtain ⟨hmem, hne⟩ := List.mem_filter.mp ha
      exact (List.mem_cons.mp (hkeys a hmem)).resolve_left (by simpa using hne)

end Tally
