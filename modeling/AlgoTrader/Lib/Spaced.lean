import Mathlib.Algebra.Order.Field.Basic
import Mathlib.Algebra.Order.Ring.Rat
import Mathlib.Tactic.Linarith
import Mathlib.Tactic.Ring

/-! Times that keep their distance: how many of them fit in a window. -/

namespace Spaced

variable {gap a b : ℚ} {l : List ℚ}

def Apart (gap : ℚ) (l : List ℚ) : Prop := l.Pairwise fun earlier later => earlier + gap ≤ later

lemma Apart.concat (h : Apart gap l) {t : ℚ} (ht : ∀ x ∈ l, x + gap ≤ t) : Apart gap (l ++ [t]) := by
  rw [Apart, List.pairwise_append]
  refine ⟨h, List.pairwise_singleton _ _, fun x hx y hy => ?_⟩
  rw [List.mem_singleton.mp hy]
  exact ht x hx

lemma length_mul_gap_le {first : ℚ} {rest : List ℚ} (h : Apart gap (first :: rest))
    (hfirst : first ≤ b) (hrest : ∀ t ∈ rest, t ≤ b) : rest.length * gap ≤ b - first := by
  induction rest generalizing first with
  | nil => simpa using hfirst
  | cons next rest ih =>
    obtain ⟨hhead, htail⟩ := List.pairwise_cons.mp h
    have hnext : first + gap ≤ next := hhead next List.mem_cons_self
    have hih := ih htail (hrest next List.mem_cons_self) fun t ht => hrest t (List.mem_cons_of_mem _ ht)
    rw [List.length_cons, Nat.cast_succ, add_mul, one_mul]
    linarith

theorem length_window_le (hgap : 0 < gap) (hab : a ≤ b) (h : Apart gap l) :
    ((l.filter fun t => a ≤ t ∧ t ≤ b).length : ℚ) ≤ (b - a) / gap + 1 := by
  have hwindow : Apart gap (l.filter fun t => a ≤ t ∧ t ≤ b) := List.Pairwise.filter _ h
  have hmem : ∀ t ∈ l.filter (fun t => a ≤ t ∧ t ≤ b), a ≤ t ∧ t ≤ b := fun t ht => by
    simpa using (List.mem_filter.mp ht).2
  have hdiv : (b - a) / gap * gap = b - a := div_mul_cancel₀ _ hgap.ne'
  revert hwindow hmem
  cases l.filter fun t => a ≤ t ∧ t ≤ b with
  | nil =>
    intro _ _
    rw [List.length_nil, Nat.cast_zero]
    have hpos : 0 ≤ (b - a) / gap := div_nonneg (by linarith) hgap.le
    linarith
  | cons first rest =>
    intro hwindow hmem
    have hlength := length_mul_gap_le hwindow (hmem first List.mem_cons_self).2
      fun t ht => (hmem t (List.mem_cons_of_mem _ ht)).2
    have hfirst := (hmem first List.mem_cons_self).1
    rw [List.length_cons, Nat.cast_succ, add_le_add_iff_right, le_div_iff₀ hgap]
    linarith

end Spaced
