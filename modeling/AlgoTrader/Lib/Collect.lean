import Mathlib.Data.List.Basic

/-! What a loop has collected at its end, for a state property that each step can only add to. -/

namespace Collect

variable {σ α : Type*} {step : σ → α → σ} {new : α → Prop}

lemma foldl_iff (holds : σ → Prop) (hstep : ∀ s a, holds (step s a) ↔ holds s ∨ new a) (l : List α) (s : σ) :
    holds (l.foldl step s) ↔ holds s ∨ ∃ a ∈ l, new a := by
  induction l generalizing s with
  | nil => simp
  | cons a l ih =>
    rw [List.foldl_cons, ih, hstep]
    simp only [List.mem_cons, exists_eq_or_imp]
    rw [or_assoc]

end Collect
