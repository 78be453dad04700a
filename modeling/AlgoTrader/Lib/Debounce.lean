import Mathlib.Data.List.Induction

/-! A counter over a history that one kind of entry raises and another resets. -/

namespace Debounce

variable {α : Type*} (resets counts : α → Bool)

def next (n : ℕ) (entry : α) : ℕ := if resets entry then 0 else if counts entry then n + 1 else n

def count (history : List α) : ℕ := history.foldl (next resets counts) 0

variable {resets counts} {history : List α} {entry : α}

lemma count_concat : count resets counts (history ++ [entry]) =
    next resets counts (count resets counts history) entry := by
  rw [count, List.foldl_append]
  rfl

lemma count_le_of_not_resets (h : resets entry = false) :
    count resets counts history ≤ count resets counts (history ++ [entry]) := by
  rw [count_concat, next, h, if_neg Bool.false_ne_true]
  split_ifs
  · exact Nat.le_succ _
  · exact Nat.le_refl _

lemma count_of_counts (hresets : resets entry = false) (hcounts : counts entry = true) :
    count resets counts (history ++ [entry]) = count resets counts history + 1 := by
  rw [count_concat, next, hresets, hcounts, if_neg Bool.false_ne_true, if_pos rfl]

theorem since_last_reset (counts : α → Bool) (hreset : ∃ entry ∈ history, resets entry = true) :
    ∃ earlier reset later, history = earlier ++ reset :: later ∧ resets reset = true ∧
      (∀ entry ∈ later, resets entry = false) ∧ count resets counts history = (later.filter counts).length := by
  induction history using List.reverseRecOn with
  | nil =>
    obtain ⟨entry, hentry, -⟩ := hreset
    cases hentry
  | append_singleton history last ih =>
    by_cases hlast : resets last = true
    · refine ⟨history, last, [], rfl, hlast, fun _ h => absurd h List.not_mem_nil, ?_⟩
      rw [count_concat, next, if_pos hlast]
      rfl
    · have hlast' := Bool.eq_false_iff.mpr hlast
      obtain ⟨entry, hentry, hresets⟩ := hreset
      have hearlier : ∃ entry ∈ history, resets entry = true := by
        rcases List.mem_append.mp hentry with hold | hnew
        · exact ⟨entry, hold, hresets⟩
        · rw [List.mem_singleton.mp hnew] at hresets
          exact absurd hresets hlast
      obtain ⟨earlier, reset, later, rfl, hreset, hlater, hcount⟩ := ih hearlier
      refine ⟨earlier, reset, later ++ [last], by rw [List.append_assoc, List.cons_append], hreset, ?_, ?_⟩
      · intro entry hentry
        rcases List.mem_append.mp hentry with hold | hnew
        · exact hlater entry hold
        · rwa [List.mem_singleton.mp hnew]
      · rw [count_concat, next, if_neg hlast, hcount, List.filter_append]
        cases hcounts : counts last
        · rw [if_neg Bool.false_ne_true, List.filter_cons_of_neg (by rw [hcounts]; exact Bool.false_ne_true)]
          simp
        · rw [if_pos rfl, List.filter_cons_of_pos hcounts]
          simp

end Debounce
