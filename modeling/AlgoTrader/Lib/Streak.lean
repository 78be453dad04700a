import Mathlib.Data.List.Chain
import Mathlib.Data.List.Infix

/-! The unbroken end of a history: entries that are all good, each linked to the one before it. -/

variable {α : Type*}

structure Streak (good : α → Prop) (linked : α → α → Prop) (history streak : List α) : Prop where
  suffix : streak <:+ history
  all_good : ∀ entry ∈ streak, good entry
  chain : streak.IsChain linked

namespace Streak

variable {good : α → Prop} {linked : α → α → Prop} {history streak before after : List α}

lemma start {last : α} (h : good last) : Streak good linked (history ++ [last]) [last] where
  suffix := List.suffix_append history [last]
  all_good entry hentry := by rwa [List.mem_singleton.mp hentry]
  chain := List.isChain_singleton last

lemma extend {previous last : α} (h : Streak good linked (history ++ [previous]) streak)
    (hne : streak ≠ []) (hgood : good last) (hlink : linked previous last) :
    Streak good linked (history ++ [previous] ++ [last]) (streak ++ [last]) where
  suffix := by
    obtain ⟨front, hfront⟩ := h.suffix
    exact ⟨front, by rw [← List.append_assoc, hfront]⟩
  all_good entry hentry := by
    rcases List.mem_append.mp hentry with hold | hnew
    · exact h.all_good entry hold
    · rwa [List.mem_singleton.mp hnew]
  chain := by
    refine List.IsChain.append h.chain (List.isChain_singleton last) ?_
    intro x hx y hy
    obtain ⟨front, hfront⟩ := h.suffix
    have hlast : streak.getLast? = some previous := by
      have hall : (front ++ streak).getLast? = some previous := by rw [hfront, List.getLast?_concat]
      rwa [List.getLast?_append_of_ne_nil front hne] at hall
    cases hlast.symm.trans hx
    cases hy
    exact hlink

lemma after_bad {bad : α} (h : Streak good linked (before ++ bad :: after) streak) (hbad : ¬ good bad) :
    streak <:+ after := by
  rcases List.suffix_or_suffix_of_suffix h.suffix (List.suffix_append before (bad :: after)) with hin | hin
  · rcases List.suffix_cons_iff.mp hin with heq | hafter
    · exact absurd (h.all_good bad (heq ▸ List.mem_cons_self)) hbad
    · exact hafter
  · exact absurd (h.all_good bad (hin.subset List.mem_cons_self)) hbad

lemma after_gap {x y : α} (h : Streak good linked (before ++ x :: y :: after) streak)
    (hgap : ¬ linked x y) : streak <:+ y :: after := by
  have hbroken : ¬ (x :: y :: after) <:+ streak := by
    intro hin
    exact hgap (List.isChain_cons_cons.mp (h.chain.suffix hin)).1
  rcases List.suffix_or_suffix_of_suffix h.suffix (List.suffix_append before (x :: y :: after)) with hin | hin
  · rcases List.suffix_cons_iff.mp hin with heq | hafter
    · exact absurd (heq ▸ List.suffix_refl _) hbroken
    · exact hafter
  · exact absurd hin hbroken

end Streak
