import Mathlib.Order.Lattice

/-! The first of the earliest elements of a list. -/

namespace Earliest

variable {α β : Type*} [LinearOrder β] {time time' : α → β} {l : List α} {a : α}

def First (time : α → β) (l : List α) (a : α) : Prop :=
  ∃ before after, l = before ++ a :: after ∧ (∀ b ∈ before, time a < time b) ∧ ∀ b ∈ after, time a ≤ time b

lemma First.mem (h : First time l a) : a ∈ l := by
  obtain ⟨before, after, rfl, _⟩ := h
  exact List.mem_append_right _ List.mem_cons_self

lemma First.le (h : First time l a) {b : α} (hb : b ∈ l) : time a ≤ time b := by
  obtain ⟨before, after, rfl, hbefore, hafter⟩ := h
  rcases List.mem_append.mp hb with hb | hb
  · exact (hbefore b hb).le
  · rcases List.mem_cons.mp hb with rfl | hb
    · exact le_rfl
    · exact hafter b hb

lemma First.congr (h : First time l a) (heq : ∀ b ∈ l, time b = time' b) : First time' l a := by
  have ha := heq a h.mem
  obtain ⟨before, after, rfl, hbefore, hafter⟩ := h
  refine ⟨before, after, rfl, fun b hb => ?_, fun b hb => ?_⟩
  · rw [← ha, ← heq b (List.mem_append_left _ hb)]
    exact hbefore b hb
  · rw [← ha, ← heq b (List.mem_append_right _ (List.mem_cons_of_mem _ hb))]
    exact hafter b hb

lemma first_cons {b : α} : First time (b :: l) a ↔
    (a = b ∧ ∀ c ∈ l, time b ≤ time c) ∨ (time a < time b ∧ First time l a) := by
  constructor
  · rintro ⟨before, after, hl, hbefore, hafter⟩
    cases before with
    | nil =>
      obtain ⟨rfl, rfl⟩ := List.cons.inj hl
      exact .inl ⟨rfl, hafter⟩
    | cons c before =>
      obtain ⟨rfl, rfl⟩ := List.cons.inj hl
      exact .inr ⟨hbefore b List.mem_cons_self, before, after, rfl,
        fun c hc => hbefore c (List.mem_cons_of_mem _ hc), hafter⟩
  · rintro (⟨rfl, hafter⟩ | ⟨hlt, before, after, rfl, hbefore, hafter⟩)
    · exact ⟨[], l, rfl, fun _ hb => absurd hb List.not_mem_nil, hafter⟩
    · refine ⟨b :: before, after, rfl, fun c hc => ?_, hafter⟩
      rcases List.mem_cons.mp hc with rfl | hc
      · exact hlt
      · exact hbefore c hc

theorem minOn?_eq_some_iff : l.minOn? time = some a ↔ First time l a := by
  induction l generalizing a with
  | nil => exact iff_of_false nofun fun h => absurd h.mem List.not_mem_nil
  | cons b l ih =>
    rw [first_cons, List.minOn?_cons, Option.some_inj]
    cases hrest : l.minOn? time with
    | none =>
      have hnil : l = [] := by
        by_contra hne
        have hsome := List.isSome_minOn?_iff (f := time) |>.mpr hne
        rw [hrest] at hsome
        cases hsome
      subst hnil
      constructor
      · rintro rfl
        exact .inl ⟨rfl, by simp⟩
      · rintro (⟨rfl, _⟩ | ⟨_, hfirst⟩)
        · rfl
        · exact absurd hfirst.mem List.not_mem_nil
    | some c =>
      have hc : First time l c := ih.mp hrest
      change minOn time b c = a ↔ _
      rw [minOn]
      split_ifs with hle
      · constructor
        · rintro rfl
          exact .inl ⟨rfl, fun d hd => hle.trans (hc.le hd)⟩
        · rintro (⟨rfl, _⟩ | ⟨hlt, hfirst⟩)
          · rfl
          · exact absurd (hle.trans (hc.le hfirst.mem)) (not_le.mpr hlt)
      · constructor
        · rintro rfl
          exact .inr ⟨not_le.mp hle, hc⟩
        · rintro (⟨rfl, hall⟩ | ⟨_, hfirst⟩)
          · exact absurd (hall c hc.mem) hle
          · exact Option.some.inj (hrest.symm.trans (ih.mpr hfirst))

/-- Wherever the element stands in the list, another one is earlier, or as early and listed before it. -/
def Preceded (time : α → β) (l : List α) (a : α) : Prop :=
  ∀ before after, l = before ++ a :: after → ∃ b, (b ∈ before ∧ time b ≤ time a) ∨ (b ∈ after ∧ time b < time a)

lemma not_first_iff : ¬ First time l a ↔ Preceded time l a := by
  constructor
  · intro h before after hl
    by_contra hnone
    refine h ⟨before, after, hl, fun b hb => ?_, fun b hb => ?_⟩
    · exact not_le.mp fun hle => hnone ⟨b, .inl ⟨hb, hle⟩⟩
    · exact not_lt.mp fun hlt => hnone ⟨b, .inr ⟨hb, hlt⟩⟩
  · rintro h ⟨before, after, hl, hbefore, hafter⟩
    obtain ⟨b, ⟨hb, hle⟩ | ⟨hb, hlt⟩⟩ := h before after hl
    · exact absurd (hbefore b hb) (not_lt.mpr hle)
    · exact absurd (hafter b hb) (not_le.mpr hlt)

lemma First.filter (h : First time l a) {p : α → Bool} (ha : p a = true) : First time (l.filter p) a := by
  obtain ⟨before, after, rfl, hbefore, hafter⟩ := h
  refine ⟨before.filter p, after.filter p, by simp [ha], fun b hb => ?_, fun b hb => ?_⟩
  · exact hbefore b (List.mem_filter.mp hb).1
  · exact hafter b (List.mem_filter.mp hb).1

end Earliest
