import Mathlib.Order.WellFoundedSet

/-! Candidates for one place, decided again and again in their order: each is taken unless one taken before
it still holds the place. A pass decides the candidates that are kept. -/

namespace OneHolder

variable {α : Type*} (before holds : α → α → Prop) (dud : α → Prop)

inductive Outcome where
  | waiting
  | dud
  | skipped
  | taken
deriving DecidableEq

/-- What a pass over ``own`` decides. All are skipped after one that waits, and why one was skipped is clear
once a later one is not. -/
structure Pass (own : Set α) (outcome : α → Outcome) : Prop where
  waits : ∀ a ∈ own, ∀ b ∈ own, before a b → outcome a = .waiting → outcome b = .skipped
  apart : ∀ a ∈ own, ∀ b ∈ own, before a b → outcome a = .taken → outcome b ≠ .skipped → ¬ holds a b
  cause : ∀ b ∈ own, outcome b = .skipped → ∀ c ∈ own, before b c → outcome c ≠ .skipped →
    ∃ a ∈ own, before a b ∧ outcome a = .taken ∧ holds a b
  duds : ∀ a ∈ own, outcome a = .dud → dud a
  real : ∀ a ∈ own, outcome a = .taken → ¬ dud a

/-- The candidates ever taken hold the place one after the other, and a kept one that came before one of
them and was not taken never will be. -/
structure Settled (kept taken : Set α) : Prop where
  apart : ∀ a ∈ taken, ∀ b ∈ taken, before a b → ¬ holds a b
  dead : ∀ a ∈ kept, a ∉ taken → ∀ b ∈ taken, before a b → dud a ∨ ∃ c ∈ taken, before c a ∧ holds c a
  real : ∀ a ∈ taken, ¬ dud a

variable {before holds dud} {kept own taken : Set α} {outcome : α → Outcome} {a b : α}

lemma Settled.anti (h : Settled before holds dud kept taken) {fewer : Set α} (hsub : fewer ⊆ kept) :
    Settled before holds dud fewer taken := ⟨h.apart, fun a ha => h.dead a (hsub ha), h.real⟩

lemma Settled.extend (h : Settled before holds dud kept taken) {more : Set α}
    (hnew : ∀ a ∈ more, a ∉ kept → ∀ b ∈ taken, ¬ before a b) : Settled before holds dud more taken where
  apart := h.apart
  dead a ha hnot b hb hab := by
    by_cases hold : a ∈ kept
    · exact h.dead a hold hnot b hb hab
    · exact absurd hab (hnew a ha hold b hb)
  real := h.real

section Pass

variable [IsStrictOrder α before] (h : Settled before holds dud kept taken)
  (hpass : Pass before holds dud own outcome) (hown : own ⊆ kept) (hfinite : own.Finite)
  (hclosed : ∀ a ∈ kept, ∀ b ∈ own, before a b → a ∈ own)
  (hdropped : ∀ a ∈ taken, a ∉ kept → ∀ b ∈ own, before a b → ¬ holds a b)

include h hpass hown hfinite hclosed hdropped in
/-- Whatever was taken before a candidate not skipped does not hold the place, by induction on the order: one
that was taken and is skipped now would have been skipped already. -/
lemma not_holds_of_not_skipped (hb : b ∈ own) (hdecided : outcome b ≠ .skipped) (ha : a ∈ taken)
    (hab : before a b) : ¬ holds a b := by
  have hwf : own.WellFoundedOn before := hfinite.wellFoundedOn
  revert a hdecided
  apply hwf.induction hb
  intro b hb ih a hdecided ha hab
  by_cases hkept : a ∈ kept
  swap
  · exact hdropped a ha hkept b hb hab
  have haown := hclosed a hkept b hb hab
  cases houtcome : outcome a with
  | waiting => exact absurd (hpass.waits a haown b hb hab houtcome) hdecided
  | dud => exact absurd (hpass.duds a haown houtcome) (h.real a ha)
  | taken => exact hpass.apart a haown b hb hab houtcome hdecided
  | skipped =>
    obtain ⟨p, hp, hpa, hptaken, hpholds⟩ := hpass.cause a haown houtcome b hb hab hdecided
    exfalso
    by_cases hold : p ∈ taken
    · exact h.apart p hold a ha hpa hpholds
    · rcases h.dead p (hown hp) hold a ha hpa with hdud | ⟨q, hq, hqp, hqholds⟩
      · exact hpass.real p hp hptaken hdud
      · have hpdecided : outcome p ≠ .skipped := by simp [hptaken]
        exact ih p hp (IsTrans.trans p a b hpa hab) hpdecided hq hqp hqholds

include h hpass hown hfinite hclosed hdropped in
theorem Settled.pass : Settled before holds dud kept (taken ∪ {a ∈ own | outcome a = .taken}) := by
  have hfree {a b : α} (ha : a ∈ taken) (hb : b ∈ own) (hnew : outcome b = .taken) (hab : before a b) :
      ¬ holds a b :=
    not_holds_of_not_skipped h hpass hown hfinite hclosed hdropped hb (by simp [hnew]) ha hab
  constructor
  · rintro a (ha | ⟨ha, hnew⟩) b (hb | ⟨hb, hnew'⟩) hab
    · exact h.apart a ha b hb hab
    · exact hfree ha hb hnew' hab
    · -- Taken only now, before one taken earlier: then it was dead.
      intro hholds
      by_cases hold : a ∈ taken
      · exact h.apart a hold b hb hab hholds
      · rcases h.dead a (hown ha) hold b hb hab with hdud | ⟨c, hc, hca, hcholds⟩
        · exact hpass.real a ha hnew hdud
        · exact hfree hc ha hnew hca hcholds
    · exact hpass.apart a ha b hb hab hnew (by simp [hnew'])
  · rintro a ha hnot b (hb | ⟨hb, hnew⟩) hab
    · rcases h.dead a ha (fun hold => hnot (Or.inl hold)) b hb hab with hdud | ⟨c, hc, hca, hcholds⟩
      · exact Or.inl hdud
      · exact Or.inr ⟨c, Or.inl hc, hca, hcholds⟩
    · have haown := hclosed a ha b hb hab
      have hdecided : outcome b ≠ .skipped := by simp [hnew]
      cases houtcome : outcome a with
      | waiting => exact absurd (hpass.waits a haown b hb hab houtcome) hdecided
      | dud => exact Or.inl (hpass.duds a haown houtcome)
      | taken => exact absurd (Or.inr ⟨haown, houtcome⟩) hnot
      | skipped =>
        obtain ⟨c, hc, hca, htaken, hholds⟩ := hpass.cause a haown houtcome b hb hab hdecided
        exact Or.inr ⟨c, Or.inr ⟨hc, htaken⟩, hca, hholds⟩
  · rintro a (ha | ⟨ha, hnew⟩)
    · exact h.real a ha
    · exact hpass.real a ha hnew

include h hpass hown hfinite hclosed hdropped in
theorem skipped_of_holds (ha : a ∈ taken ∪ {a ∈ own | outcome a = .taken}) (hb : b ∈ own) (hab : before a b)
    (hholds : holds a b) : outcome b = .skipped := by
  by_contra hdecided
  rcases ha with ha | ⟨ha, hnew⟩
  · exact not_holds_of_not_skipped h hpass hown hfinite hclosed hdropped hb hdecided ha hab hholds
  · exact hpass.apart a ha b hb hab hnew hdecided hholds

end Pass

end OneHolder
