import Mathlib.Data.List.Basic
import Mathlib.Data.Nat.Basic

/-! The versions a value has gone through, each with the time it came at, and what a reader that saw one of them
knows of the later ones. -/

namespace History

variable {α β : Type*}

structure Version (α : Type*) where
  since : ℕ
  value : α

def At (history : List (Version α)) (view : α → β) (v : ℕ) (seen : β) : Prop :=
  ∃ version, history[v]? = some version ∧ view version.value = seen

/-- What was seen is of version ``floor`` or later, and whatever replaced it came at ``time`` or later. -/
def Seen (history : List (Version α)) (view : α → β) (floor time : ℕ) (seen : β) : Prop :=
  ∃ v, At history view v seen ∧ floor ≤ v ∧
    ∀ i version, v < i → history[i]? = some version → time ≤ version.since

variable {history more : List (Version α)} {view : α → β} {floor time v : ℕ} {seen : β}

lemma At.append (h : At history view v seen) : At (history ++ more) view v seen := by
  obtain ⟨version, hv, hview⟩ := h
  have hlt : v < history.length := (List.getElem?_eq_some_iff.mp hv).1
  exact ⟨version, by rw [List.getElem?_append_left hlt, hv], hview⟩

lemma Seen.anti (h : Seen history view floor time seen) {floor' time' : ℕ} (hfloor : floor' ≤ floor)
    (htime : time' ≤ time) : Seen history view floor' time' seen := by
  obtain ⟨v, hat, hv, hlater⟩ := h
  exact ⟨v, hat, le_trans hfloor hv, fun i version hi hversion => le_trans htime (hlater i version hi hversion)⟩

lemma Seen.append (h : Seen history view floor time seen) (hmore : ∀ version ∈ more, time ≤ version.since) :
    Seen (history ++ more) view floor time seen := by
  obtain ⟨v, hat, hv, hlater⟩ := h
  refine ⟨v, hat.append, hv, fun i version hi hversion => ?_⟩
  by_cases hlt : i < history.length
  · exact hlater i version hi (by rwa [List.getElem?_append_left hlt] at hversion)
  · rw [List.getElem?_append_right (not_lt.mp hlt)] at hversion
    exact hmore version (List.mem_of_getElem? hversion)

lemma seen_last {version : Version α} (h : history.getLast? = some version) (hfloor : floor < history.length) :
    Seen history view floor time (view version.value) := by
  rw [List.getLast?_eq_getElem?] at h
  refine ⟨history.length - 1, ⟨version, h, rfl⟩, by omega, fun i later hi hlater => ?_⟩
  have hlt : i < history.length := (List.getElem?_eq_some_iff.mp hlater).1
  omega

theorem Seen.reaches (h : Seen history view floor time seen) : ∃ v, At history view v seen ∧ floor ≤ v ∧
    ∀ i version, history[i]? = some version → version.since < time → i ≤ v := by
  obtain ⟨v, hat, hv, hlater⟩ := h
  refine ⟨v, hat, hv, fun i version hversion hold => ?_⟩
  by_contra hi
  have htime := hlater i version (not_le.mp hi) hversion
  omega

end History
