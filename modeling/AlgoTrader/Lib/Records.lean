import Mathlib.Data.List.AList

/-! Keyed records whose values are rewritten or dropped one by one. -/

namespace Records

variable {κ : Type*} {α β : Type*}

abbrev Dict (κ α : Type*) := AList fun _ : κ => α

lemma keys_filterMap_sublist (f : κ → α → Option β) (entries : List (Sigma fun _ : κ => α)) :
    (entries.filterMap fun e => (f e.1 e.2).map (Sigma.mk (β := fun _ : κ => β) e.1)).keys.Sublist
      entries.keys := by
  induction entries with
  | nil => exact List.Sublist.refl _
  | cons e rest ih =>
    rw [List.filterMap_cons]
    cases hf : f e.1 e.2 with
    | none => exact ih.cons _
    | some value => exact ih.cons_cons _

variable [DecidableEq κ]

def rewrite (f : κ → α → Option β) (records : Dict κ α) : Dict κ β where
  entries := records.entries.filterMap fun e => (f e.1 e.2).map (Sigma.mk e.1)
  nodupKeys := List.Nodup.sublist (keys_filterMap_sublist f _) records.nodupKeys

lemma lookup_rewrite (f : κ → α → Option β) (records : Dict κ α) (key : κ) :
    (rewrite f records).lookup key = (records.lookup key).bind (f key) := by
  ext value
  have hentry : value ∈ (rewrite f records).lookup key ↔
      ∃ e ∈ records.entries, (f e.1 e.2).map (Sigma.mk (β := fun _ : κ => β) e.1) =
        some ⟨key, value⟩ := by
    rw [AList.mem_lookup_iff]
    exact List.mem_filterMap
  rw [← Option.mem_def, ← Option.mem_def, hentry, Option.mem_def, Option.bind_eq_some_iff]
  constructor
  · intro h
    obtain ⟨⟨k, old⟩, hmem, hvalue⟩ := h
    obtain ⟨new, hnew, heq⟩ := Option.map_eq_some_iff.mp hvalue
    cases heq
    exact ⟨old, AList.mem_lookup_iff.mpr hmem, hnew⟩
  · intro h
    obtain ⟨old, hold, hnew⟩ := h
    exact ⟨⟨key, old⟩, AList.mem_lookup_iff.mp hold, by rw [hnew]; rfl⟩

end Records
