import AlgoTrader.Lib.Table

/-! Rows of a table rewritten one by one, each from what was read of it before the first was. -/

namespace Batch

variable {κ α : Type*} [DecidableEq κ] (key : α → κ) (f : α → α → α)

def update (rows : List α) (read : α) : List α := rows.map fun row => if key row = key read then f read row else row

def updateAll (rows batch : List α) : List α := batch.foldl (update key f) rows

variable {key f} {rows batch : List α} {row read : α}

lemma map_key_update (hkey : ∀ read row, key (f read row) = key row) :
    (update key f rows read).map key = rows.map key := by
  rw [update]
  exact Table.map_key_where fun row _ => hkey read row

lemma mem_update (hnodup : (rows.map key).Nodup) (hread : read ∈ rows) :
    row ∈ update key f rows read ↔ row = f read read ∨ (row ∈ rows ∧ key row ≠ key read) := by
  constructor
  · intro h
    obtain ⟨old, hold, rfl⟩ := List.mem_map.mp h
    by_cases hsame : key old = key read
    · rw [if_pos hsame, List.inj_on_of_nodup_map hnodup hold hread hsame]
      exact .inl rfl
    · rw [if_neg hsame]
      exact .inr ⟨hold, hsame⟩
  · rintro (rfl | ⟨hrow, hother⟩)
    · exact List.mem_map.mpr ⟨read, hread, if_pos rfl⟩
    · exact List.mem_map.mpr ⟨row, hrow, if_neg hother⟩

theorem mem_updateAll (hkey : ∀ read row, key (f read row) = key row) (hnodup : (rows.map key).Nodup)
    (hbatch : (batch.map key).Nodup) (hread : ∀ read ∈ batch, read ∈ rows) :
    row ∈ updateAll key f rows batch ↔ (∃ read ∈ batch, row = f read read) ∨ (row ∈ rows ∧ key row ∉ batch.map key) := by
  induction batch generalizing rows with
  | nil => simp [updateAll]
  | cons first rest ih =>
    rw [List.map_cons, List.nodup_cons] at hbatch
    have hfirst := hread first List.mem_cons_self
    have hrest : ∀ read ∈ rest, read ∈ update key f rows first := by
      intro read hmem
      have hother : key read ≠ key first := fun heq => hbatch.1 (heq ▸ List.mem_map_of_mem hmem)
      exact (mem_update hnodup hfirst).mpr (.inr ⟨hread read (List.mem_cons_of_mem _ hmem), hother⟩)
    have hnodup' : ((update key f rows first).map key).Nodup := by rwa [map_key_update hkey]
    have hstep := ih hnodup' hbatch.2 hrest
    rw [updateAll, List.foldl_cons, ← updateAll, hstep, mem_update hnodup hfirst, List.map_cons, List.mem_cons, not_or]
    constructor
    · rintro (⟨read, hmem, rfl⟩ | ⟨rfl | ⟨hrow, hother⟩, hnone⟩)
      · exact .inl ⟨read, List.mem_cons_of_mem _ hmem, rfl⟩
      · exact .inl ⟨first, List.mem_cons_self, rfl⟩
      · exact .inr ⟨hrow, hother, hnone⟩
    · rintro (⟨read, hmem, rfl⟩ | ⟨hrow, hother, hnone⟩)
      · rcases List.mem_cons.mp hmem with rfl | hmem
        · exact .inr ⟨.inl rfl, by rw [hkey]; exact hbatch.1⟩
        · exact .inl ⟨read, hmem, rfl⟩
      · exact .inr ⟨.inr ⟨hrow, hother⟩, hnone⟩

end Batch
