import Mathlib.Data.List.Basic
import Mathlib.Data.List.Nodup

/-! Rows of a table, found and rewritten. -/

namespace Table

section Keys

variable {κ α : Type*} {key : α → κ} {rows : List α} {f : α → α}

lemma map_key_map (h : ∀ row ∈ rows, key (f row) = key row) : (rows.map f).map key = rows.map key := by
  rw [List.map_map]
  exact List.map_congr_left h

lemma map_key_where {p : α → Prop} [DecidablePred p] (h : ∀ row, p row → key (f row) = key row) :
    (rows.map fun row => if p row then f row else row).map key = rows.map key := by
  apply map_key_map
  intro row _
  split_ifs with hp
  · exact h row hp
  · rfl

end Keys

section Positions

variable {α : Type*} {f : α → α} {rows : List α} {index i : ℕ} {row : α}

lemma getElem?_modify_some (h : (rows.modify index f)[i]? = some row) :
    (index = i ∧ ∃ old, rows[i]? = some old ∧ f old = row) ∨ (index ≠ i ∧ rows[i]? = some row) := by
  rw [List.getElem?_modify] at h
  obtain ⟨old, hold, hchanged⟩ := Option.map_eq_some_iff.mp h
  by_cases hindex : index = i
  · rw [if_pos hindex] at hchanged
    exact .inl ⟨hindex, old, hold, hchanged⟩
  · rw [if_neg hindex] at hchanged
    exact .inr ⟨hindex, hchanged ▸ hold⟩

lemma mem_modify (h : row ∈ rows.modify index f) :
    row ∈ rows ∨ ∃ old ∈ rows, rows[index]? = some old ∧ f old = row := by
  obtain ⟨i, hi⟩ := List.mem_iff_getElem?.mp h
  rcases getElem?_modify_some hi with ⟨rfl, old, hold, hchanged⟩ | ⟨_, hold⟩
  · exact .inr ⟨old, List.mem_of_getElem? hold, hold, hchanged⟩
  · exact .inl (List.mem_of_getElem? hold)

lemma countP_modify_le {p : α → Bool} (hp : ∀ row, rows[index]? = some row → p (f row) = true → p row = true) :
    (rows.modify index f).countP p ≤ rows.countP p := by
  induction rows generalizing index with
  | nil => simp
  | cons first rest ih =>
    cases index with
    | zero =>
      have hfirst := hp first rfl
      rw [List.modify_zero_cons, List.countP_cons, List.countP_cons]
      by_cases hnew : p (f first) = true
      · simp [hnew, hfirst hnew]
      · rw [if_neg hnew]
        omega
    | succ index =>
      rw [List.modify_succ_cons, List.countP_cons, List.countP_cons]
      exact Nat.add_le_add_right (ih fun row hrow => hp row hrow) _

end Positions

variable {κ α : Type*} [DecidableEq κ] (key : α → κ)

def find (rows : List α) (k : κ) : Option α := rows.find? fun row => key row = k

def replace (rows : List α) (row : α) : List α := rows.map fun old => if key old = key row then row else old

variable {key} {rows : List α} {row : α} {k : κ}

lemma find_cons (first : α) (rest : List α) :
    find key (first :: rest) k = if key first = k then some first else find key rest k := by
  rw [find, List.find?_cons]
  split_ifs with h <;> simp [h, find]

lemma replace_cons (first : α) (rest : List α) :
    replace key (first :: rest) row = (if key first = key row then row else first) :: replace key rest row := rfl

lemma key_of_find (h : find key rows k = some row) : key row = k := by
  simpa using List.find?_some h

lemma mem_of_find (h : find key rows k = some row) : row ∈ rows := List.mem_of_find?_eq_some h

lemma find_self (hnodup : (rows.map key).Nodup) (h : row ∈ rows) : find key rows (key row) = some row := by
  induction rows with
  | nil => cases h
  | cons first rest ih =>
    rw [List.map_cons, List.nodup_cons] at hnodup
    rw [find_cons]
    rcases List.mem_cons.mp h with rfl | hrest
    · exact if_pos rfl
    · have hne : key first ≠ key row := fun heq => hnodup.1 (heq ▸ List.mem_map_of_mem hrest)
      rw [if_neg hne, ih hnodup.2 hrest]

lemma not_mem_keys (h : find key rows k = none) : k ∉ rows.map key := by
  intro hmem
  obtain ⟨row, hrow, hkey⟩ := List.mem_map.mp hmem
  have hnone := List.find?_eq_none.mp h row hrow
  simp [hkey] at hnone

@[simp]
lemma map_key_replace : (replace key rows row).map key = rows.map key := by
  rw [replace]
  exact map_key_where fun old h => h.symm

lemma find_replace_self : find key (replace key rows row) (key row) = (find key rows (key row)).map fun _ => row := by
  induction rows with
  | nil => rfl
  | cons first rest ih =>
    rw [replace_cons, find_cons, find_cons]
    by_cases h : key first = key row
    · rw [if_pos h, if_pos rfl, if_pos h]
      rfl
    · rw [if_neg h, if_neg h, if_neg h, ih]

lemma find_replace_other (h : key row ≠ k) : find key (replace key rows row) k = find key rows k := by
  induction rows with
  | nil => rfl
  | cons first rest ih =>
    rw [replace_cons, find_cons, find_cons, ih]
    by_cases hfirst : key first = key row
    · have hk : ¬ key first = k := fun heq => h (hfirst.symm.trans heq)
      rw [if_pos hfirst, if_neg h, if_neg hk]
    · rw [if_neg hfirst]

lemma find_concat_self (h : find key rows (key row) = none) :
    find key (rows ++ [row]) (key row) = some row := by
  rw [find] at h
  rw [find, List.find?_append, h]
  simp

lemma find_concat_other (h : key row ≠ k) : find key (rows ++ [row]) k = find key rows k := by
  rw [find, List.find?_append]
  simp [h, find]

end Table
