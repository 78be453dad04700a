import Mathlib.Data.List.Perm.Subperm
import Mathlib.Data.List.Sort

/-! Reading a log on from a cursor: the stamp of the last entry that was read. -/

namespace Cursor

variable {α τ : Type*} {stamp : α → τ} {log read rest batch : List α} {cursor : Option τ}

/-- The log's first entries have been read, and the cursor is at the last of them. -/
structure Stands (stamp : α → τ) (log read rest : List α) (cursor : Option τ) : Prop where
  split : log = read ++ rest
  last : cursor = read.getLast?.map stamp

lemma Stands.next {a : α} (h : Stands stamp log read (a :: rest) cursor) :
    Stands stamp log (read ++ [a]) rest (some (stamp a)) :=
  ⟨by rw [h.split, List.append_assoc, List.singleton_append], by rw [List.getLast?_concat]; rfl⟩

lemma Stands.append (h : Stands stamp log read rest cursor) (more : List α) :
    Stands stamp (log ++ more) read (rest ++ more) cursor :=
  ⟨by rw [h.split, List.append_assoc], h.last⟩

variable [LinearOrder τ]

lemma le_last {a : α} (hread : read.Pairwise (stamp · < stamp ·)) (ha : a ∈ read) :
    ∃ last, read.getLast?.map stamp = some last ∧ stamp a ≤ last := by
  rcases List.eq_nil_or_concat read with rfl | ⟨earlier, last, rfl⟩
  · exact absurd ha List.not_mem_nil
  rw [List.concat_eq_append] at ha hread ⊢
  refine ⟨stamp last, by rw [List.getLast?_concat, Option.map_some], ?_⟩
  rcases List.mem_append.mp ha with hearlier | hlast
  · exact ((List.pairwise_append.mp hread).2.2 a hearlier last (List.mem_singleton_self _)).le
  · exact (congrArg stamp (List.mem_singleton.mp hlast)).le

theorem Stands.unread (h : Stands stamp log read rest cursor) (hordered : log.Pairwise (stamp · < stamp ·)) :
    (log.filter fun a => cursor.all (· < stamp a)) = rest := by
  rw [h.split] at hordered
  obtain ⟨hread, -, hbetween⟩ := List.pairwise_append.mp hordered
  rw [h.split, h.last, List.filter_append, List.filter_eq_nil_iff.mpr, List.filter_eq_self.mpr, List.nil_append]
  · intro a ha
    cases hlast : read.getLast? with
    | none => rfl
    | some last => exact decide_eq_true (hbetween last (List.mem_of_getLast? hlast) a ha)
  · intro a ha
    obtain ⟨last, hlast, hle⟩ := le_last hread ha
    rw [hlast, Option.all_some, decide_eq_true_eq, not_lt]
    exact hle

theorem unread_advance (hordered : log.Pairwise (stamp · < stamp ·))
    (hunread : (log.filter fun a => cursor.all (· < stamp a)) = batch ++ rest) :
    (log.filter fun a => ((batch.getLast?.map stamp).or cursor).all (· < stamp a)) = rest := by
  rcases List.eq_nil_or_concat batch with rfl | ⟨earlier, last, rfl⟩
  · exact hunread
  rw [List.concat_eq_append] at hunread ⊢
  have hlast : cursor.all (· < stamp last) = true := by
    have hmem : last ∈ log.filter fun a => cursor.all (· < stamp a) := by
      rw [hunread]
      exact List.mem_append_left _ (List.mem_append_right _ (List.mem_singleton_self last))
    exact (List.mem_filter.mp hmem).2
  have hstands : Stands stamp ((earlier ++ [last]) ++ rest) (earlier ++ [last]) rest
      ((earlier ++ [last]).getLast?.map stamp) := ⟨rfl, rfl⟩
  rw [← hunread] at hstands
  have hrest := hstands.unread (hordered.filter _)
  rw [List.filter_filter] at hrest
  rw [← hrest, List.getLast?_concat, Option.map_some, Option.some_or]
  refine List.filter_congr fun a _ => ?_
  cases cursor with
  | none => exact (Bool.and_true _).symm
  | some stamped =>
    simp only [Option.all_some, decide_eq_true_eq] at hlast ⊢
    rw [← Bool.decide_and]
    exact decide_eq_decide.mpr ⟨fun hlater => ⟨hlater, hlast.trans hlater⟩, And.left⟩

-- Entries in the order of their stamps are read in that order.
lemma sublist_of_subset (hread : read.Pairwise (stamp · < stamp ·)) (hlog : log.Pairwise (stamp · < stamp ·))
    (hsubset : read ⊆ log) : read.Sublist log := by
  have : Std.Antisymm fun a b : α => stamp a < stamp b := ⟨fun _ _ hab hba => absurd hab hba.asymm⟩
  have hnodup : read.Nodup := hread.imp fun hlt hsame => absurd (congrArg stamp hsame) hlt.ne
  exact List.sublist_of_subperm_of_pairwise (List.subperm_of_subset hnodup hsubset) hread hlog

end Cursor
