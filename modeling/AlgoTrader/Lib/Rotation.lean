import Mathlib.Data.List.Basic
import Mathlib.Data.Int.ModEq
import Mathlib.Algebra.Order.Group.Int
import Mathlib.Algebra.Order.Ring.Int

/-! A list read round and round in windows of one size, and lists cut to their first distinct elements. -/

namespace Rotation

variable {α : Type*} (l : List α)

/-- ``size`` elements from ``offset`` on, past the end from the front again. -/
def window (offset size : ℕ) : List α := ((l ++ l).drop offset).take size

variable {l}

lemma getElem?_append_self {i : ℕ} (h : i < 2 * l.length) : (l ++ l)[i]? = l[i % l.length]? := by
  rcases lt_or_ge i l.length with hlt | hge
  · rw [List.getElem?_append_left hlt, Nat.mod_eq_of_lt hlt]
  · rw [List.getElem?_append_right hge, Nat.mod_eq_sub_mod hge, Nat.mod_eq_of_lt (by omega)]

lemma getElem?_window {offset size j : ℕ} (hoffset : offset < l.length) (hsize : size ≤ l.length) (hj : j < size) :
    (window l offset size)[j]? = l[(offset + j) % l.length]? := by
  rw [window, List.getElem?_take_of_lt hj, List.getElem?_drop, getElem?_append_self (by omega)]

theorem exists_mem_window {size rounds : ℕ} (hpos : 0 < size) (hsize : size ≤ l.length)
    (hrounds : l.length ≤ rounds * size) (start : ℤ) {x : α} (hx : x ∈ l) :
    ∃ k < rounds, x ∈ window l ((start + k * size) % l.length).toNat size := by
  obtain ⟨p, hp, rfl⟩ := List.getElem_of_mem hx
  have hn : (0 : ℤ) < l.length := by omega
  -- The distance from the start to the element, in windows and within one.
  obtain ⟨d, hd⟩ := Int.eq_ofNat_of_zero_le (Int.emod_nonneg (p - start) hn.ne')
  have hdn : d < l.length := by
    have := Int.emod_lt_of_pos (p - start) hn
    omega
  have hj : d % size < size := Nat.mod_lt _ hpos
  have hk : d / size < rounds := by
    rw [Nat.div_lt_iff_lt_mul hpos]
    omega
  refine ⟨d / size, hk, ?_⟩
  obtain ⟨o, ho⟩ := Int.eq_ofNat_of_zero_le (Int.emod_nonneg (start + (d / size : ℕ) * size) hn.ne')
  have hon : o < l.length := by
    have := Int.emod_lt_of_pos (start + (d / size : ℕ) * size) hn
    omega
  have hsplit : ((d / size : ℕ) : ℤ) * size + (d % size : ℕ) = d := by
    exact_mod_cast Nat.div_add_mod' d size
  have hplace : (o + d % size) % l.length = p := by
    have hmod : ((o + d % size : ℕ) : ℤ) % l.length = p := by
      rw [Nat.cast_add, ← ho, Int.emod_add_emod, add_assoc, hsplit, ← hd, Int.add_emod_emod, add_sub_cancel,
        Int.emod_eq_of_lt (by omega) (by omega)]
    exact_mod_cast hmod
  rw [ho, Int.toNat_natCast]
  apply List.mem_of_getElem? (i := d % size)
  rw [getElem?_window hon hsize hj, hplace, List.getElem?_eq_getElem hp]

lemma nodup_eraseDups [DecidableEq α] (l : List α) : l.eraseDups.Nodup := by
  induction hn : l.length using Nat.strong_induction_on generalizing l with
  | _ n ih =>
    cases l with
    | nil => exact List.nodup_nil
    | cons a rest =>
      rw [List.eraseDups_cons, List.nodup_cons]
      refine ⟨fun h => ?_, ih _ ?_ _ rfl⟩
      · exact absurd (List.mem_filter.mp (List.mem_eraseDups.mp h)).2 (by simp)
      · exact hn ▸ Nat.lt_succ_of_le (List.length_filter_le _ _)

lemma eraseDups_of_nodup [DecidableEq α] (h : l.Nodup) : l.eraseDups = l := by
  induction l with
  | nil => rfl
  | cons a l ih =>
    obtain ⟨hnot, hnodup⟩ := List.nodup_cons.mp h
    rw [List.eraseDups_cons, List.filter_eq_self.mpr, ih hnodup]
    intro b hb
    simpa using fun heq : b = a => hnot (heq ▸ hb)

lemma mem_take_eraseDups_iff [DecidableEq α] {x : α} {cap : ℕ} :
    x ∈ l.eraseDups.take cap ↔ x ∈ l ∧ (l.takeWhile (· ≠ x)).eraseDups.length < cap := by
  by_cases hx : x ∈ l
  · obtain ⟨before, after, rfl, hbefore⟩ := List.eq_append_cons_of_mem hx
    have htaken : (before ++ x :: after).takeWhile (· ≠ x) = before := by
      rw [List.takeWhile_append_of_pos]
      · simp
      · intro a ha
        exact decide_eq_true (fun heq => hbefore (heq ▸ ha))
    obtain ⟨rest, hrest⟩ : ∃ rest, ((x :: after).removeAll before).eraseDups = x :: rest := by
      rw [List.removeAll, List.filter_cons_of_pos (by simpa using hbefore), List.eraseDups_cons]
      exact ⟨_, rfl⟩
    rw [htaken, List.eraseDups_append, hrest, and_iff_right hx]
    constructor
    · intro h
      by_contra hle
      rw [List.take_append_of_le_length (not_lt.mp hle)] at h
      exact hbefore (List.mem_eraseDups.mp (List.mem_of_mem_take h))
    · intro hlt
      obtain ⟨m, hm⟩ := Nat.exists_eq_add_of_lt hlt
      rw [List.take_append, List.mem_append]
      right
      rw [hm, show before.eraseDups.length + m + 1 - before.eraseDups.length = m + 1 by omega, List.take_succ_cons]
      exact List.mem_cons_self
  · exact iff_of_false (fun h => hx (List.mem_eraseDups.mp (List.mem_of_mem_take h))) fun h => hx h.1

def reading (l : List α) (start : ℤ) (size : ℕ) : List (Option α) :=
  (List.range size).map fun (j : ℕ) => l[((start + j) % l.length).toNat]?

lemma length_reading (l : List α) (start : ℤ) (size : ℕ) : (reading l start size).length = size := by
  rw [reading, List.length_map, List.length_range]

lemma reading_add (l : List α) (start : ℤ) (m k : ℕ) :
    reading l start (m + k) = reading l start m ++ reading l (start + m) k := by
  rw [reading, List.range_add, List.map_append, List.map_map, reading, reading]
  refine congrArg _ (List.map_congr_left fun j _ => ?_)
  rw [Function.comp_apply, Nat.cast_add, add_assoc]

lemma reading_congr {start start' : ℤ} (h : start % l.length = start' % l.length) (size : ℕ) :
    reading l start size = reading l start' size := by
  refine List.map_congr_left fun j _ => ?_
  rw [← Int.emod_add_emod, h, Int.emod_add_emod]

lemma take_turned {offset size : ℕ} (hoffset : offset ≤ l.length) (hsize : size ≤ l.length) :
    (l.drop offset ++ l.take offset).take size = window l offset size := by
  have hwhole : (l ++ l).drop offset = (l.drop offset ++ l.take offset) ++ l.drop offset := by
    rw [List.drop_append_of_le_length hoffset, List.append_assoc, List.take_append_drop]
  rw [window, hwhole]
  refine (List.take_append_of_le_length ?_).symm
  rw [List.length_append, List.length_drop, List.length_take]
  omega

lemma map_some_take_turned (hpos : 0 < l.length) (start : ℤ) {size : ℕ} (hsize : size ≤ l.length) :
    ((l.drop (start % l.length).toNat ++ l.take (start % l.length).toNat).take size).map some =
      reading l start size := by
  have hn : (0 : ℤ) < l.length := by omega
  obtain ⟨o, ho⟩ := Int.eq_ofNat_of_zero_le (Int.emod_nonneg start hn.ne')
  have hon : o < l.length := by
    have := Int.emod_lt_of_pos start hn
    omega
  rw [ho, Int.toNat_natCast, take_turned hon.le hsize]
  refine List.ext_getElem? fun j => ?_
  by_cases hj : j < size
  · have hplace : ((start + j) % l.length).toNat = (o + j) % l.length := by
      rw [← Int.emod_add_emod, ho]
      exact Int.toNat_natCast _
    rw [List.getElem?_map, getElem?_window hon hsize hj, reading, List.getElem?_map, List.getElem?_range hj,
      Option.map_some, hplace, List.getElem?_eq_getElem (Nat.mod_lt _ hpos), Option.map_some]
  · have hwindow : (window l o size).length ≤ size := List.length_take_le _ _
    rw [List.getElem?_eq_none, List.getElem?_eq_none]
    · rw [length_reading]
      exact not_lt.mp hj
    · rw [List.length_map]
      exact hwindow.trans (not_lt.mp hj)

lemma mem_reading {x : α} (hx : x ∈ l) (start : ℤ) : some x ∈ reading l start l.length := by
  obtain ⟨p, hp, rfl⟩ := List.getElem_of_mem hx
  have hn : (0 : ℤ) < l.length := by omega
  have hlt := Int.emod_lt_of_pos (p - start) hn
  have hnonneg := Int.emod_nonneg (p - start) hn.ne'
  refine List.mem_map.mpr ⟨((p - start) % l.length).toNat, List.mem_range.mpr (by omega), ?_⟩
  rw [Int.toNat_of_nonneg hnonneg, Int.add_emod_emod, add_sub_cancel, Int.emod_eq_of_lt (by omega) (by omega),
    Int.toNat_natCast, List.getElem?_eq_getElem hp]

theorem mem_reading_stretch {x : α} (hx : x ∈ l) (start : ℤ) {k size : ℕ} (hsize : k + l.length ≤ size) :
    some x ∈ ((reading l start size).drop k).take l.length := by
  obtain ⟨rest, rfl⟩ := Nat.exists_eq_add_of_le hsize
  rw [add_assoc, reading_add, List.drop_left' (length_reading l start k), reading_add,
    List.take_left' (length_reading l _ l.length)]
  exact mem_reading hx _

end Rotation
