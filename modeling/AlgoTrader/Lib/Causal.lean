import Mathlib.Data.List.Basic

/-! Columns computed row by row from the rows so far. Cutting the input of such a column off cuts
the column off at the same row. -/

namespace Causal

variable {α β γ κ : Type*}

/-- Row `t` of the result is `f` of the rows up to and with `t`. -/
def onPast (f : List α → β) (xs : List α) : List β := (List.range xs.length).map fun t => f (xs.take (t + 1))

lemma getElem?_onPast (f : List α → β) (xs : List α) (t : ℕ) :
    (onPast f xs)[t]? = if t < xs.length then some (f (xs.take (t + 1))) else none := by
  rw [onPast, List.getElem?_map]
  split_ifs with h
  · rw [List.getElem?_range h]
    rfl
  · rw [List.getElem?_eq_none (by simpa using h)]
    rfl

@[simp]
lemma onPast_take (f : List α → β) (xs : List α) (n : ℕ) : onPast f (xs.take n) = (onPast f xs).take n := by
  apply List.ext_getElem?
  intro t
  rw [getElem?_onPast, List.getElem?_take, getElem?_onPast, List.length_take, List.take_take]
  by_cases hn : t < n
  · have hmin : min (t + 1) n = t + 1 := Nat.min_eq_left hn
    simp only [hmin, hn, Nat.lt_min, true_and, if_true]
  · rw [if_neg hn, if_neg fun h => hn (Nat.lt_min.mp h).1]

@[simp]
lemma zipWith_take (f : α → β → γ) (xs : List α) (ys : List β) (n : ℕ) :
    List.zipWith f (xs.take n) (ys.take n) = (List.zipWith f xs ys).take n := List.take_zipWith.symm

variable [DecidableEq κ]

/-- Row `t` of the result is `f` of the rows up to `t` that have its key. A row without a key gets
`dropped`. -/
def grouped (keys : List (Option κ)) (f : List α → β) (dropped : β) (xs : List α) : List β :=
  onPast (fun past => match past.getLast? with
    | some (some key, _) => f ((past.filter fun row => row.1 = some key).map Prod.snd)
    | _ => dropped) (List.zipWith Prod.mk keys xs)

@[simp]
lemma grouped_take (keys : List (Option κ)) (f : List α → β) (dropped : β) (xs : List α) (n : ℕ) :
    grouped (keys.take n) f dropped (xs.take n) = (grouped keys f dropped xs).take n := by
  rw [grouped, zipWith_take, onPast_take, grouped]

end Causal
