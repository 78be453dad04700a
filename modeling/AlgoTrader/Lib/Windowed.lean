import AlgoTrader.Lib.Causal

/-! Columns computed from a bounded number of past rows. Cutting rows off the front of the input
changes only as many rows of such a column as it looks back. -/

namespace Windowed

open Causal

variable {α β γ : Type*} {k a b : ℕ}

/-- `ys` is `xs` without its first `k` rows, the first `a` of the rows left aside. -/
def Agree (k a : ℕ) (ys xs : List α) : Prop := ys.drop a = xs.drop (k + a)

lemma agree_drop (k : ℕ) (xs : List α) : Agree k 0 (xs.drop k) xs := rfl

lemma Agree.mono {ys xs : List α} (h : Agree k a ys xs) (hab : a ≤ b) : Agree k b ys xs := by
  obtain ⟨c, rfl⟩ := Nat.exists_eq_add_of_le hab
  rw [Agree, ← List.drop_drop, h, List.drop_drop, Nat.add_assoc]

lemma Agree.map {ys xs : List α} (h : Agree k a ys xs) (f : α → β) : Agree k a (ys.map f) (xs.map f) := by
  rw [Agree, ← List.map_drop, h, List.map_drop]

lemma Agree.zipWith {ys xs : List α} {ys' xs' : List β} (h : Agree k a ys xs) (h' : Agree k a ys' xs')
    (f : α → β → γ) : Agree k a (List.zipWith f ys ys') (List.zipWith f xs xs') := by
  rw [Agree, List.drop_zipWith, h, h', List.drop_zipWith]

lemma Agree.getElem? {ys xs : List α} (h : Agree k a ys xs) {t : ℕ} (ht : a ≤ t) : ys[t]? = xs[k + t]? := by
  obtain ⟨c, rfl⟩ := Nat.exists_eq_add_of_le ht
  rw [← List.getElem?_drop, h, List.getElem?_drop, Nat.add_assoc]

lemma Agree.length_eq {ys xs : List α} (h : Agree k a ys xs) (ha : a < ys.length) : xs.length = k + ys.length := by
  have hlength := congrArg List.length h
  rw [List.length_drop, List.length_drop] at hlength
  omega

lemma Agree.fromEnd {ys xs : List α} (h : Agree k a ys xs) {i : ℕ} (hi : a + i < ys.length) :
    ys.reverse[i]? = xs.reverse[i]? := by
  have hlength := h.length_eq (by omega)
  rw [List.getElem?_reverse (by omega), List.getElem?_reverse (by omega), h.getElem? (by omega)]
  congr 1
  omega

/-- What `f` makes of the rows so far it makes of the last `w` of them. -/
def LooksBack (w : ℕ) (f : List α → β) : Prop := ∀ past, w ≤ past.length → f past = f (past.drop (past.length - w))

lemma LooksBack.of_drop {w : ℕ} (g : List α → β) :
    LooksBack w (fun past : List α => g (past.drop (past.length - w))) := by
  intro past hpast
  change g _ = g ((past.drop (past.length - w)).drop ((past.drop (past.length - w)).length - w))
  rw [List.length_drop, Nat.sub_sub_self hpast, Nat.sub_self, List.drop_zero]

lemma Agree.window {ys xs : List α} (h : Agree k a ys xs) {t w : ℕ} (hw : a + w ≤ t + 1) :
    (ys.take (t + 1)).drop (t + 1 - w) = (xs.take (k + t + 1)).drop (k + t + 1 - w) := by
  have hstart : a ≤ t + 1 - w := by omega
  rw [List.drop_take, List.drop_take, (h.mono hstart : ys.drop _ = _)]
  congr 1
  · omega
  · congr 1
    omega

theorem Agree.onPast {ys xs : List α} (h : Agree k a ys xs) {w : ℕ} {f : List α → β} (hf : LooksBack w f)
    (hab : a ≤ b) (hw : a + w ≤ b + 1) : Agree k b (onPast f ys) (onPast f xs) := by
  have hlength := congrArg List.length h
  rw [List.length_drop, List.length_drop] at hlength
  apply List.ext_getElem?
  intro i
  rw [List.getElem?_drop, List.getElem?_drop, getElem?_onPast, getElem?_onPast]
  by_cases hlt : b + i < ys.length
  · have hpast : (ys.take (b + i + 1)).length = b + i + 1 := by rw [List.length_take]; omega
    have hpast' : (xs.take (k + b + i + 1)).length = k + b + i + 1 := by rw [List.length_take]; omega
    have hwindow := h.window (t := b + i) (w := w) (by omega)
    rw [if_pos hlt, if_pos (by omega), hf _ (by omega), hf (xs.take _) (by omega), hpast, hpast', hwindow]
    simp only [Nat.add_assoc]
  · rw [if_neg hlt, if_neg (by omega)]

end Windowed
