import Mathlib.Data.Int.Log
import Mathlib.Data.Rat.Floor
import Mathlib.Tactic.Linarith
import Mathlib.Tactic.Positivity
import Mathlib.Tactic.FieldSimp
import Mathlib.Tactic.Ring

/-! Rounding of exact rationals, ties to the even neighbour: to decimal digits and to doubles. -/

namespace Rounding

def halfEven (x : ℚ) : ℤ :=
  if x - ⌊x⌋ < 1 / 2 then ⌊x⌋
  else if 1 / 2 < x - ⌊x⌋ then ⌊x⌋ + 1
  else if ⌊x⌋ % 2 = 0 then ⌊x⌋ else ⌊x⌋ + 1

def toDigits (digits : ℕ) (x : ℚ) : ℚ := halfEven (x * 10 ^ digits) / 10 ^ digits

/-- The double next to a number in the range of the normal ones: 53 binary digits. -/
def toDouble (x : ℚ) : ℚ :=
  let unit : ℚ := 2 ^ (Int.log 2 |x| - 52)
  halfEven (x / unit) * unit

lemma abs_halfEven_sub_le (x : ℚ) : |(halfEven x : ℚ) - x| ≤ 1 / 2 := by
  have hl := Int.floor_le x
  have hu := Int.lt_floor_add_one x
  rw [halfEven]
  split_ifs with h1 h2 h3 <;> rw [abs_le] <;> push_cast <;> constructor <;> linarith

lemma abs_toDigits_sub_le (digits : ℕ) (x : ℚ) :
    |toDigits digits x - x| ≤ 1 / (2 * 10 ^ digits) := by
  have hp : (0 : ℚ) < 10 ^ digits := by positivity
  have h := abs_halfEven_sub_le (x * 10 ^ digits)
  have he : toDigits digits x - x = (halfEven (x * 10 ^ digits) - x * 10 ^ digits) / 10 ^ digits := by
    rw [toDigits]
    field_simp
  have hm := mul_le_mul_of_nonneg_right h (mul_pos two_pos hp).le
  rw [he, abs_div, abs_of_pos hp, div_le_div_iff₀ hp (by positivity)]
  linarith

lemma halfEven_le_add_one (x : ℚ) : halfEven x ≤ ⌊x⌋ + 1 := by
  rw [halfEven]
  split_ifs <;> omega

lemma floor_le_halfEven (x : ℚ) : ⌊x⌋ ≤ halfEven x := by
  rw [halfEven]
  split_ifs <;> omega

lemma halfEven_mono {x y : ℚ} (h : x ≤ y) : halfEven x ≤ halfEven y := by
  rcases (Int.floor_le_floor h).lt_or_eq with hlt | heq
  · calc
      halfEven x ≤ ⌊x⌋ + 1 := halfEven_le_add_one x
      _ ≤ ⌊y⌋ := hlt
      _ ≤ halfEven y := floor_le_halfEven y
  · rw [halfEven, halfEven, heq]
    split_ifs <;> first | omega | (exfalso; linarith)

lemma toDigits_mono (digits : ℕ) {x y : ℚ} (h : x ≤ y) : toDigits digits x ≤ toDigits digits y := by
  have hp : (0 : ℚ) < 10 ^ digits := by positivity
  rw [toDigits, toDigits]
  apply div_le_div_of_nonneg_right _ hp.le
  exact_mod_cast halfEven_mono (mul_le_mul_of_nonneg_right h hp.le)

lemma halfEven_nonneg {x : ℚ} (h : 0 ≤ x) : 0 ≤ halfEven x := by
  have hfloor := Int.floor_nonneg.mpr h
  rw [halfEven]
  split_ifs <;> omega

lemma toDigits_nonneg (digits : ℕ) {x : ℚ} (h : 0 ≤ x) : 0 ≤ toDigits digits x := by
  have hscaled : 0 ≤ x * 10 ^ digits := by positivity
  rw [toDigits]
  apply div_nonneg _ (by positivity)
  exact_mod_cast halfEven_nonneg hscaled

lemma halfEven_pos_iff (x : ℚ) : 0 < halfEven x ↔ 1 / 2 < x := by
  have hl := Int.floor_le x
  have hu := Int.lt_floor_add_one x
  rw [halfEven]
  rcases lt_trichotomy ⌊x⌋ 0 with hneg | hzero | hpos
  · have hfloor : (⌊x⌋ : ℚ) + 1 ≤ 0 := by exact_mod_cast hneg
    constructor
    · intro h
      split_ifs at h <;> omega
    · intro h
      linarith
  · rw [hzero] at hl hu ⊢
    norm_num at hl hu ⊢
    split_ifs <;> constructor <;> intro h <;> linarith
  · have hfloor : (1 : ℚ) ≤ ⌊x⌋ := by exact_mod_cast hpos
    constructor
    · intro _
      linarith
    · intro _
      split_ifs <;> omega

lemma halfEven_neg_iff (x : ℚ) : halfEven x < 0 ↔ x < -(1 / 2) := by
  have hl := Int.floor_le x
  have hu := Int.lt_floor_add_one x
  rw [halfEven]
  rcases lt_trichotomy ⌊x⌋ (-1) with hneg | hminus | hpos
  · have hfloor : (⌊x⌋ : ℚ) + 1 ≤ -1 := by exact_mod_cast hneg
    constructor
    · intro _
      linarith
    · intro _
      split_ifs <;> omega
  · rw [hminus] at hl hu ⊢
    norm_num at hl hu ⊢
    split_ifs <;> constructor <;> intro h <;> linarith
  · have hfloor : (0 : ℚ) ≤ ⌊x⌋ := by exact_mod_cast (by omega : (0 : ℤ) ≤ ⌊x⌋)
    constructor
    · intro h
      split_ifs at h <;> omega
    · intro h
      linarith

lemma halfEven_intCast (n : ℤ) : halfEven n = n := by
  rw [halfEven, Int.floor_intCast, if_pos (by norm_num)]

lemma toDigits_pos_iff (digits : ℕ) (x : ℚ) : 0 < toDigits digits x ↔ 1 / (2 * 10 ^ digits) < x := by
  have hp : (0 : ℚ) < 10 ^ digits := by positivity
  rw [toDigits, div_pos_iff_of_pos_right hp, Int.cast_pos, halfEven_pos_iff, div_lt_iff₀ two_pos,
    div_lt_iff₀ (by positivity)]
  constructor <;> intro h <;> linarith

lemma toDigits_neg_iff (digits : ℕ) (x : ℚ) : toDigits digits x < 0 ↔ x < -(1 / (2 * 10 ^ digits)) := by
  have hp : (0 : ℚ) < 10 ^ digits := by positivity
  rw [toDigits, div_lt_iff₀ hp, zero_mul, Int.cast_lt_zero, halfEven_neg_iff, ← neg_div, ← neg_div,
    lt_div_iff₀ two_pos, lt_div_iff₀ (by positivity)]
  constructor <;> intro h <;> linarith

lemma toDigits_intCast_div (digits : ℕ) (n : ℤ) : toDigits digits (n / 10 ^ digits) = n / 10 ^ digits := by
  have hp : (10 : ℚ) ^ digits ≠ 0 := by positivity
  rw [toDigits, div_mul_cancel₀ _ hp, halfEven_intCast]

lemma toDigits_toDigits (digits : ℕ) (x : ℚ) : toDigits digits (toDigits digits x) = toDigits digits x :=
  toDigits_intCast_div digits (halfEven (x * 10 ^ digits))

def Rounded (digits : ℕ) (x : ℚ) : Prop := ∃ n : ℤ, x = n / 10 ^ digits

lemma rounded_toDigits (digits : ℕ) (x : ℚ) : Rounded digits (toDigits digits x) := ⟨_, rfl⟩

lemma Rounded.toDigits_eq {digits : ℕ} {x : ℚ} (h : Rounded digits x) : toDigits digits x = x := by
  obtain ⟨n, rfl⟩ := h
  exact toDigits_intCast_div digits n

lemma rounded_zero (digits : ℕ) : Rounded digits 0 := ⟨0, by rw [Int.cast_zero, zero_div]⟩

lemma Rounded.add {digits : ℕ} {x y : ℚ} (hx : Rounded digits x) (hy : Rounded digits y) : Rounded digits (x + y) := by
  obtain ⟨n, rfl⟩ := hx
  obtain ⟨m, rfl⟩ := hy
  exact ⟨n + m, by rw [Int.cast_add, add_div]⟩

lemma Rounded.neg {digits : ℕ} {x : ℚ} (h : Rounded digits x) : Rounded digits (-x) := by
  obtain ⟨n, rfl⟩ := h
  exact ⟨-n, by rw [Int.cast_neg, neg_div]⟩

lemma rounded_sum {digits : ℕ} {l : List ℚ} (h : ∀ x ∈ l, Rounded digits x) : Rounded digits l.sum := by
  induction l with
  | nil => exact rounded_zero digits
  | cons x rest ih =>
    rw [List.sum_cons]
    exact (h x List.mem_cons_self).add (ih fun y hy => h y (List.mem_cons_of_mem x hy))

lemma abs_sum_toDigits_sub_le (digits : ℕ) (l : List ℚ) :
    |(l.map (toDigits digits)).sum - l.sum| ≤ l.length * (1 / (2 * 10 ^ digits)) := by
  induction l with
  | nil =>
    rw [List.map_nil, sub_self, abs_zero, List.length_nil, Nat.cast_zero, zero_mul]
  | cons x rest ih =>
    have hx := abs_le.mp (abs_toDigits_sub_le digits x)
    have hrest := abs_le.mp ih
    rw [List.map_cons, List.sum_cons, List.sum_cons, List.length_cons, Nat.cast_add_one, add_mul, one_mul, abs_le]
    constructor <;> linarith

end Rounding
