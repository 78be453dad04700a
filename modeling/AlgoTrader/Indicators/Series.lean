import AlgoTrader.Lib.Causal
import Mathlib.Algebra.Order.Ring.Rat
import Mathlib.Data.List.ReduceOption
import Mathlib.Data.Option.NAry

/-! Columns of numbers, and the operations of ``pandas`` the indicators are made of. A missing value
is `none`, and so is what is computed from one. -/

namespace AlgoTrader.Indicators

open Causal

abbrev Series := List (Option ℚ)

namespace Series

variable (xs ys : Series) (n : ℕ)

def apply (f : ℚ → ℚ) : Series := xs.map (Option.map f)

def combine (f : ℚ → ℚ → ℚ) : Series := List.zipWith (Option.map₂ f) xs ys

abbrev add : Series := xs.combine ys (· + ·)

abbrev sub : Series := xs.combine ys (· - ·)

abbrev mul : Series := xs.combine ys (· * ·)

-- Every divisor is a positive number or went through ``replace(0.0, np.nan)``.
abbrev div : Series := xs.combine ys (· / ·)

abbrev neg : Series := xs.apply (-·)

abbrev abs : Series := xs.apply fun x => |x|

abbrev clipLower (bound : ℚ) : Series := xs.apply (max bound)

abbrev clip (lower upper : ℚ) : Series := xs.apply fun x => min upper (max lower x)

def replaceZero : Series := xs.map fun x => if x = some 0 then none else x

def fillna (value : ℚ) : Series := xs.map fun x => some (x.getD value)

-- A comparison with a missing value is false.
def compare (holds : ℚ → ℚ → Bool) : List Bool :=
  List.zipWith (fun x y => match x, y with
    | some x, some y => holds x y
    | _, _ => false) xs ys

abbrev gt : List Bool := xs.compare ys fun x y => y < x

abbrev ge : List Bool := xs.compare ys fun x y => y ≤ x

-- ``where``: the value of a row that fails the condition is `other`.
def keepWhere (condition : List Bool) (other : Option ℚ) : Series :=
  List.zipWith (fun holds x => if holds then x else other) condition xs

-- ``pd.concat([xs, ys, zs], axis=1).max(axis=1)``: missing values are skipped.
def rowMax (zs : Series) : Series :=
  List.zipWith (fun xy z => [xy.1, xy.2, z].reduceOption.max?) (List.zipWith Prod.mk xs ys) zs

def shift (k : ℕ) : Series := onPast (fun past => past.reverse[k]?.join) xs

def diff (k : ℕ) : Series := xs.sub (xs.shift k)

def rolling (window : ℕ) (aggregate : List ℚ → Option ℚ) : Series :=
  onPast (fun past =>
    let observed := (past.drop (past.length - window)).reduceOption
    if window ≤ observed.length then aggregate observed else none) xs

def mean (values : List ℚ) : Option ℚ := some (values.sum / values.length)

abbrev rollingMean (window : ℕ) : Series := xs.rolling window mean

abbrev rollingMax (window : ℕ) : Series := xs.rolling window List.max?

abbrev rollingMin (window : ℕ) : Series := xs.rolling window List.min?

def std (sqrt : ℚ → ℚ) (values : List ℚ) : Option ℚ :=
  let average := values.sum / values.length
  some (sqrt ((values.map fun x => (x - average) ^ 2).sum / (values.length - 1)))

abbrev rollingStd (sqrt : ℚ → ℚ) (window : ℕ) : Series := xs.rolling window (std sqrt)

-- The running values of ``ewm(adjust=False)``: a missing value lets the old weight decay.
structure Smoothed where
  weighted : Option ℚ := none
  oldWeight : ℚ := 1
  observed : ℕ := 0

def Smoothed.step (alpha : ℚ) (s : Smoothed) (x : Option ℚ) : Smoothed :=
  match s.weighted, x with
  | some weighted, some x =>
    let oldWeight := s.oldWeight * (1 - alpha)
    { weighted := some ((oldWeight * weighted + alpha * x) / (oldWeight + alpha)), observed := s.observed + 1 }
  | some _, none => { s with oldWeight := s.oldWeight * (1 - alpha) }
  | none, some x => { s with weighted := some x, observed := s.observed + 1 }
  | none, none => s

def ewm (alpha : ℚ) (minPeriods : ℕ) : Series :=
  onPast (fun past =>
    let s := past.foldl (Smoothed.step alpha) {}
    if minPeriods ≤ s.observed then s.weighted else none) xs

abbrev ewmSpan (span : ℚ) : Series := xs.ewm (2 / (span + 1)) 1

def lastSum (past : Series) : Option ℚ := past.getLast?.join.map fun _ => past.reduceOption.sum

def lastMax (past : Series) : Option ℚ := past.getLast?.join.bind fun _ => past.reduceOption.max?

def lastMin (past : Series) : Option ℚ := past.getLast?.join.bind fun _ => past.reduceOption.min?

def lastSeen (past : Series) : Option ℚ := past.reduceOption.getLast?

def cumsum : Series := onPast lastSum xs

@[simp]
lemma apply_take (f : ℚ → ℚ) : apply (xs.take n) f = (xs.apply f).take n := List.map_take

@[simp]
lemma combine_take (f : ℚ → ℚ → ℚ) : combine (xs.take n) (ys.take n) f = (xs.combine ys f).take n :=
  zipWith_take _ xs ys n

@[simp] lemma replaceZero_take : replaceZero (xs.take n) = xs.replaceZero.take n := List.map_take

@[simp] lemma fillna_take (value : ℚ) : fillna (xs.take n) value = (xs.fillna value).take n := List.map_take

@[simp]
lemma compare_take (holds : ℚ → ℚ → Bool) : compare (xs.take n) (ys.take n) holds = (xs.compare ys holds).take n :=
  zipWith_take _ xs ys n

@[simp]
lemma keepWhere_take (condition : List Bool) (other : Option ℚ) :
    keepWhere (xs.take n) (condition.take n) other = (xs.keepWhere condition other).take n :=
  zipWith_take _ condition xs n

@[simp]
lemma rowMax_take (zs : Series) : rowMax (xs.take n) (ys.take n) (zs.take n) = (xs.rowMax ys zs).take n := by
  rw [rowMax, zipWith_take, zipWith_take, rowMax]

@[simp] lemma shift_take (k : ℕ) : shift (xs.take n) k = (xs.shift k).take n := onPast_take _ xs n

@[simp]
lemma diff_take (k : ℕ) : diff (xs.take n) k = (xs.diff k).take n := by
  rw [diff, shift_take]
  exact combine_take xs _ n _

@[simp]
lemma rolling_take (window : ℕ) (aggregate : List ℚ → Option ℚ) :
    rolling (xs.take n) window aggregate = (xs.rolling window aggregate).take n := onPast_take _ xs n

@[simp]
lemma ewm_take (alpha : ℚ) (minPeriods : ℕ) : ewm (xs.take n) alpha minPeriods = (xs.ewm alpha minPeriods).take n :=
  onPast_take _ xs n

@[simp] lemma cumsum_take : cumsum (xs.take n) = xs.cumsum.take n := onPast_take _ xs n

end Series

end AlgoTrader.Indicators
