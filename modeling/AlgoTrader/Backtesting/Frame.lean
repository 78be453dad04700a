import AlgoTrader.Utils.Time
import Mathlib.Data.List.Sort
import Mathlib.Algebra.Order.Ring.Rat

/-! OHLCV frames. A frame is the list of its rows; ``iloc[: index + 1]`` is `List.take`. -/

namespace AlgoTrader.Backtesting

open Utils.Time

structure Bar where
  timestamp : Timestamp
  openPrice : ℚ
  high : ℚ
  low : ℚ
  close : ℚ
  volume : ℚ := 0
  deriving DecidableEq

abbrev Frame := List Bar

def TimeSorted (data : Frame) : Prop := data.Pairwise (·.timestamp ≤ ·.timestamp)

instance (data : Frame) : Decidable (TimeSorted data) :=
  inferInstanceAs (Decidable (data.Pairwise _))

-- ``sort_values("timestamp")`` leaves the order of rows with one timestamp open. Here they keep it: any other order
-- is that of another frame.
def normalizeData (data : Frame) : Frame :=
  data.insertionSort (·.timestamp ≤ ·.timestamp)

instance : Std.Total (fun a b : Bar => a.timestamp ≤ b.timestamp) :=
  ⟨fun a b => le_total a.timestamp b.timestamp⟩

instance : IsTrans Bar (fun a b => a.timestamp ≤ b.timestamp) :=
  ⟨fun _ _ _ => le_trans⟩

lemma normalizeData_sorted (data : Frame) : TimeSorted (normalizeData data) :=
  List.pairwise_insertionSort _ data

lemma normalizeData_of_sorted {data : Frame} (h : TimeSorted data) : normalizeData data = data :=
  List.Pairwise.insertionSort_eq h

lemma TimeSorted.le_of_lt {data : Frame} (h : TimeSorted data) {i j : ℕ} {a b : Bar}
    (ha : data[i]? = some a) (hb : data[j]? = some b) (hij : i ≤ j) : a.timestamp ≤ b.timestamp := by
  rcases hij.eq_or_lt with rfl | hlt
  · rw [ha] at hb
    exact le_of_eq (congrArg Bar.timestamp (Option.some.inj hb))
  · obtain ⟨hi, rfl⟩ := List.getElem?_eq_some_iff.mp ha
    obtain ⟨hj, rfl⟩ := List.getElem?_eq_some_iff.mp hb
    exact List.pairwise_iff_getElem.mp h i j hi hj hlt

def maybeNextBar (frame : Frame) (index : ℕ) : Option Bar :=
  if frame.length ≤ index + 1 then none else frame[index + 1]?

lemma maybeNextBar_eq (frame : Frame) (index : ℕ) : maybeNextBar frame index = frame[index + 1]? := by
  rw [maybeNextBar]
  split_ifs with h
  · exact (List.getElem?_eq_none h).symm
  · rfl

end AlgoTrader.Backtesting
