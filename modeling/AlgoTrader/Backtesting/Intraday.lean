import AlgoTrader.Backtesting.Frame
import Mathlib.Algebra.BigOperators.Group.List.Basic

/-! Session helpers of intraday backtests (``app/backtesting/intraday.py``). Sessions are
the America/New_York calendar dates of the bars. -/

namespace AlgoTrader.Backtesting

open Utils.Time

def sessionAtrPeriod : ℕ := 14

variable (clock : NewYorkClock)

def sessionOf (bar : Bar) : ℤ := clock.date bar.timestamp

-- The last row is compared with the missing value that ``shift(-1)`` leaves: always an end.
def lastBarOfSession : Frame → List Bool
  | [] => []
  | [_] => [true]
  | a :: b :: rest => decide (sessionOf clock a ≠ sessionOf clock b) :: lastBarOfSession (b :: rest)

structure DailyRange where
  high : ℚ
  low : ℚ
  close : ℚ
  deriving DecidableEq

def sessions (frame : Frame) : List ℤ :=
  ((frame.map (sessionOf clock)).dedup).insertionSort (· ≤ ·)

def dailyRange (frame : Frame) (session : ℤ) : DailyRange :=
  let bars := frame.filter fun bar => sessionOf clock bar = session
  { high := (bars.map (·.high)).foldl max ((bars.head?.map (·.high)).getD 0)
    low := (bars.map (·.low)).foldl min ((bars.head?.map (·.low)).getD 0)
    close := (bars.getLast?.map (·.close)).getD 0 }

def trueRanges : Option ℚ → List DailyRange → List ℚ
  | _, [] => []
  | none, day :: rest => (day.high - day.low) :: trueRanges (some day.close) rest
  | some prevClose, day :: rest =>
    max (day.high - day.low) (max |day.high - prevClose| |day.low - prevClose|) ::
      trueRanges (some day.close) rest

-- ``rolling(period, min_periods=minPeriods).mean()`` at row ``k``.
def rollingMean (period minPeriods : ℕ) (values : List ℚ) (k : ℕ) : Option ℚ :=
  let window := (values.take (k + 1)).drop (k + 1 - period)
  if window.length < minPeriods then none else some (window.sum / window.length)

def sessionAtrByBar (frame : Frame) : List (Option ℚ) :=
  let daily := sessions clock frame
  let ranges := trueRanges none (daily.map (dailyRange clock frame))
  frame.map fun bar =>
    match daily.idxOf (sessionOf clock bar) with
    | 0 => none
    | k + 1 => rollingMean sessionAtrPeriod (max 3 (sessionAtrPeriod / 3)) ranges k

def flooredStopAndTarget (fillPrice signalPrice stop : ℚ) (target : Option ℚ) (minDistance : ℚ) :
    ℚ × Option ℚ :=
  let distance := fillPrice - stop
  if minDistance ≤ 0 ∨ minDistance ≤ distance then (stop, target)
  else
    let signalRisk := signalPrice - stop
    let newStop := fillPrice - minDistance
    match target with
    | some t =>
      if 0 < signalRisk then (newStop, some (fillPrice + (t - signalPrice) / signalRisk * minDistance))
      else (newStop, some t)
    | none => (newStop, none)

end AlgoTrader.Backtesting
