import AlgoTrader.Backtesting.PassCoverage
import AlgoTrader.Utils.Time
import Mathlib.Data.Prod.Lex
import Mathlib.Order.Monotone.Basic

/-! The scheduled passes behind the evidence gate (``refresh_backtest_gate``): each runs the daily or
the minute-bar timeframes from a persisted symbol cursor and unit, and moves them on. -/

namespace AlgoTrader.Backtesting

open Utils.Time

inductive PassKind
  | daily
  | minute
  | all
  deriving DecidableEq

-- The daily passes have a cursor of their own; the other two kinds share the original one.
inductive Lane
  | daily
  | original
  deriving DecidableEq

def PassKind.lane : PassKind → Lane
  | .daily => .daily
  | .minute | .all => .original

structure GateSettings where
  symbols : List String
  backtestSchedulerTimeframes : List String
  strategySpecsFor : String → List String
  backtestSchedulerDeadlineSeconds : ℚ

-- The stored texts as ``_int`` and ``_daily_due`` read them: a missing or unreadable number is 0,
-- a missing or unreadable time is `none`.
structure RuntimeState where
  cursor : ℕ := 0
  unit : ℕ := 0
  dailyCursor : ℕ := 0
  dailyUnit : ℕ := 0
  dailyCovered : ℕ := 0
  dailyFullAt : Option Timestamp := none
  deriving DecidableEq

namespace RuntimeState

variable (st : RuntimeState)

def cursorOf : Lane → ℕ
  | .daily => st.dailyCursor
  | .original => st.cursor

def unitOf : Lane → ℕ
  | .daily => st.dailyUnit
  | .original => st.unit

def setPosition (lane : Lane) (cursor unit : ℕ) : RuntimeState :=
  match lane with
  | .daily => { st with dailyCursor := cursor, dailyUnit := unit }
  | .original => { st with cursor := cursor, unit := unit }

end RuntimeState

structure PassWorld where
  now : Timestamp
  getHistory : ℕ → ℕ → TimedCall
  runStrategy : UnitAt → TimedCall

def dailyCycleHours : ℤ := 12

def dailyDue (st : RuntimeState) (now : Timestamp) : Bool :=
  match st.dailyFullAt with
  | some fullAt => dailyCycleHours * 60 * microsPerMinute ≤ now - fullAt
  | none => true

def PassState.advance (summary : PassState) : ℕ :=
  if summary.stoppedMidSymbol then summary.symbolsCovered - 1 else max summary.symbolsCovered 1

def PassState.resume (summary : PassState) : ℕ :=
  if summary.stoppedMidSymbol then summary.resumeUnit else 0

namespace GateSettings

variable (g : GateSettings)

def timeframes : List String :=
  (if g.backtestSchedulerTimeframes = [] then ["1d"] else g.backtestSchedulerTimeframes).map String.toLower

def dailyTimeframes : List String := g.timeframes.filter fun timeframe => !isMinuteBar timeframe

def minuteTimeframes : List String := g.timeframes.filter isMinuteBar

def bothKinds : Bool := g.dailyTimeframes ≠ [] ∧ g.minuteTimeframes ≠ []

def kind (st : RuntimeState) (now : Timestamp) : PassKind :=
  if g.bothKinds ∧ dailyDue st now then .daily else if g.bothKinds then .minute else .all

def laneTimeframes : Lane → List String
  | .daily => g.dailyTimeframes
  | .original => if g.bothKinds then g.minuteTimeframes else g.timeframes

def batch (lane : Lane) (st : RuntimeState) (w : PassWorld) : BatchPass where
  symbols := g.symbols
  timeframes := g.laneTimeframes lane
  strategySpecsFor := g.strategySpecsFor
  deadlineSeconds := some (max g.backtestSchedulerDeadlineSeconds 1)
  startOffset := st.cursorOf lane
  startUnit := st.unitOf lane
  getHistory := w.getHistory
  runStrategy := w.runStrategy

def pass (st : RuntimeState) (w : PassWorld) : BatchPass := g.batch (g.kind st w.now).lane st w

def completesCycle (st : RuntimeState) (w : PassWorld) : Bool :=
  g.kind st w.now = .daily ∧ 0 < g.symbols.length ∧ g.symbols.length ≤ st.dailyCovered + (g.pass st w).run.advance

def refresh (st : RuntimeState) (w : PassWorld) : RuntimeState :=
  let kind := g.kind st w.now
  let summary := (g.pass st w).run
  if 0 < g.symbols.length then
    let moved := st.setPosition kind.lane ((st.cursorOf kind.lane + summary.advance) % g.symbols.length) summary.resume
    if kind = .daily then
      if g.completesCycle st w then { moved with dailyFullAt := some w.now, dailyCovered := 0 }
      else { moved with dailyCovered := st.dailyCovered + summary.advance }
    else moved
  else st

end GateSettings

structure GateRun where
  settings : GateSettings
  start : RuntimeState := {}
  worlds : ℕ → PassWorld

namespace GateRun

variable (g : GateRun)

def stateAt : ℕ → RuntimeState
  | 0 => g.start
  | m + 1 => g.settings.refresh (stateAt m) (g.worlds m)

def laneAt (m : ℕ) : Lane := (g.settings.kind (g.stateAt m) (g.worlds m).now).lane

def passAt (m : ℕ) : BatchPass := g.settings.pass (g.stateAt m) (g.worlds m)

def size : ℕ := g.settings.symbols.length

def swept (lane : Lane) : ℕ → ℕ
  | 0 => g.start.cursorOf lane
  | m + 1 => swept lane m + if g.laneAt m = lane then (g.passAt m).run.advance else 0

def positionAt (lane : Lane) (m : ℕ) : ℕ ×ₗ ℕ := toLex (g.swept lane m, (g.stateAt m).unitOf lane)

end GateRun

end AlgoTrader.Backtesting
