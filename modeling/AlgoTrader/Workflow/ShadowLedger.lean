import AlgoTrader.Backtesting.Engine

/-! The scoring of the shadow forward ledger (``app/workflow/shadow_ledger.py``): one setup
followed on the daily bars after it, and the setups of a symbol one after the other. Session
dates are day numbers. -/

namespace AlgoTrader.Workflow

open Utils.Time Backtesting

def timeExitDays : ℤ := 14

structure Row where
  day : ℤ
  openPrice : ℚ
  high : ℚ
  low : ℚ
  close : ℚ
  deriving DecidableEq

def rows (frame : Frame) : List Row :=
  (frame.filter fun bar => 0 < bar.openPrice ∧ 0 < bar.high ∧ 0 < bar.low ∧ 0 < bar.close).map
    fun bar => ⟨utcDate bar.timestamp, bar.openPrice, bar.high, bar.low, bar.close⟩

inductive LegStatus
  | closed
  | stillOpen
  deriving DecidableEq, Repr

inductive LegReason
  | stop
  | target
  | timeExit
  | marked
  deriving DecidableEq, Repr

structure Leg where
  status : LegStatus
  reason : LegReason
  exitDate : ℤ
  exitPrice : ℚ
  r : ℚ
  bars : ℕ
  deriving DecidableEq

inductive EntryStatus
  | pending
  | noRisk
  | skippedOpen
  | stillOpen
  | closed
  deriving DecidableEq, Repr

-- ``time14d`` is absent, ``{"status": "open"}`` (`some none`) or a leg.
structure Entry where
  signalBar : ℤ
  specKey : String
  short : Bool := false
  stop : ℚ
  target : ℚ
  status : EntryStatus := .pending
  entryDate : Option ℤ := none
  entryPrice : Option ℚ := none
  stopTarget : Option Leg := none
  time14d : Option (Option Leg) := none
  deriving DecidableEq

def Entry.side (entry : Entry) : Side := if entry.short then .sell else .buy

def Entry.taken (entry : Entry) : Bool := entry.status = .stillOpen ∨ entry.status = .closed

def cost : CostModel := {}

def crossed (short : Bool) (stop target : ℚ) (bar : Row) : Option (ℚ × LegReason) :=
  if short then
    if stop ≤ bar.high then some (max stop bar.openPrice, .stop)
    else if bar.low ≤ target then some (target, .target)
    else none
  else
    if bar.low ≤ stop then some (min stop bar.openPrice, .stop)
    else if target ≤ bar.high then some (target, .target)
    else none

section Score

variable (entry : Entry) (bars : List Row) (first : ℕ) (fill risk : ℚ)

def leg (index : ℕ) (raw : ℚ) (reason : LegReason) : Except EngineError Leg := do
  let price ← cost.exitFillPrice raw entry.side false
  pure
    { status := .closed
      reason := reason
      exitDate := ((bars[index]?).map (·.day)).getD 0
      exitPrice := Rounding.toDigits 4 price
      r := Rounding.toDigits 3 ((if entry.side = .sell then fill - price else price - fill) / risk)
      bars := index - first + 1 }

def closeOf (index : ℕ) : ℚ := ((bars[index]?).map (·.close)).getD 0

def timeLeg (due : Bool) (last : ℕ) (timed : Option Leg) : Except EngineError (Option Leg) :=
  if timed.isNone ∧ due then do
    let exit ← leg entry bars first fill risk last (closeOf bars last) .timeExit
    pure (some exit)
  else pure timed

-- A trade that reached neither level is marked at the last close.
def hitOrMark : Option Leg → Except EngineError Leg
  | some hit => pure hit
  | none => do
    let last := bars.length - 1
    let mark ← leg entry bars first fill risk last (closeOf bars last) .marked
    pure { mark with status := .stillOpen }

/-- The loop over the bars from the entry on: the stop or target leg, if one is reached, and
the fold-length leg so far. -/
def follow (horizon : ℤ) : ℕ → List Row → Option Leg → Except EngineError (Option Leg × Option Leg)
  | _, [], timed => pure (none, timed)
  | index, bar :: rest, timed => do
    let timed ← timeLeg entry bars first fill risk (horizon ≤ bar.day) (index - 1) timed
    match crossed entry.short entry.stop entry.target bar with
    | some (raw, reason) => do
      let hit ← leg entry bars first fill risk index raw reason
      pure (some hit, timed.or (some hit))
    | none => follow horizon (index + 1) rest timed

-- ``max(i for i in range(first, len(bars)) if bars[i][0] < horizon)``
def lastBefore (horizon : ℤ) : ℕ :=
  (((List.range bars.length).filter fun i => first ≤ i ∧
    (bars[i]?).any fun bar => bar.day < horizon).getLast?).getD first

def scoreFilled (entryDay today : ℤ) : Except EngineError Entry := do
  let horizon := entryDay + timeExitDays
  let (hit, timed) ← follow entry bars first fill risk horizon first (bars.drop first) none
  let timed ← timeLeg entry bars first fill risk (horizon ≤ today) (lastBefore bars first horizon) timed
  let hit ← hitOrMark entry bars first fill risk hit
  pure { entry with
    entryDate := some entryDay
    entryPrice := some (Rounding.toDigits 4 fill)
    stopTarget := some hit
    time14d := some timed
    status := if hit.status = .closed ∧ timed.isSome then .closed else .stillOpen }

end Score

def scoreEntry (entry : Entry) (bars : List Row) (today : ℤ) : Except EngineError Entry :=
  match bars.findIdx? (fun bar => entry.signalBar < bar.day) with
  | none => pure { entry with status := .pending }
  | some first =>
    match bars[first]? with
    | none => pure { entry with status := .pending }
    | some bar => do
      let fill ← cost.entryFillPrice bar.openPrice entry.side false
      let risk := |fill - entry.stop|
      if risk ≤ 0 then pure { entry with status := .noRisk }
      else scoreFilled entry bars first fill risk bar.day today

/-- ``busy_until``: per spec key the exit session of the trade in force, none in the value
for a trade without one. -/
abbrev BusyUntil := String → Option (Option ℤ)

def blocked (busy : BusyUntil) (entry : Entry) : Bool :=
  match busy entry.specKey with
  | none => false
  | some none => true
  | some (some exitDay) => entry.signalBar < exitDay

def skipOpen (entry : Entry) : Entry :=
  { entry with
    status := .skippedOpen, entryDate := none, entryPrice := none, stopTarget := none, time14d := none }

def occupy (busy : BusyUntil) (entry : Entry) : BusyUntil :=
  if entry.taken then
    Function.update busy entry.specKey (some ((entry.stopTarget.filter (·.status = .closed)).map (·.exitDate)))
  else if entry.status = .pending then Function.update busy entry.specKey (some none)
  else busy

def scoreNext (bars : List Row) (today : ℤ) (acc : BusyUntil × List Entry) (entry : Entry) :
    Except EngineError (BusyUntil × List Entry) :=
  if blocked acc.1 entry then pure (acc.1, acc.2 ++ [skipOpen entry])
  else do
    let scored ← scoreEntry entry bars today
    pure (occupy acc.1 scored, acc.2 ++ [scored])

def scoreSymbol (entries : List Entry) (bars : List Row) (today : ℤ) : Except EngineError (List Entry) := do
  let (_, scored) ← entries.foldlM (scoreNext bars today) (fun _ => none, [])
  pure scored

end AlgoTrader.Workflow
