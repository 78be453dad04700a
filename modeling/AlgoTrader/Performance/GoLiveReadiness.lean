import AlgoTrader.Automation.AutomationService
import AlgoTrader.Lib.Drawdown
import AlgoTrader.Lib.Rounding
import AlgoTrader.Lib.Runs
import Mathlib.Data.List.Sort

/-! The go-live readiness (``app/performance/go_live_readiness.py``): the bar before real money, its
drawdown kept from refresh to refresh, and the guard that reads the stored report. -/

namespace AlgoTrader.Performance.GoLive

open Rounding (toDigits)
open Utils.Time

structure GoLiveSettings where
  phase3StartDate : Option Timestamp := none
  requireStrategyOosEvidence : Bool := true
  goLiveMinClosedTrades : ℤ := 50
  goLiveMinProfitFactor : ℚ := 13 / 10
  goLiveMaxDrawdownPct : ℚ := 3
  goLiveMinCleanWeeks : ℤ := 4

def orElse {α : Type} [DecidableEq α] [Zero α] (value fallback : α) : α := if value = 0 then fallback else value

namespace GoLiveSettings

variable (settings : GoLiveSettings)

def minTrades : ℤ := orElse settings.goLiveMinClosedTrades 50
def minProfitFactor : ℚ := orElse settings.goLiveMinProfitFactor (13 / 10)
def maxDrawdown : ℚ := orElse settings.goLiveMaxDrawdownPct 3
def minWeeks : ℤ := orElse settings.goLiveMinCleanWeeks 4

end GoLiveSettings

def phase3Start (settings : GoLiveSettings) (stored : Option Timestamp) (now : Timestamp) :
    Option Timestamp × Option Timestamp :=
  match settings.phase3StartDate, stored with
  | some start, stored => (some start, stored)
  | none, some start => (some start, some start)
  | none, none => if settings.requireStrategyOosEvidence then (some now, some now) else (none, none)

/-- A row of ``executions``, of which the JSON texts are read. ``malformed``: one is no object. -/
structure ExecutionRow where
  createdAt : Timestamp
  realizedPnlUsd : ℚ
  malformed : Bool := false
  strategyName : String := ""
  timeframe : String := ""
  proposedPrice : ℚ := 0
  stopLoss : ℚ := 0
  filledAvgPrice : ℚ := 0
  filledQty : ℚ := 0
  paperOnly : Bool := false
  deriving DecidableEq

structure ReadTrade where
  strategy : String
  timeframe : String
  pnl : ℚ
  r : Option ℚ
  paperOnly : Bool
  deriving DecidableEq

def ExecutionRow.read (row : ExecutionRow) : ReadTrade :=
  let entry := if row.filledAvgPrice = 0 then row.proposedPrice else row.filledAvgPrice
  let risk := if 0 < entry ∧ 0 < row.stopLoss ∧ 0 < row.filledQty then |entry - row.stopLoss| * row.filledQty else 0
  { strategy := if row.strategyName = "" then "unknown" else row.strategyName
    timeframe := row.timeframe
    pnl := row.realizedPnlUsd
    r := if 0 < risk then some (row.realizedPnlUsd / risk) else none
    paperOnly := row.paperOnly }

def closedTrades (executions : List ExecutionRow) (since : Timestamp) : List ReadTrade :=
  (((executions.filter fun row => row.realizedPnlUsd ≠ 0 ∧ since ≤ row.createdAt).insertionSort
    (·.createdAt ≤ ·.createdAt)).filter fun row => !row.malformed).map ExecutionRow.read

/-- A row of ``paper_positions`` that holds the paper-only tag. ``brokerLedger``: its source is the broker. -/
structure PaperPosition where
  openedAt : Timestamp
  isOpen : Bool
  closedAt : Option Timestamp
  realizedPnlUsd : ℚ
  unrealizedPnlUsd : ℚ
  paperOnly : Bool := true
  brokerLedger : Bool := true
  deriving DecidableEq

def PaperPosition.counted (since : Timestamp) (position : PaperPosition) : Bool :=
  (position.isOpen || position.closedAt.all (since ≤ ·)) && (position.paperOnly && position.brokerLedger)

def PaperPosition.pnl (position : PaperPosition) : ℚ :=
  if position.isOpen then position.unrealizedPnlUsd else position.realizedPnlUsd

def paperOnlyMarks (positions : List PaperPosition) (since : Timestamp) : List (Timestamp × ℚ) :=
  ((positions.filter (·.counted since)).map fun position => (position.openedAt, position.pnl)).insertionSort
    (·.1 ≤ ·.1)

def nettedAt (marks : List (Timestamp × ℚ)) (time : Timestamp) : ℚ := ((marks.takeWhile (·.1 ≤ time)).map Prod.snd).sum

/-- An ``alpaca_reconciliation_ok`` row of the run log; ``equity`` is none where its text holds none. -/
structure Reading where
  createdAt : Timestamp
  equity : Option ℚ
  deriving DecidableEq

/-- What is stored under ``EQUITY_STATE_KEY``. -/
structure Watermark where
  since : Timestamp
  lastTs : Option Timestamp := none
  peak : ℚ := 0
  maxDdPct : ℚ := 0
  netOfPaperOnly : Bool := false
  paperOnlyPnlNettedUsd : ℚ := 0
  deriving DecidableEq

def startWatermark (stored : Option Watermark) (marks : List (Timestamp × ℚ)) (since : Timestamp) : Watermark :=
  let w := match stored with
    | some w => if w.since = since then w else { since }
    | none => { since }
  if w.netOfPaperOnly then w
  else if w.lastTs.any fun last => (marks.head?.map Prod.fst).any (· ≤ last) then { since, netOfPaperOnly := true }
  else { w with netOfPaperOnly := true }

def fallPct (peak value : ℚ) : ℚ := if 0 < peak then (peak - value) / peak * 100 else 0

def Watermark.see (marks : List (Timestamp × ℚ)) (w : Watermark) (reading : Reading) : Watermark :=
  match reading.equity with
  | none => { w with lastTs := some reading.createdAt }
  | some equity =>
    let netted := nettedAt marks reading.createdAt
    let peak := max w.peak (equity - netted)
    { w with
      lastTs := some reading.createdAt
      peak := peak
      maxDdPct := if 0 < peak then max w.maxDdPct ((peak - (equity - netted)) / peak * 100) else w.maxDdPct
      paperOnlyPnlNettedUsd := netted }

def readingLimit : ℕ := 20000

def unread (log : List Reading) (w : Watermark) : List Reading :=
  ((log.filter fun reading => w.since ≤ reading.createdAt ∧ w.lastTs.all (· < reading.createdAt)).insertionSort
    (·.createdAt ≤ ·.createdAt)).take readingLimit

def updateDrawdown (stored : Option Watermark) (log : List Reading) (marks : List (Timestamp × ℚ))
    (since : Timestamp) : Watermark :=
  let start := startWatermark stored marks since
  let w := (unread log start).foldl (Watermark.see marks) start
  { w with paperOnlyPnlNettedUsd := toDigits 2 w.paperOnlyPnlNettedUsd }

def monday (date : ℤ) : ℤ := date - weekday date

def incidentWeeks (incidents : List Timestamp) (start : Timestamp) : List ℤ :=
  (incidents.filter (start ≤ ·)).map fun time => monday (utcDate time)

def cleanFrom (weeks : List ℤ) (first : ℤ) : ℕ → ℤ → ℕ
  | 0, _ => 0
  | fuel + 1, weekStart =>
    if first ≤ weekStart ∧ weekStart ∉ weeks then cleanFrom weeks first fuel (weekStart - 7) + 1 else 0

def lastWeek (now : Timestamp) : ℤ := monday (utcDate now) - 7

def cleanWeeks (incidents : List Timestamp) (start now : Timestamp) : ℕ :=
  cleanFrom (incidentWeeks incidents start) (utcDate start) (lastWeek now - utcDate start + 1).toNat (lastWeek now)

structure ScoreCard where
  trades : ℕ
  wins : ℕ
  pnl : ℚ
  avgR : Option ℚ
  deriving DecidableEq

def average (values : List ℚ) : Option ℚ := if values = [] then none else some (toDigits 3 (values.sum / values.length))

def cardOf (trades : List ReadTrade) : ScoreCard where
  trades := trades.length
  wins := (trades.filter (0 < ·.pnl)).length
  pnl := trades.foldl (fun total trade => toDigits 2 (total + trade.pnl)) 0
  avgR := average (trades.filterMap ReadTrade.r)

def ReadTrade.key (trade : ReadTrade) : String := trade.strategy ++ ":" ++ trade.timeframe

def scorecard (trades : List ReadTrade) : List (String × ScoreCard) :=
  (trades.map ReadTrade.key).eraseDups.map fun key => (key, cardOf (trades.filter (·.key = key)))

inductive ReadinessBlocker
  | phase3NotStarted
  | closedTradesBelow (trades : ℕ) (needed : ℤ)
  | profitFactorBelow (needed : ℚ)
  | maxDrawdownNotBelow (drawdown limit : ℚ)
  | cleanWeeksBelow (weeks : ℕ) (needed : ℤ)
  deriving DecidableEq

structure Report where
  ready : Bool
  blockers : List ReadinessBlocker
  phase3StartedAt : Option Timestamp
  closedTrades : ℕ := 0
  wins : ℕ := 0
  netPnlUsd : ℚ := 0
  profitFactor : Option ℚ := none
  maxDrawdownPct : ℚ := 0
  cleanWeeks : ℕ := 0
  scorecard : List (String × ScoreCard) := []
  paperOnlyTradesExcluded : ℕ := 0
  paperOnlyPnlNettedUsd : ℚ := 0
  computedAt : Timestamp
  deriving DecidableEq

def grossWin (trades : List ReadTrade) : ℚ := ((trades.filter (0 < ·.pnl)).map ReadTrade.pnl).sum

def grossLoss (trades : List ReadTrade) : ℚ := -((trades.filter (·.pnl < 0)).map ReadTrade.pnl).sum

/-- ``none`` is infinite: wins, and no loss. -/
def profitFactor (trades : List ReadTrade) : Option ℚ :=
  if 0 < grossLoss trades then some (grossWin trades / grossLoss trades)
  else if 0 < grossWin trades then none else some 0

def blockers (settings : GoLiveSettings) (trades : List ReadTrade) (drawdown : ℚ) (weeks : ℕ) : List ReadinessBlocker :=
  (if trades.length < settings.minTrades then [.closedTradesBelow trades.length settings.minTrades] else []) ++
  (if (profitFactor trades).any (· < settings.minProfitFactor) then [.profitFactorBelow settings.minProfitFactor]
    else []) ++
  (if settings.maxDrawdown ≤ drawdown then [.maxDrawdownNotBelow drawdown settings.maxDrawdown] else []) ++
  (if weeks < settings.minWeeks then [.cleanWeeksBelow weeks settings.minWeeks] else [])

structure Refresh where
  now : Timestamp
  settings : GoLiveSettings
  executions : List ExecutionRow
  positions : List PaperPosition

structure State where
  phase3StartedAt : Option Timestamp := none
  watermark : Option Watermark := none
  report : Option Report := none
  readings : List Reading := []
  incidents : List Timestamp := []

def reportOf (s : State) (refresh : Refresh) (start : Timestamp) (w : Watermark) : Report :=
  let read := closedTrades refresh.executions start
  let trades := read.filter fun trade => !trade.paperOnly
  let drawdown := toDigits 4 w.maxDdPct
  let weeks := cleanWeeks s.incidents start refresh.now
  let blocked := blockers refresh.settings trades drawdown weeks
  { ready := blocked = []
    blockers := blocked
    phase3StartedAt := some start
    closedTrades := trades.length
    wins := (trades.filter (0 < ·.pnl)).length
    netPnlUsd := toDigits 2 (trades.map ReadTrade.pnl).sum
    profitFactor := (profitFactor trades).map (toDigits 3)
    maxDrawdownPct := drawdown
    cleanWeeks := weeks
    scorecard := scorecard trades
    paperOnlyTradesExcluded := (read.filter (·.paperOnly)).length
    paperOnlyPnlNettedUsd := w.paperOnlyPnlNettedUsd
    computedAt := refresh.now }

def notStarted (now : Timestamp) : Report :=
  { ready := false, blockers := [.phase3NotStarted], phase3StartedAt := none, computedAt := now }

def refreshReadiness (s : State) (refresh : Refresh) : State :=
  let started := phase3Start refresh.settings s.phase3StartedAt refresh.now
  match started.1 with
  | none => { s with phase3StartedAt := started.2, report := some (notStarted refresh.now) }
  | some start =>
    let w := updateDrawdown s.watermark s.readings (paperOnlyMarks refresh.positions start) start
    { s with
      phase3StartedAt := started.2
      watermark := some w
      report := some (reportOf s refresh start w) }

def readinessMaxAge : ℤ := 2 * 60 * microsPerMinute

def readinessReady (s : State) (now : Timestamp) : Bool :=
  s.report.any fun report => decide (now - report.computedAt ≤ readinessMaxAge) && report.ready

inductive Event
  | reconciled (reading : Reading)
  | incident (time : Timestamp)
  | refresh (refresh : Refresh)

def step (s : State) : Event → State
  | .reconciled reading => { s with readings := s.readings ++ [reading] }
  | .incident time => { s with incidents := s.incidents ++ [time] }
  | .refresh refresh => refreshReadiness s refresh

def run (events : List Event) : State := Runs.run step {} events

end AlgoTrader.Performance.GoLive
