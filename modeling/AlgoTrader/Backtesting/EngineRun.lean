import AlgoTrader.Backtesting.Engine

/-! ``BacktestEngine.run``: the state of the bar loop, the processing of one bar in the
order of the source, and the whole run. -/

namespace AlgoTrader.Backtesting

open Utils.Time Models

structure RunInput where
  clock : NewYorkClock
  config : EngineConfig
  strategy : Strategy
  data : Frame
  initialCash : Option ℚ := none
  tradeWindowStart : Option Timestamp := none

namespace RunInput

variable (r : RunInput)

def runConfig : EngineConfig :=
  match r.initialCash with
  | some cash => { r.config with initialCash := cash }
  | none => r.config

def normalized : Frame := normalizeData r.data

def totalBars : ℕ := r.normalized.length

def intraday : Bool := dailyBarsPerYear < r.runConfig.barsPerYear

def sessionEnds : List Bool :=
  if r.intraday ∧ r.runConfig.flattenAtSessionEnd then lastBarOfSession r.clock r.normalized else []

def sessionAtr : List (Option ℚ) :=
  if r.intraday ∧ 0 < r.runConfig.minStopSessionAtrMultiple then sessionAtrByBar r.clock r.normalized
  else []

def delay : ℕ := (max r.runConfig.entryDelayBars 0).toNat

def atSessionEnd (index : ℕ) : Bool := (r.sessionEnds[index]?).getD false

def inWarmup (bar : Bar) : Bool :=
  match r.tradeWindowStart with
  | some start => bar.timestamp < start
  | none => false

def minStopDistance (index : ℕ) : ℚ :=
  match (r.sessionAtr[index]?).join with
  | some atr => if atr = 0 then 0 else atr * r.runConfig.minStopSessionAtrMultiple
  | none => 0

def signalAt (index : ℕ) : Option Signal := r.strategy (r.normalized.take (index + 1))

end RunInput

/-- The locals of the bar loop. `opened` is not in the source: it lists every position the
loop has opened, oldest first. -/
structure LoopState where
  cash : ℚ
  openTrade : Option OpenTrade := none
  equityCurve : List ℚ := []
  trades : List ClosedTrade := []
  costEvents : List CostEvent := []
  warnings : List Warning := []
  recentSignals : List (ℕ × Option Signal) := []
  opened : List OpenTrade := []
  deriving DecidableEq

namespace LoopState

def bookExit (s : LoopState) (m : CostModel) (trade : OpenTrade) (action : ExitAction) : LoopState :=
  let closing := closeTrade m trade action
  { s with
    cash := s.cash + closing.realized
    openTrade := none
    trades := s.trades ++ [⟨trade, action.fillBarIndex, closing.tradeRecord⟩]
    costEvents := s.costEvents ++ [closing.costEvent]
    warnings := s.warnings ++ closing.warning.toList }

def recordSignal (s : LoopState) (index delay : ℕ) (signal : Option Signal) : LoopState :=
  let appended := s.recentSignals ++ [(index, if s.openTrade.isNone then signal else none)]
  { s with recentSignals := appended.drop (appended.length - (delay + 1)) }

def enter (s : LoopState) (attempt : EntryAttempt) : LoopState :=
  { s with
    openTrade := some attempt.openTrade
    cash := attempt.cashAfterEntry
    recentSignals := []
    opened := s.opened ++ [attempt.openTrade] }

def mark (s : LoopState) (bar : Bar) : LoopState :=
  { s with equityCurve := s.equityCurve ++ [markToMarket s.cash s.openTrade bar] }

-- ``equity_curve[-1] = cash``, when there is a last point.
def markLastCash (s : LoopState) : LoopState :=
  { s with equityCurve := if s.equityCurve = [] then [] else s.equityCurve.dropLast ++ [s.cash] }

end LoopState

inductive EntryOutcome
  | notTaken
  | dropped
  | filled (attempt : EntryAttempt)
  deriving DecidableEq

namespace RunInput

variable (r : RunInput)

def handleExit (bar : Bar) (index : ℕ) (s : LoopState) : Except EngineError LoopState :=
  match s.openTrade with
  | none => pure s
  | some trade => do
    let exitAction ← evaluateExit r.clock r.runConfig trade bar (r.signalAt index) index
      (maybeNextBar r.normalized index)
    match exitAction with
    | some action => pure (s.bookExit r.runConfig.costModel trade action)
    | none => pure s

def flattenSession (bar : Bar) (index : ℕ) (s : LoopState) : Except EngineError LoopState :=
  match s.openTrade with
  | none => pure s
  | some trade =>
    if r.atSessionEnd index then do
      let exitPrice ← r.runConfig.costModel.exitFillPrice bar.close trade.side false
      pure (s.bookExit r.runConfig.costModel trade ⟨exitPrice, bar.timestamp, index, .sessionClose⟩)
    else pure s

def decideEntry (index : ℕ) (s : LoopState) : Except EngineError EntryOutcome :=
  match entrySignal s.recentSignals index r.delay r.sessionEnds with
  | none => pure .notTaken
  | some signal =>
    if s.openTrade.isNone ∧ !r.atSessionEnd index ∧ opensPosition signal r.runConfig.shortEntries then
      match maybeNextBar r.normalized index with
      | none => pure .dropped
      | some nextBar => do
        let attempt ← attemptEntry r.clock r.runConfig signal nextBar s.cash (index + 1)
          (r.minStopDistance index)
        match attempt with
        | none => pure .dropped
        | some entry => pure (.filled entry)
    else pure .notTaken

/-- Exits, the session-end flatten and the recorded signal of a bar: the state its entry
decision is taken in. -/
def settleBar (bar : Bar) (index : ℕ) (s : LoopState) : Except EngineError LoopState := do
  let exited ← r.handleExit bar index s
  let flattened ← r.flattenSession bar index exited
  pure (flattened.recordSignal index r.delay (r.signalAt index))

def applyEntry (bar : Bar) (s : LoopState) : EntryOutcome → LoopState
  | .dropped => s  -- the source's ``continue``
  | .notTaken => s.mark bar
  | .filled attempt => (s.enter attempt).mark bar

def processBar (index : ℕ) (s : LoopState) : Except EngineError LoopState :=
  match r.normalized[index]? with
  | none => pure s
  | some bar =>
    if r.inWarmup bar then pure s
    else do
      let settled ← r.settleBar bar index s
      let outcome ← r.decideEntry index settled
      pure (applyEntry bar settled outcome)

def initialState : LoopState := { cash := r.runConfig.initialCash }

def stateAt (index : ℕ) : Except EngineError LoopState :=
  BoundedLoop.iterate r.processBar r.initialState index

def closeAtEnd (s : LoopState) : Except EngineError LoopState :=
  match s.openTrade, r.normalized.getLast? with
  | some trade, some finalBar => do
    let exitPrice ← r.runConfig.costModel.exitFillPrice finalBar.close trade.side false
    pure (s.bookExit r.runConfig.costModel trade
      ⟨exitPrice, finalBar.timestamp, r.totalBars - 1, .endOfData⟩).markLastCash
  | _, _ => pure s

end RunInput

def drawdowns (runningMax : ℚ) : List ℚ → List ℚ
  | [] => []
  | equity :: rest =>
    let peak := max runningMax equity
    (equity - peak) / (if peak = 0 then 1 else peak) :: drawdowns peak rest

def computeMaxDrawdown : List ℚ → ℚ
  | [] => 0
  | equity :: rest => |((drawdowns equity (equity :: rest)).foldl min 0) * 100|

def pctChange : List ℚ → List ℚ
  | a :: b :: rest => (b - a) / a :: pctChange (b :: rest)
  | _ => []

-- ``sharpe_like`` is the mean of `sharpeReturns` over their deviation, annualized; the square
-- roots are left out and the series is kept.
structure Metrics where
  totalReturnPct : ℚ
  maxDrawdownPct : ℚ
  sharpeReturns : List ℚ
  barsEvaluated : ℕ
  deriving DecidableEq

def compileMetrics (equityCurve : List ℚ) (initialCash endingCash : ℚ) : Metrics where
  totalReturnPct := if initialCash = 0 then 0 else (endingCash - initialCash) / initialCash * 100
  maxDrawdownPct := computeMaxDrawdown equityCurve
  sharpeReturns := if equityCurve.length < 3 then [] else pctChange equityCurve
  barsEvaluated := max equityCurve.length 1

structure BacktestRun where
  final : LoopState
  endingCash : ℚ
  metrics : Metrics
  deriving DecidableEq

def BacktestRun.closed (run : BacktestRun) : List ClosedTrade := run.final.trades

def BacktestRun.trades (run : BacktestRun) : List TradeRecord := run.closed.map (·.record)

def RunInput.run (r : RunInput) : Except EngineError BacktestRun := do
  let looped ← r.stateAt r.totalBars
  let final ← r.closeAtEnd looped
  let endingCash := final.equityCurve.getLast?.getD r.runConfig.initialCash
  pure
    { final := final
      endingCash := endingCash
      metrics := compileMetrics final.equityCurve r.runConfig.initialCash endingCash }

end AlgoTrader.Backtesting
