import AlgoTrader.Backtesting.EngineRun
import AlgoTrader.StrategyLab.Registry

/-! The way of a generated strategy onto paper (``app/strategy_lab/service.py``): it is backtested with its own
rules, its metrics are held against the gates, and it is promoted on its latest backtest. Backtests and promotions
run side by side, each over several statements. -/

namespace AlgoTrader.StrategyLab

open Backtesting (RunInput BacktestRun)

def barsPerYearFor : Timeframe → ℤ
  | .oneMinute => 98280
  | .fiveMinutes => 19656
  | .tenMinutes => 9828
  | .fifteenMinutes => 6552
  | .oneHour => 1638
  | .oneDay => 252
  | .oneWeek => 52

structure LabSettings where
  strategyLabEnabled : Bool := false
  paperTradingEnabled : Bool := false
  paperGateProfile : String := "standard"
  minBacktestTrades : ℤ := 100
  minProfitFactor : ℚ := 23 / 20
  maxDrawdownPct : ℚ := 12
  looseMinBacktestTrades : ℤ := 30
  looseMinProfitFactor : ℚ := 21 / 20
  looseMaxDrawdownPct : ℚ := 18
  maxRiskPerTradePct : ℚ := 1

namespace LabSettings

variable (settings : LabSettings)

def gateProfile : String := if settings.paperGateProfile = "" then "standard" else settings.paperGateProfile

def gateMinBacktestTrades : ℤ :=
  if settings.gateProfile = "loose_paper_exploration" then
    if settings.looseMinBacktestTrades = 0 then 30 else settings.looseMinBacktestTrades
  else if settings.minBacktestTrades = 0 then 100 else settings.minBacktestTrades

def gateMinProfitFactor : ℚ :=
  if settings.gateProfile = "loose_paper_exploration" then
    if settings.looseMinProfitFactor = 0 then 21 / 20 else settings.looseMinProfitFactor
  else if settings.minProfitFactor = 0 then 23 / 20 else settings.minProfitFactor

def gateMaxDrawdownPct : ℚ :=
  if settings.gateProfile = "loose_paper_exploration" then
    if settings.looseMaxDrawdownPct = 0 then 18 else settings.looseMaxDrawdownPct
  else if settings.maxDrawdownPct = 0 then 12 else settings.maxDrawdownPct

end LabSettings

structure LabEnv where
  clock : Utils.Time.NewYorkClock
  sqrt : ℚ → ℚ

def StrategyLabDsl.strategy (sqrt : ℚ → ℚ) (dsl : StrategyLabDsl) : Backtesting.Strategy := fun data =>
  match dsl.generateSignal sqrt data with
  | .signal signal => signal
  | _ => none

def engineInput (env : LabEnv) (settings : LabSettings) (dsl : StrategyLabDsl) (data : Backtesting.Frame) :
    RunInput where
  clock := env.clock
  config :=
    { initialCash := 10000
      riskPerTradePct := some (if settings.maxRiskPerTradePct = 0 then 1 else settings.maxRiskPerTradePct)
      barsPerYear := barsPerYearFor dsl.timeframe }
  strategy := dsl.strategy env.sqrt
  data := data

def grossProfit (pnl : List ℚ) : ℚ := (pnl.filter (0 < ·)).sum

def grossLoss (pnl : List ℚ) : ℚ := |(pnl.filter (· < 0)).sum|

-- An infinite factor is kept as 999.
def profitFactor (pnl : List ℚ) : ℚ :=
  if 0 < grossLoss pnl then grossProfit pnl / grossLoss pnl else if 0 < grossProfit pnl then 999 else 0

def winRate (pnl : List ℚ) : ℚ := if pnl = [] then 0 else (pnl.filter (0 < ·)).length / pnl.length * 100

structure SymbolSummary where
  symbol : String
  numberOfTrades : ℕ
  profitFactor : ℚ
  winRate : ℚ
  maxDrawdownPct : ℚ
  deriving DecidableEq

inductive LabError
  | failed (symbol : String)
  | leakageTripwire (symbol : String)
  deriving DecidableEq

def minTradesForLeakageTripwire : ℕ := 30

def SymbolSummary.leakageTripwireTriggered (summary : SymbolSummary) : Bool :=
  minTradesForLeakageTripwire ≤ summary.numberOfTrades && (3 < summary.profitFactor || 70 < summary.winRate)

def pnlOf (run : BacktestRun) : List ℚ := run.trades.map (·.pnlUsd)

def summarize (symbol : String) (run : BacktestRun) : SymbolSummary where
  symbol := symbol
  numberOfTrades := (pnlOf run).length
  profitFactor := profitFactor (pnlOf run)
  winRate := winRate (pnlOf run)
  maxDrawdownPct := run.metrics.maxDrawdownPct

structure LabResults where
  results : List SymbolSummary := []
  allTrades : List ℚ := []
  errors : List LabError := []

/-- The run over a symbol's history, none where that could not be fetched or the engine raises. -/
def symbolRun (env : LabEnv) (settings : LabSettings) (dsl : StrategyLabDsl) (history : Option Backtesting.Frame) :
    Option BacktestRun :=
  history.bind fun data => (engineInput env settings dsl data).run.toOption

def addSymbol (env : LabEnv) (settings : LabSettings) (dsl : StrategyLabDsl) (found : LabResults)
    (fetched : String × Option Backtesting.Frame) : LabResults :=
  match symbolRun env settings dsl fetched.2 with
  | some run =>
    { results := found.results ++ [summarize fetched.1 run]
      allTrades := found.allTrades ++ pnlOf run
      errors := found.errors ++
        if (summarize fetched.1 run).leakageTripwireTriggered then [.leakageTripwire fetched.1] else [] }
  | none => { found with errors := found.errors ++ [.failed fetched.1] }

def runSymbols (env : LabEnv) (settings : LabSettings) (dsl : StrategyLabDsl)
    (fetched : List (String × Option Backtesting.Frame)) : LabResults :=
  fetched.foldl (addSymbol env settings dsl) {}

structure LabMetrics where
  symbolsEvaluated : ℕ
  numberOfTrades : ℕ
  expectancyUsd : ℚ
  profitFactor : ℚ
  maxDrawdownPct : ℚ
  winRate : ℚ
  dataErrorCount : ℕ
  errors : List LabError
  validStopTargetCoverage : Bool

def LabResults.aggregateTradeMetrics (found : LabResults) : LabMetrics where
  symbolsEvaluated := found.results.length
  numberOfTrades := found.allTrades.length
  expectancyUsd := if found.allTrades = [] then 0 else found.allTrades.sum / found.allTrades.length
  profitFactor := StrategyLab.profitFactor found.allTrades
  maxDrawdownPct := (found.results.map SymbolSummary.maxDrawdownPct).max?.getD 0
  winRate := StrategyLab.winRate found.allTrades
  dataErrorCount := found.errors.length
  errors := found.errors.take 25
  validStopTargetCoverage := true

def backtestBlockers (settings : LabSettings) (metrics : LabMetrics) : List String :=
  (if metrics.numberOfTrades < settings.gateMinBacktestTrades then ["insufficient_valid_historical_trades"] else []) ++
    (if metrics.expectancyUsd ≤ 0 then ["non_positive_expectancy_after_costs"] else []) ++
    (if metrics.profitFactor < settings.gateMinProfitFactor then ["profit_factor_below_strategy_lab_gate"] else []) ++
    (if settings.gateMaxDrawdownPct < metrics.maxDrawdownPct then ["drawdown_above_strategy_lab_gate"] else []) ++
    (if 0 < metrics.dataErrorCount then ["unexplained_data_or_leakage_errors"] else []) ++
    (if metrics.validStopTargetCoverage then [] else ["invalid_stop_or_target_generation"])

structure LabBacktest where
  id : String
  generatedStrategyId : String
  passed : Bool
  metrics : LabMetrics
  blockers : List String
  results : List SymbolSummary
  createdAt : ℕ

structure StrategyVersion where
  id : String
  strategyName : String
  generatedStrategyId : String
  dsl : StrategyLabDsl
  datasetVersion : String

structure PromotionDecision where
  id : String
  strategyVersionId : String
  approved : Bool
  backtestId : String
  metrics : LabMetrics
  decidedBy : String

structure LabTables where
  generated : GeneratedTable := []
  backtests : List LabBacktest := []
  versions : List StrategyVersion := []
  decisions : List PromotionDecision := []

namespace LabTables

variable (t : LabTables)

def getGenerated (id : String) : Option GeneratedStrategy := t.generated.find? (·.id = id)

def updateGeneratedStatus (id : String) (status : GeneratedStatus) (backtestId : String) (now : ℕ) : LabTables :=
  { t with generated := t.generated.map fun row =>
      if row.id = id then { row with status, latestBacktestId := some backtestId, updatedAt := now } else row }

def latestBacktest (id : String) : Option LabBacktest :=
  (t.backtests.filter (·.generatedStrategyId = id)).argmax LabBacktest.createdAt

end LabTables

def backtestRecord (env : LabEnv) (settings : LabSettings) (item : GeneratedStrategy)
    (fetched : List (String × Option Backtesting.Frame)) (id : String) (createdAt : ℕ) : LabBacktest :=
  let found := runSymbols env settings item.dsl fetched
  let metrics := found.aggregateTradeMetrics
  let blockers := backtestBlockers settings metrics
  { id, generatedStrategyId := item.id, passed := blockers = [], metrics, blockers, results := found.results,
    createdAt }

def promotedVersion (item : GeneratedStrategy) (backtest : LabBacktest) (id : String) : StrategyVersion where
  id := id
  strategyName := item.name
  generatedStrategyId := item.id
  dsl := item.dsl
  datasetVersion := "strategy_lab_backtest:" ++ backtest.id

def promotionDecision (version : StrategyVersion) (backtest : LabBacktest) (id decidedBy : String) :
    PromotionDecision where
  id := id
  strategyVersionId := version.id
  approved := true
  backtestId := backtest.id
  metrics := backtest.metrics
  decidedBy := decidedBy

inductive LabCall
  | backtesting (item : GeneratedStrategy) (settings : LabSettings)
  | recorded (item : GeneratedStrategy) (backtest : LabBacktest)
  | promoting (item : GeneratedStrategy)
  | checked (item : GeneratedStrategy) (backtest : LabBacktest)
  | versioned (item : GeneratedStrategy) (backtest : LabBacktest) (version : StrategyVersion)
  | decided (item : GeneratedStrategy) (backtest : LabBacktest)

structure PromotionState where
  tables : LabTables := {}
  calls : ℕ → Option LabCall := fun _ => none

-- What the database, the market data and the clock give to a statement comes with its action.
inductive PromotionAction
  | create (item : GeneratedStrategy)
  | beginBacktest (call : ℕ) (settings : LabSettings) (id : String)
  | record (call : ℕ) (fetched : List (String × Option Backtesting.Frame)) (id : String) (now : ℕ)
  | writeBack (call : ℕ) (now : ℕ)
  | beginPromotion (call : ℕ) (settings : LabSettings) (id : String)
  | check (call : ℕ)
  | createVersion (call : ℕ) (id : String)
  | recordDecision (call : ℕ) (id decidedBy : String)
  | promote (call : ℕ) (now : ℕ)
  | fail (call : ℕ)

def PromotionState.goTo (s : PromotionState) (call : ℕ) (next : Option LabCall) : PromotionState :=
  { s with calls := Function.update s.calls call next }

def PromotionState.create (s : PromotionState) (item : GeneratedStrategy) : PromotionState :=
  if item.status = .generatedShadow ∧ ∀ row ∈ s.tables.generated, row.id ≠ item.id ∧ row.name ≠ item.name then
    { s with tables := { s.tables with generated := s.tables.generated ++ [item] } }
  else s

/-- A statement of a call that has not come to it, or whose id is taken, does nothing but end the call. -/
def promotionStep (env : LabEnv) (s : PromotionState) : PromotionAction → PromotionState
  | .create item => s.create item
  | .beginBacktest call settings id =>
    match s.calls call, s.tables.getGenerated id with
    | none, some item => if settings.strategyLabEnabled then s.goTo call (some (.backtesting item settings)) else s
    | _, _ => s
  | .record call fetched id now =>
    match s.calls call with
    | some (.backtesting item settings) =>
      if ∀ backtest ∈ s.tables.backtests, backtest.id ≠ id then
        let saved := backtestRecord env settings item fetched id now
        { s with tables := { s.tables with backtests := s.tables.backtests ++ [saved] } }.goTo call
          (some (.recorded item saved))
      else s.goTo call none
    | _ => s
  | .writeBack call now =>
    match s.calls call with
    | some (.recorded item saved) =>
      { s with tables := s.tables.updateGeneratedStatus item.id item.status saved.id now }.goTo call none
    | _ => s
  | .beginPromotion call settings id =>
    match s.calls call, s.tables.getGenerated id with
    | none, some item =>
      if settings.strategyLabEnabled ∧ settings.paperTradingEnabled then s.goTo call (some (.promoting item)) else s
    | _, _ => s
  | .check call =>
    match s.calls call with
    | some (.promoting item) =>
      match s.tables.latestBacktest item.id with
      | some backtest =>
        if backtest.passed ∧ backtest.blockers = [] then s.goTo call (some (.checked item backtest))
        else s.goTo call none
      | none => s.goTo call none
    | _ => s
  | .createVersion call id =>
    match s.calls call with
    | some (.checked item backtest) =>
      if ∀ version ∈ s.tables.versions, version.id ≠ id then
        let version := promotedVersion item backtest id
        { s with tables := { s.tables with versions := s.tables.versions ++ [version] } }.goTo call
          (some (.versioned item backtest version))
      else s.goTo call none
    | _ => s
  | .recordDecision call id decidedBy =>
    match s.calls call with
    | some (.versioned item backtest version) =>
      if ∀ decision ∈ s.tables.decisions, decision.id ≠ id then
        let decision := promotionDecision version backtest id decidedBy
        { s with tables := { s.tables with decisions := s.tables.decisions ++ [decision] } }.goTo call
          (some (.decided item backtest))
      else s.goTo call none
    | _ => s
  | .promote call now =>
    match s.calls call with
    | some (.decided item backtest) =>
      { s with tables := s.tables.updateGeneratedStatus item.id .paperGenerated backtest.id now }.goTo call none
    | _ => s
  | .fail call => s.goTo call none

def promotionRun (env : LabEnv) (actions : List PromotionAction) : PromotionState :=
  Runs.run (promotionStep env) {} actions

end AlgoTrader.StrategyLab
