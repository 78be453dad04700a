import AlgoTrader.Backtesting.EngineRun
import AlgoTrader.Backtesting.EngineStep
import AlgoTrader.Backtesting.CashConservation
import AlgoTrader.Backtesting.NoLookAhead
import AlgoTrader.Backtesting.NoOverlap
import AlgoTrader.Lib.OneAtATime
import AlgoTrader.Workflow.ShadowLedger
import AlgoTrader.Workflow.ShadowTrades
import AlgoTrader.Workflow.ShadowScoring
import AlgoTrader.Workflow.ShadowAgreement
import AlgoTrader.Automation.Reconciliation
import AlgoTrader.Automation.Protection
import AlgoTrader.Broker.Crypto
import AlgoTrader.Models.Trade
import AlgoTrader.Risk.VolatilityTarget
import AlgoTrader.Execution.Coordinator
import AlgoTrader.Execution.GovernedAmount
import AlgoTrader.Lib.Sha256
import AlgoTrader.Execution.Queue
import AlgoTrader.Execution.OneOrder
import AlgoTrader.Broker.EtoroClient
import AlgoTrader.Broker.EtoroLiveBackupStop
import AlgoTrader.Broker.EtoroLiveRoom
import AlgoTrader.Broker.EtoroLiveMirror
import AlgoTrader.Broker.EtoroLive
import AlgoTrader.Broker.MirrorCaps
import AlgoTrader.Broker.StopCoverage
import AlgoTrader.Broker.ExposureCap
import AlgoTrader.Broker.TopUps
import AlgoTrader.Broker.RefusedCopies
import AlgoTrader.Broker.ReserveIsolation
import AlgoTrader.Backtesting.SessionFlatten
import AlgoTrader.Backtesting.CashBounds
import AlgoTrader.Backtesting.WalkForward
import AlgoTrader.Backtesting.WalkForwardFolds
import AlgoTrader.Backtesting.OutOfSample
import AlgoTrader.Backtesting.WarmUp
import AlgoTrader.Backtesting.RecordedSignals
import AlgoTrader.Backtesting.BatchPass
import AlgoTrader.Backtesting.BatchUnits
import AlgoTrader.Backtesting.PassCoverage
import AlgoTrader.Backtesting.GateRefresh
import AlgoTrader.Backtesting.RotationCoverage
import AlgoTrader.Backtesting.RotationProgress
import AlgoTrader.Backtesting.DailyCycle
import AlgoTrader.Indicators.Series
import AlgoTrader.Indicators.Enrich
import AlgoTrader.Indicators.PrefixCache
import AlgoTrader.Approvals.ProposalService
import AlgoTrader.Approvals.LifeCycle
import AlgoTrader.Lib.Table
import AlgoTrader.Approvals.ExecutionLink
import AlgoTrader.Automation.AutomationService
import AlgoTrader.Automation.KillSwitch
import AlgoTrader.Automation.AutoRecover
import AlgoTrader.Execution.Stranded
import AlgoTrader.Lib.Streak
import AlgoTrader.Performance.StrategyEvidence
import AlgoTrader.Ledger.Service
import AlgoTrader.Ledger.Matching
import AlgoTrader.Ledger.Cycles
import AlgoTrader.Ledger.LinksKept
import AlgoTrader.Ledger.ManualImports
import AlgoTrader.Paper.BrokerLedger
import AlgoTrader.Paper.FinalFill
import AlgoTrader.Paper.LedgerSync
import AlgoTrader.Lib.Shares
import AlgoTrader.Reconciliation.Attribution
import AlgoTrader.Reconciliation.ExitsOnce
import AlgoTrader.Lib.RollingRefresh
import AlgoTrader.Reconciliation.Sweeps
import AlgoTrader.Reconciliation.SweepsKept
import AlgoTrader.Reconciliation.RefreshBound
import AlgoTrader.Reconciliation.Stream
import AlgoTrader.Reconciliation.Convergence
import AlgoTrader.Broker.ExitEvidence
import AlgoTrader.Broker.SafetyFlattens
import AlgoTrader.Lib.Latest
import AlgoTrader.Performance.EvidencePools
import AlgoTrader.Automation.TimedExits
import AlgoTrader.Risk.Guardrails
import AlgoTrader.Risk.OpenRisk
import AlgoTrader.Risk.ProposalSizing
import AlgoTrader.Broker.DemoIdempotency
import AlgoTrader.Broker.EtoroLiveTestOrder
import AlgoTrader.Broker.TestOrderWatch
import AlgoTrader.Workflow.CadenceBudget
import AlgoTrader.Workflow.LockExclusion
import AlgoTrader.Automation.SchedulerWorker
import AlgoTrader.Automation.SchedulerOverlap
import AlgoTrader.Lib.OneHolder
import AlgoTrader.Workflow.ShadowRefresh
import AlgoTrader.Workflow.ShadowPass
import AlgoTrader.Workflow.OneOpenTrade
import AlgoTrader.Workflow.OneTradeRuns
import AlgoTrader.Lib.WriteBehind
import AlgoTrader.Storage.DecisionsAtOnce
import AlgoTrader.Workflow.PaperOnlyPass
import AlgoTrader.Workflow.PaperOnlyRoom
import AlgoTrader.Lib.Fallible
import AlgoTrader.Workflow.PaperOnlyExecute
import AlgoTrader.Workflow.PaperOnlySettled
import AlgoTrader.Experiments.ExtendedHours
import AlgoTrader.Experiments.OrderBookTruth
import AlgoTrader.Automation.MaxHoldBracket
import AlgoTrader.Learning.Jobs
import AlgoTrader.Learning.JobsRunOnce
import AlgoTrader.Learning.ChampionCache
import AlgoTrader.Broker.SpyRelease
import AlgoTrader.Backtesting.ReachableFills
import AlgoTrader.Ledger.ClosedOutcomes
import AlgoTrader.Lib.Earliest
import AlgoTrader.Paper.SeparateExits
import AlgoTrader.Automation.MaxHoldSessions
import AlgoTrader.Backtesting.EntryDelay
import AlgoTrader.Backtesting.Financing
import AlgoTrader.Broker.OpenExposure
import AlgoTrader.Experiments.OrderPlan
import AlgoTrader.Learning.DatasetSplit
import AlgoTrader.Lib.Rotation
import AlgoTrader.Lib.Tally
import AlgoTrader.Risk.Allocation
import AlgoTrader.Workflow.IntradayRotation
import AlgoTrader.Backtesting.EarlierBars
import AlgoTrader.Broker.EtoroRateLimit
import AlgoTrader.Lib.Windowed
import AlgoTrader.StrategyLab.Dsl
import AlgoTrader.Workflow.OpenShadowSlots
import AlgoTrader.Workflow.OpenShadowTick
import AlgoTrader.Broker.AlertsOnce
import AlgoTrader.Data.Engine
import AlgoTrader.Data.Provenance
import AlgoTrader.Lib.Drawdown
import AlgoTrader.Performance.Stage3
import AlgoTrader.Performance.GoLiveReadiness
import AlgoTrader.Performance.ReadinessRuns
import AlgoTrader.Lib.Cursor
import AlgoTrader.Lib.GuardedCache
import AlgoTrader.Notifications.TelegramPolling
import AlgoTrader.StrategyLab.Promotion
import AlgoTrader.StrategyLab.PromotionRuns
import AlgoTrader.Workflow.SwingFocus
