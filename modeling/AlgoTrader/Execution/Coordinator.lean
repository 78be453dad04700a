import AlgoTrader.Broker.Crypto
import AlgoTrader.Broker.EtoroLiveMirror
import AlgoTrader.Lib.Rounding
import AlgoTrader.Models.Trade
import AlgoTrader.Risk.VolatilityTarget

/-! What the execution coordinator sends for a claimed queue item
(``app/execution/coordinator.py``) and the trader service it hands some orders to
(``app/execution/trader.py``). The rows it stores are modelled with the queue. -/

namespace AlgoTrader.Execution

open Models Broker Risk

structure Settings where
  executionMode : String := "paper"
  paperBroker : String := "alpaca"
  enableRealTrading : Bool := false
  alpacaRequireBracketOrders : Bool := true
  executionMinRewardToRiskAtQuote : ℚ := 0
  paperSimulatedFallbackEnabled : Bool := false
  maxTradeAmountUsd : ℚ := 1000
  drawdownGovernorEnabled : Bool := false
  drawdownGovernorSoftPct : ℚ := 2
  drawdownGovernorHardPct : ℚ := 5
  drawdownGovernorFloor : ℚ := 1 / 4

structure RiskContext where
  dailyRealizedPnlUsd : ℚ
  accountBalance : ℚ

-- The calls that carry an order out of the coordinator.
inductive BrokerCall
  | submitCryptoProtectedOrder (symbol : String) (qty : ℚ)
  | submitBracketOrder (symbol : String) (side : OrderSide) (qty : ℤ)
  | submitOrder (symbol : String) (side : OrderSide) (qty : ℚ)
  | openMarketOrderByAmount (order : TradeOrder)
  | closePosition (symbol : String)
  | openPaperPosition (order : TradeOrder)
  deriving DecidableEq

-- The methods a client has, and its answer to a call.
structure BrokerClient where
  key : String
  submitsOrders : Bool := false
  submitsBracketOrders : Bool := false
  submitsCryptoProtectedOrders : Bool := false
  opensByAmount : Bool := false
  answer : BrokerCall → Except String Unit

-- ``riskReasons`` are the reasons of the trader's own risk check.
structure TraderService where
  broker : BrokerClient
  riskReasons : TradeOrder → List String

-- The calls made, and how the attempt ended.
structure Attempt where
  calls : List BrokerCall
  result : Except String Unit

def Attempt.raise (message : String) : Attempt := ⟨[], .error message⟩

def BrokerClient.send (broker : BrokerClient) (call : BrokerCall) : Attempt :=
  ⟨[call], broker.answer call⟩

/-- The trader loads the proposal again; ``status`` is the status it then has. -/
def TraderService.executeProposal (trader : TraderService) (stored : TradeProposal)
    (status : ApprovalStatus) : Attempt :=
  if status ≠ .approved then .raise "Proposal must be approved before execution"
  else if trader.riskReasons stored.order ≠ [] then
    .raise ("; ".intercalate (trader.riskReasons stored.order))
  else if stored.order.side = .sell then trader.broker.send (.closePosition stored.order.symbol)
  else trader.broker.send (.openMarketOrderByAmount stored.order)

-- The live eToro mirror at the call: its settings and records, and what the copy meets. Of the request,
-- the order and what is to be said of the primary broker come from the coordinator.
structure LiveMirror where
  settings : Etoro.Settings
  store : Etoro.Store
  copy : Etoro.CopyInput
  times : Etoro.CopyTimes

-- What ``_process_queue_item`` works with once its row is claimed: the stored proposal and the
-- status a second load finds, the broker the router chose or its refusal, the quote, the reasons
-- of the checks before and of the risk check, and the gates of later calls. ``orderKnown`` tells
-- that the broker's order id has an execution already, ``primaryFailed`` that the order it answered
-- is failed or blocked.
structure QueueInput where
  settings : Settings
  trader : TraderService
  proposal : TradeProposal
  statusAtReload : ApprovalStatus
  broker : Except String (BrokerClient × String)
  quote : MarketQuote
  validationReasons : List String
  riskContext : RiskContext
  riskReasons : List String
  roomAuthority : String := "paper"
  alreadyExecuted : Bool := false
  orderKnown : Bool := false
  primaryFailed : Bool := false
  liveMirror : Option LiveMirror := none
  parallelMirrorAccepts : Bool := false

inductive QueueOutcome
  | unchanged
  | executed
  | blocked (reason : String)
  | raised (message : String)
  deriving DecidableEq

structure Processed where
  outcome : QueueOutcome
  calls : List BrokerCall := []

section Order

variable (settings : Settings)

def governorMultiplier (context : RiskContext) : ℚ :=
  drawdownGovernorMultiplier
    (dailyDrawdownPct context.dailyRealizedPnlUsd context.accountBalance)
    settings.drawdownGovernorSoftPct settings.drawdownGovernorHardPct
    settings.drawdownGovernorFloor

def applyDrawdownGovernor (context : RiskContext) (order : TradeOrder) : TradeOrder :=
  if settings.drawdownGovernorEnabled = false then order
  else if 1 ≤ governorMultiplier settings context then order
  else
    { order with
      amountUsd := Rounding.toDigits 2 (order.amountUsd * governorMultiplier settings context) }

def canBypassEntryDriftForSmoke (order : TradeOrder) : Bool :=
  settings.executionMode.toLower = "paper" ∧ settings.enableRealTrading = false ∧
    order.strategyName.toLower = "manual_smoke"

def alpacaBracketReasons (order : TradeOrder) (quotePrice minRewardToRisk : ℚ) : List String :=
  let reasons :=
    (if order.side ≠ .buy then ["long_entries_only"] else []) ++
    (if order.stopLoss.isNone then ["stop_loss_missing"] else []) ++
    (if order.takeProfit.isNone then ["take_profit_missing"] else []) ++
    (if order.stopLoss.any (quotePrice ≤ ·) then ["stop_loss_not_below_entry"] else []) ++
    (if order.takeProfit.any (· ≤ quotePrice) then ["take_profit_not_above_entry"] else [])
  if reasons = [] ∧ 0 < minRewardToRisk then
    match order.stopLoss, order.takeProfit with
    | some stop, some target =>
      if (target - quotePrice) / (quotePrice - stop) < minRewardToRisk then
        ["reward_to_risk_below_min_at_quote"]
      else []
    | _, _ => reasons
  else reasons

def bracketReasons (order : TradeOrder) (brokerName : String) (quotePrice : ℚ) : List String :=
  if brokerName = "alpaca" ∧ settings.alpacaRequireBracketOrders = true then
    alpacaBracketReasons order quotePrice
      (if canBypassEntryDriftForSmoke settings order then 0
        else settings.executionMinRewardToRiskAtQuote)
  else []

def sizingPrice (quotePrice : ℚ) : ℚ := max quotePrice (1 / 100)

-- Python's ``int()`` on a float.
def truncate (x : ℚ) : ℤ := if 0 ≤ x then ⌊x⌋ else ⌈x⌉

def isCryptoOrder (order : TradeOrder) : Bool :=
  order.assetClass = .crypto || isCryptoSymbol order.symbol

def wholeShares (order : TradeOrder) (brokerName : String) : Bool :=
  brokerName = "alpaca" ∧ isCryptoOrder order = false

def orderQuantity (order : TradeOrder) (brokerName : String) (quotePrice : ℚ) : ℚ :=
  let shares := min order.amountUsd settings.maxTradeAmountUsd / sizingPrice quotePrice
  if wholeShares order brokerName then ⌊shares⌋ else shares

/-- The call that is to carry an order in shares, or why none is made. -/
def shareCall (order : TradeOrder) (broker : BrokerClient) (brokerName : String)
    (quotePrice : ℚ) : Except String BrokerCall :=
  let qty := orderQuantity settings order brokerName quotePrice
  if wholeShares order brokerName ∧ qty < 1 then .error "one_share_exceeds_max_trade_amount"
  else if isCryptoOrder order = true ∧ brokerName = "alpaca" ∧
      broker.submitsCryptoProtectedOrders = true then
    if qty ≤ 0 then .error "crypto_notional_below_min_order"
    else if order.stopLoss.isNone then
      .error "float() argument must be a string or a real number, not 'NoneType'"
    else .ok (.submitCryptoProtectedOrder order.symbol qty)
  else if brokerName = "alpaca" ∧ settings.alpacaRequireBracketOrders = true ∧
      broker.submitsBracketOrders = true then
    .ok (.submitBracketOrder order.symbol order.side (truncate qty))
  else .ok (.submitOrder order.symbol order.side qty)

def submitShares (order : TradeOrder) (broker : BrokerClient) (brokerName : String)
    (quotePrice : ℚ) : Attempt :=
  match shareCall settings order broker brokerName quotePrice with
  | .error message => .raise message
  | .ok call => broker.send call

end Order

section Process

variable (input : QueueInput)

def LiveMirror.asked (mirror : LiveMirror) (executionMode : String) (order : TradeOrder) (brokerName : String) :
    Etoro.CopyInput :=
  { mirror.copy with
    request :=
      { mirror.copy.request with
        order := order
        gateReasons := mirror.copy.request.gateReasons ++
          Etoro.reasonIf (brokerName ≠ "alpaca" ∨ executionMode ≠ "paper") "mirror_requires_alpaca_paper_primary" } }

/-- The order of the copy; its amount is the mirror's own. -/
def LiveMirror.calls (mirror : LiveMirror) (executionMode : String) (order : TradeOrder) (brokerName : String) :
    List BrokerCall :=
  match Etoro.prepareCopy mirror.settings mirror.store (mirror.asked executionMode order brokerName) mirror.times with
  | none => []
  | some prepared =>
    [.openMarketOrderByAmount { order with amountUsd := prepared.amount, leverage := prepared.leverage }]

def liveCalls (order : TradeOrder) (brokerName : String) : List BrokerCall :=
  match input.liveMirror with
  | none => []
  | some mirror => if input.primaryFailed then [] else mirror.calls input.settings.executionMode order brokerName

def mirrorParallel (order : TradeOrder) (brokerName : String) (attempt : Attempt) : Attempt :=
  match attempt.result with
  | .error _ => attempt
  | .ok () =>
    { attempt with
      calls := attempt.calls ++ liveCalls input order brokerName ++
        if input.parallelMirrorAccepts then [.openMarketOrderByAmount order] else [] }

def executeWithBroker (order : TradeOrder) (broker : BrokerClient) (brokerName : String)
    (quotePrice : ℚ) : Attempt :=
  if brokerName = "etoro" ∧ broker.key = input.trader.broker.key then
    input.trader.executeProposal input.proposal input.statusAtReload
  else if broker.submitsOrders then
    let attempt := submitShares input.settings order broker brokerName quotePrice
    if input.orderKnown then attempt else mirrorParallel input order brokerName attempt
  else if broker.opensByAmount then
    mirrorParallel input order brokerName (broker.send (.openMarketOrderByAmount order))
  else
    .raise ("Selected broker '" ++ brokerName ++
      "' does not expose a supported order submission method")

def settleAttempt (order : TradeOrder) (attempt : Attempt) : Processed :=
  match attempt.result with
  | .ok () => ⟨.executed, attempt.calls⟩
  | .error _ =>
    if input.settings.executionMode = "paper" ∧
        input.settings.paperSimulatedFallbackEnabled = true ∧ input.roomAuthority = "paper" then
      ⟨.executed, attempt.calls ++ [.openPaperPosition order]⟩
    else ⟨.blocked "broker_submission_failed", attempt.calls⟩

def sendOrder (order : TradeOrder) (broker : BrokerClient) (brokerName : String)
    (quotePrice : ℚ) : Processed :=
  if input.settings.executionMode = "paper" ∧ input.settings.paperBroker = "self_simulated" then
    ⟨.executed, [.openPaperPosition order]⟩
  else if input.settings.executionMode = "paper" ∨ input.settings.executionMode = "live" then
    if input.alreadyExecuted then ⟨.unchanged, []⟩
    else settleAttempt input order (executeWithBroker input order broker brokerName quotePrice)
  else ⟨.raised ("Unsupported execution mode: " ++ input.settings.executionMode), []⟩

def quotePrice : ℚ := input.quote.price input.proposal.order.proposedPrice

def governedOrder : TradeOrder :=
  applyDrawdownGovernor input.settings input.riskContext input.proposal.order

def processQueueItem : Processed :=
  if input.proposal.status ≠ .approved then
    ⟨.blocked ("proposal_status_" ++ input.proposal.status.value), []⟩
  else
    match input.broker with
    | .error message => ⟨.blocked message, []⟩
    | .ok (broker, brokerName) =>
      if input.validationReasons ≠ [] then
        ⟨.blocked (",".intercalate input.validationReasons), []⟩
      else if input.riskReasons ≠ [] then
        ⟨.blocked ("risk_failed:" ++ ",".intercalate input.riskReasons), []⟩
      else
        let order := governedOrder input
        let reasons := bracketReasons input.settings order brokerName (quotePrice input)
        if reasons ≠ [] then ⟨.blocked ("bracket_failed:" ++ ",".intercalate reasons), []⟩
        else sendOrder input order broker brokerName (quotePrice input)

end Process

end AlgoTrader.Execution
