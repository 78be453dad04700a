import AlgoTrader.Backtesting.Frame
import AlgoTrader.Lib.Keyed
import AlgoTrader.Lib.Rounding
import AlgoTrader.Lib.Text

/-! The market data engine with its file cache and provider fallback (``app/data/engine.py``). -/

namespace AlgoTrader.Data.Engine

open Utils.Time (Timestamp)
open Backtesting (Bar Frame)
open Text

inductive Timeframe
  | m1
  | m5
  | m10
  | m15
  | h1
  | d1
  | w1
  deriving DecidableEq, Repr

/-- ``TIMEFRAME_CONFIG``'s ``cache_ttl``, in seconds. -/
def Timeframe.cacheTtl : Timeframe → ℚ
  | .m1 => 60
  | .m5 => 120
  | .m10 => 180
  | .m15 => 300
  | .h1 => 900
  | .d1 => 3600
  | .w1 => 21600

def timeframeNames : List (String × Timeframe) :=
  [("1m", .m1), ("5m", .m5), ("10m", .m10), ("15m", .m15), ("1h", .h1), ("1d", .d1), ("1w", .w1), ("oneday", .d1),
    ("1day", .d1), ("day", .d1), ("week", .w1), ("weekly", .w1), ("1week", .w1), ("1wk", .w1), ("60m", .h1),
    ("60min", .h1), ("hour", .h1), ("5min", .m5), ("10min", .m10), ("10minute", .m10), ("10minutes", .m10),
    ("15min", .m15), ("1min", .m1)]

def normalizeTimeframe (timeframe : String) : Option Timeframe :=
  (timeframeNames.find? fun entry => entry.1 = (strip timeframe).toLower).map Prod.snd

structure Settings where
  primaryMarketDataProvider : String
  fallbackMarketDataProvider : String
  etoroClient : Bool
  alpacaKeys : Bool
  marketDataCacheTtlSeconds : ℚ
  requireVerifiedMarketDataForAlerts : Bool
  maxMarketDataAgeSeconds : ℚ
  marketDataRetryAttempts : ℤ

def orElse (text other : String) : String := if text = "" then other else text

def normalized (text : String) : String := (strip text).toLower

section Providers

variable (settings : Settings)

def requestedProvider (provider : Option String) : String :=
  normalized (orElse (orElse (provider.getD "") settings.primaryMarketDataProvider) "auto")

def fallbackOr : String :=
  let fallback := normalized (orElse settings.fallbackMarketDataProvider "yfinance")
  if fallback = "" ∨ fallback = "none" then "yfinance" else fallback

def resolveProvider (provider : Option String) : String :=
  if requestedProvider settings provider = "auto" then
    if settings.etoroClient then "etoro"
    else if settings.alpacaKeys then "alpaca"
    else fallbackOr settings
  else requestedProvider settings provider

def resolveQuoteProvider (provider : Option String) : String :=
  let requested := requestedProvider settings provider
  if requested = "alpaca" then "alpaca"
  else if (requested = "auto" ∨ requested = "etoro") ∧ settings.etoroClient then "etoro"
  else fallbackOr settings

def providerOrder (primary : String) : List String :=
  let fallback := normalized settings.fallbackMarketDataProvider
  let providers := if fallback ≠ "" ∧ fallback ≠ "none" ∧ fallback ≠ primary then [primary, fallback] else [primary]
  if primary = "alpaca" ∧ "yfinance" ∉ providers then providers ++ ["yfinance"] else providers

def retryAttempts : ℕ := (max 1 settings.marketDataRetryAttempts).toNat

def cacheTtl (timeframe : Timeframe) : ℚ :=
  let ttl := min settings.marketDataCacheTtlSeconds timeframe.cacheTtl
  if settings.requireVerifiedMarketDataForAlerts then min ttl settings.maxMarketDataAgeSeconds else ttl

end Providers

structure Path where
  provider : String
  timeframe : Timeframe
  symbol : String
  deriving DecidableEq, Repr

def safeSymbol (symbol : String) : String := symbol.map fun c => if c = '/' ∨ c = ':' then '_' else c

def cachePath (symbol : String) (timeframe : Timeframe) (provider : String) : Path :=
  ⟨provider, timeframe, safeSymbol symbol⟩

structure File where
  frame : Frame
  writtenAt : ℚ
  deriving DecidableEq

structure Attrs where
  provider : String
  requestedProvider : String
  usedFallback : Bool
  fromCache : Bool
  dataAgeSeconds : ℚ
  deriving DecidableEq, Repr

structure Served where
  frame : Frame
  attrs : Attrs
  deriving DecidableEq

inductive Fetch
  | frame (frame : Frame)
  | rateLimited
  | failed
  deriving DecidableEq

inductive Answer
  | served (served : Served)
  | rateLimited
  | failed
  | unsupportedTimeframe
  deriving DecidableEq

/-- A call of ``get_history``: the time it looks at the cache, the time it writes to it, and how its
reads, fetches and writes end. ``fetches`` is by provider and attempt; Alpaca's answer may come from the parquet
file of another call in the same second. -/
structure Request where
  symbol : String
  timeframe : String
  bars : ℕ
  provider : Option String := none
  forceRefresh : Bool := false
  writeCache : Bool := true
  backtest : Bool := false
  now : ℚ
  fetchedAt : ℚ
  fetches : String → ℕ → Fetch
  cacheUnreadable : Bool := false
  writeFails : Bool := false

def Request.name (request : Request) : String := strip request.symbol.toUpper

def Request.stores (request : Request) : Bool := request.writeCache && !request.backtest

def Request.refreshes (request : Request) : Bool := request.forceRefresh || request.backtest

def tail (frame : Frame) (bars : ℕ) : Frame := frame.drop (frame.length - bars)

abbrev Cache := Path → Option File

section History

variable (settings : Settings)

def age (now writtenAt : ℚ) : ℚ := max (now - writtenAt) 0

def cachedAttrs (provider : String) (age : ℚ) : Attrs := ⟨provider, provider, false, true, Rounding.toDigits 3 age⟩

def fetchedAttrs (used requested : String) : Attrs := ⟨used, requested, used ≠ requested, false, 0⟩

def loadCachedFrame (cache : Cache) (request : Request) (timeframe : Timeframe) (provider : String) : Option Served :=
  match cache (cachePath request.name timeframe provider) with
  | none => none
  | some file =>
    if cacheTtl settings timeframe < age request.now file.writtenAt ∨ request.cacheUnreadable = true ∨
        file.frame.length < min request.bars 20 then none
    else some ⟨file.frame, cachedAttrs provider (age request.now file.writtenAt)⟩

def attempts (fetch : ℕ → Fetch) : ℕ → ℕ → Fetch
  | _, 0 => .failed
  | attempt, left + 1 =>
    match fetch attempt with
    | .failed => attempts fetch (attempt + 1) left
    | answer => answer

def fetchInOrder (request : Request) : List String → Option (String × Frame) ⊕ Unit
  | [] => .inl none
  | provider :: rest =>
    match attempts (request.fetches provider) 0 (retryAttempts settings) with
    | .frame frame => .inl (some (provider, frame))
    | .rateLimited => .inr ()
    | .failed => fetchInOrder request rest

def storeFrame (cache : Cache) (request : Request) (timeframe : Timeframe) (provider : String)
    (frame : Frame) : Cache :=
  if request.stores ∧ request.writeFails = false then
    Function.update cache (cachePath request.name timeframe provider) (some ⟨frame, request.fetchedAt⟩)
  else cache

def getHistory (cache : Cache) (request : Request) : Answer × Cache :=
  match normalizeTimeframe request.timeframe with
  | none => (.unsupportedTimeframe, cache)
  | some timeframe =>
    let provider := resolveProvider settings request.provider
    match if request.refreshes then none else loadCachedFrame settings cache request timeframe provider with
    | some cached => (.served { cached with frame := tail cached.frame request.bars }, cache)
    | none =>
      match fetchInOrder settings request (providerOrder settings provider) with
      | .inr () => (.rateLimited, cache)
      | .inl none => (.failed, cache)
      | .inl (some (used, frame)) =>
        (.served ⟨tail frame request.bars, fetchedAttrs used provider⟩,
          storeFrame cache request timeframe used frame)

end History

structure MarketQuote where
  bid : ℚ
  ask : ℚ
  lastExecution : ℚ
  timestamp : Timestamp
  source : String
  isPrimary : Bool
  usedFallback : Bool
  fromCache : Bool
  quoteDerivedFromHistory : Bool
  dataAgeSeconds : ℚ
  deriving DecidableEq

inductive BrokerAnswer
  | quote (quote : MarketQuote)
  | missing
  | rateLimited
  | failed
  deriving DecidableEq

inductive QuoteAnswer
  | quote (quote : MarketQuote)
  | rateLimited
  | failed
  | unsupportedTimeframe
  deriving DecidableEq

structure QuoteRequest where
  request : Request
  etoro : ℕ → BrokerAnswer
  alpaca : ℕ → Option MarketQuote

def fromBroker (source : String) (age : ℚ) (quote : MarketQuote) : MarketQuote :=
  { quote with
    source := source, isPrimary := true, usedFallback := false, fromCache := false
    quoteDerivedFromHistory := false, dataAgeSeconds := age }

/-- The first attempt that answers; only eToro's rate limit ends the attempts. -/
def quoteAttempts (ask : ℕ → BrokerAnswer) : ℕ → ℕ → BrokerAnswer
  | _, 0 => .failed
  | attempt, left + 1 =>
    match ask attempt with
    | .quote quote => .quote quote
    | .rateLimited => .rateLimited
    | _ => quoteAttempts ask (attempt + 1) left

section Quotes

variable (settings : Settings)

def brokerQuote (q : QuoteRequest) : BrokerAnswer :=
  let provider := resolveQuoteProvider settings q.request.provider
  if provider = "etoro" ∧ settings.etoroClient then
    match quoteAttempts q.etoro 0 (retryAttempts settings) with
    | .quote quote => .quote (fromBroker "etoro" 0 quote)
    | other => other
  else if provider = "alpaca" then
    match (List.range (retryAttempts settings)).findSome? q.alpaca with
    | some quote => .quote (fromBroker "alpaca" quote.dataAgeSeconds quote)
    | none => .failed
  else .failed

def QuoteRequest.fallback (q : QuoteRequest) : Request :=
  { q.request with
    bars := 2
    backtest := false
    provider := if resolveProvider settings q.request.provider ≠ "etoro" then some "yfinance" else none }

def quoteOf (served : Served) : Option MarketQuote :=
  served.frame.getLast?.map fun last => {
    bid := last.close, ask := last.close, lastExecution := last.close, timestamp := last.timestamp
    source := served.attrs.provider
    isPrimary := !served.attrs.usedFallback
    usedFallback := served.attrs.usedFallback
    fromCache := served.attrs.fromCache
    quoteDerivedFromHistory := true
    dataAgeSeconds := served.attrs.dataAgeSeconds }

def quoteAnswer : Answer → QuoteAnswer
  | .served served => match quoteOf served with
    | some quote => .quote quote
    | none => .failed
  | .rateLimited => .rateLimited
  | .failed => .failed
  | .unsupportedTimeframe => .unsupportedTimeframe

def getQuote (cache : Cache) (q : QuoteRequest) : QuoteAnswer × Cache :=
  match normalizeTimeframe q.request.timeframe with
  | none => (.unsupportedTimeframe, cache)
  | some _ =>
    match brokerQuote settings q with
    | .quote quote => (.quote quote, cache)
    | .rateLimited => (.rateLimited, cache)
    | _ =>
      let history := getHistory settings cache (q.fallback settings)
      (quoteAnswer history.1, history.2)

end Quotes

inductive Event
  | history (request : Request)
  | quote (q : QuoteRequest)

structure State where
  cache : Cache
  calls : List (Request × Answer)
  quotes : List (QuoteRequest × QuoteAnswer)

def State.start : State := ⟨fun _ => none, [], []⟩

section Run

variable (settings : Settings)

def Event.call : Event → Option Request
  | .history request => some request
  | .quote q =>
    match normalizeTimeframe q.request.timeframe, brokerQuote settings q with
    | none, _ => none
    | some _, .quote _ => none
    | some _, .rateLimited => none
    | some _, _ => some (q.fallback settings)

def cacheStep (cache : Cache) (event : Event) : Cache :=
  match event.call settings with
  | some request => (getHistory settings cache request).2
  | none => cache

def callsOf (cache : Cache) (event : Event) : List (Request × Answer) :=
  match event.call settings with
  | some request => [(request, (getHistory settings cache request).1)]
  | none => []

def quotesOf (cache : Cache) : Event → List (QuoteRequest × QuoteAnswer)
  | .history _ => []
  | .quote q => [(q, (getQuote settings cache q).1)]

def step (s : State) (event : Event) : State where
  cache := cacheStep settings s.cache event
  calls := s.calls ++ callsOf settings s.cache event
  quotes := s.quotes ++ quotesOf settings s.cache event

def run (events : List Event) : State := Runs.run (step settings) State.start events

end Run

end AlgoTrader.Data.Engine
