import AlgoTrader.Backtesting.Frame
import AlgoTrader.Broker.Crypto
import AlgoTrader.Lib.Remembered
import Mathlib.Logic.Function.Basic

/-! The alert on adverse moves of the eToro LIVE positions outside US hours
(``app/broker/etoro_live_overnight_alert.py``). -/

namespace AlgoTrader.Broker.OvernightAlert

open Utils.Time (Timestamp NewYorkClock microsPerDay microsPerMinute weekday utcDate)
open Backtesting (Bar Frame)

def microsPerSecond : ℤ := 1000000

def alertDropPct : ℚ := 3
def alertStopAtrMult : ℚ := 1
def atrPeriod : ℕ := 14
def maxRateAge : ℤ := 300 * microsPerSecond
def signalRead : ℤ := 300 * microsPerSecond
def maxSendAttempts : ℕ := 3
def signalSeenDays : ℤ := 7
def maxBarReadsPerTick : ℕ := 3
def barRetry : ℤ := 900 * microsPerSecond
def maxQuoteReadsPerDay : ℕ := 10
def eps : ℚ := 1 / 1000000000

def regularOpen : ℕ := 570
def regularClose : ℕ := 960

inductive Kind
  | gapDown
  | nearStop
  | signalStop
  deriving DecidableEq, Repr

/-- The clock with the instant of each date's close. A local day has at most 25 hours. -/
structure SessionClock extends NewYorkClock where
  closes : ℤ → Timestamp
  closes_succ (day : ℤ) : closes (day + 1) ≤ closes day + microsPerDay + 60 * microsPerMinute
  le_closes (t : Timestamp) : t ≤ closes (date t) + microsPerDay

def inAlertWindow (clock : SessionClock) (now : Timestamp) (crypto : Bool) : Bool :=
  if 5 ≤ weekday (clock.date now) then crypto
  else !(regularOpen ≤ clock.minuteOfDay now && clock.minuteOfDay now < regularClose)

def backToWeekday (day : ℤ) : ℤ :=
  if weekday day < 5 then day else if weekday (day - 1) < 5 then day - 1 else day - 2

def lastSessionDate (clock : SessionClock) (now : Timestamp) : ℤ :=
  if weekday (clock.date now) < 5 ∧ regularClose ≤ clock.minuteOfDay now then clock.date now
  else backToWeekday (clock.date now - 1)

/-- The date in Dubai, four hours ahead of UTC. -/
def alertDay (now : Timestamp) : ℤ := utcDate (now + 4 * 60 * microsPerMinute)

def signalWindowStart (clock : SessionClock) (now : Timestamp) : Timestamp := clock.closes (lastSessionDate clock now)

def seenCutoff (now : Timestamp) : Timestamp := now - signalSeenDays * microsPerDay

structure Reference where
  prevClose : ℚ
  atr : Option ℚ
  barDate : ℤ
  deriving DecidableEq, Repr

def trueRange (previous bar : Bar) : ℚ :=
  max (bar.high - bar.low) (max |bar.high - previous.close| |bar.low - previous.close|)

/-- Zero where there are too few bars. -/
def atrFromCandles (candles : Frame) (period : ℕ) : ℚ :=
  if candles.length < period + 1 then 0
  else
    let ranges := List.zipWith trueRange candles (candles.drop 1)
    max 0 ((ranges.drop (ranges.length - period)).sum / period)

def referenceFromBars (clock : SessionClock) (frame : Frame) (crypto : Bool) (now : Timestamp) : Option Reference :=
  let done := (frame.filter fun bar =>
    if crypto then bar.timestamp ≤ now - microsPerDay
    else clock.date bar.timestamp ≤ lastSessionDate clock now).insertionSort (·.timestamp ≤ ·.timestamp)
  match done.getLast? with
  | none => none
  | some last =>
    if 0 < last.close then
      let atr := atrFromCandles done atrPeriod
      some { prevClose := last.close, atr := if 0 < atr then some atr else none, barDate := clock.date last.timestamp }
    else none

def base (symbol : String) : String :=
  match split symbol with
  | some (bare, _) => bare
  | none => (Text.strip symbol).toUpper

def isCrypto (symbol : String) : Bool := decide (symbol ∈ knownCryptoBases) || isCryptoSymbol symbol

/-- What a scorecard entry or the test order says of a position. A number that is not positive is unknown. -/
structure Holding where
  symbol : String
  isOpen : Bool
  openRate : Option ℚ
  otherRate : Option ℚ
  stop : Option ℚ
  brokerStop : Option ℚ
  instrumentId : Option ℕ
  deriving DecidableEq, Repr

structure RateMark where
  rate : ℚ
  seenAt : Timestamp
  deriving DecidableEq, Repr

structure Position where
  symbol : String
  crypto : Bool
  entry : Option ℚ
  stop : Option ℚ
  brokerStop : Option ℚ
  instrumentId : Option ℕ
  rate : Option ℚ
  deriving DecidableEq, Repr

def freshRate (mark : Option RateMark) (now : Timestamp) : Option ℚ :=
  (mark.filter fun mark => decide (now - mark.seenAt ≤ maxRateAge)).map RateMark.rate

def Holding.position (holding : Holding) (stop : Option ℚ) (rate : Option ℚ) : Position where
  symbol := base holding.symbol
  crypto := isCrypto (base holding.symbol)
  entry := holding.openRate.orElse fun _ => holding.otherRate
  stop := stop
  brokerStop := holding.brokerStop
  instrumentId := holding.instrumentId
  rate := rate

/-- What is loaded of the stored state. The mark of the test order is its own. -/
structure Loaded where
  cards : List Holding
  marks : String → Option RateMark
  test : Option (Holding × Option RateMark)

def counts (clock : SessionClock) (now : Timestamp) (known : List String) (holding : Holding) : Bool :=
  holding.isOpen && base holding.symbol ≠ "" && base holding.symbol ∉ known &&
    inAlertWindow clock now (isCrypto (base holding.symbol))

def addCard (clock : SessionClock) (now : Timestamp) (loaded : Loaded) (out : List Position) (card : Holding) :
    List Position :=
  if counts clock now (out.map Position.symbol) card then
    out ++ [card.position (card.stop.orElse fun _ => card.brokerStop)
      (freshRate (loaded.marks (base card.symbol)) now)]
  else out

def positions (clock : SessionClock) (now : Timestamp) (loaded : Loaded) : List Position :=
  let live := loaded.cards.foldl (addCard clock now loaded) []
  match loaded.test with
  | none => live
  | some (test, mark) =>
    if counts clock now (live.map Position.symbol) test then live ++ [test.position test.stop (freshRate mark now)]
    else live

structure Hit where
  symbol : String
  closedAt : Timestamp
  role : String
  strategy : String
  timeframe : String
  stop : Option ℚ
  price : Option ℚ
  bid : Option ℚ
  ask : Option ℚ
  deriving DecidableEq, Repr

abbrev Key := ℤ × String × Kind

structure BarRead where
  readAt : Timestamp
  reference : Option Reference

structure Memo where
  done : List Key
  seen : String → Option Timestamp
  refs : String → ℤ → Option BarRead
  signals : Option (List Hit)
  signalsReadAt : Option Timestamp
  quoteReads : Option (ℤ × ℕ)
  barReads : ℕ

def Memo.fresh : Memo := ⟨[], fun _ => none, fun _ _ => none, none, none, none, 0⟩

/-- ``etoro_live:overnight_alerts``. -/
structure Stored where
  dubaiDate : Option ℤ
  sent : String → Kind → Bool
  failed : String → Kind → ℕ
  signalSeen : String → Option Timestamp

def Stored.empty : Stored := ⟨none, fun _ _ => false, fun _ _ => 0, fun _ => none⟩

structure Alert where
  day : ℤ
  symbol : String
  kinds : List Kind
  hits : List Hit
  sent : Bool
  deriving DecidableEq

inductive Rates
  | read
  | rateLimited
  | failed
  deriving DecidableEq, Repr

structure State where
  memo : Memo
  stored : Stored
  alerts : List Alert
  quoteReads : List (ℤ × Rates)

def State.start : State := ⟨.fresh, .empty, [], []⟩

structure Tick where
  now : Timestamp
  active : Bool := true
  loaded : Option Loaded
  stopHits : Option (Option (List Hit)) := none
  bars : Option (String → Option Frame) := none
  readFails : Bool := false
  cooldown : Bool := false
  rates : Rates := .read
  sends : String → Bool
  saveFails : Bool := false

section Checks

variable (clock : SessionClock) (t : Tick)

def session (position : Position) : ℤ := if position.crypto then utcDate t.now else lastSessionDate clock t.now

def readReference (memo : Memo) (position : Position) : Option Reference × Memo :=
  match t.bars with
  | none => (none, memo)
  | some bars =>
    if maxBarReadsPerTick ≤ memo.barReads then (none, memo)
    else
      let symbol := if position.crypto then position.symbol ++ "/USD" else position.symbol
      let reference := (bars symbol).bind fun frame => referenceFromBars clock frame position.crypto t.now
      let kept := fun symbol session => (memo.refs symbol session).filter fun read => t.now - 4 * microsPerDay ≤ read.readAt
      (reference, { memo with
        barReads := memo.barReads + 1
        refs := Function.update kept position.symbol
          (Function.update (kept position.symbol) (session clock t position) (some ⟨t.now, reference⟩)) })

def reference (memo : Memo) (position : Position) : Option Reference × Memo :=
  match memo.refs position.symbol (session clock t position) with
  | some read =>
    if read.reference.isSome ∨ t.now - read.readAt < barRetry then (read.reference, memo)
    else readReference clock t memo position
  | none => readReference clock t memo position

def refreshSignalStops (memo : Memo) : Memo :=
  match t.stopHits with
  | none => memo
  | some answer =>
    if memo.signalsReadAt.any fun readAt => decide (t.now - readAt < signalRead) then memo
    else { memo with signalsReadAt := some t.now, signals := answer }

def newerThan (seen : Option Timestamp) (hit : Hit) : Bool := seen.all fun seen => decide (seen < hit.closedAt)

def signalStops (memo : Memo) (symbol : String) : List Hit :=
  (memo.signals.getD []).filter fun hit =>
    hit.symbol = symbol && hit.role ≠ "entry_short" && signalWindowStart clock t.now ≤ hit.closedAt &&
      newerThan (memo.seen symbol) hit

def gapDown (rate : ℚ) (ref : Reference) : Bool := alertDropPct - eps ≤ (1 - rate / ref.prevClose) * 100

def nearStop (rate : ℚ) (stop : Option ℚ) (ref : Reference) : Bool :=
  match ref.atr, stop with
  | some atr, some stop => rate - stop ≤ alertStopAtrMult * atr + eps
  | _, _ => false

structure Found where
  position : Position
  reference : Option Reference
  kinds : List Kind
  hits : List Hit

def Found.named (found : Found) : List Hit := if .signalStop ∈ found.kinds then found.hits else []

def moveKinds (position : Position) (ref : Option Reference) : List Kind :=
  match position.rate, ref with
  | some rate, some ref =>
    (if gapDown rate ref then [.gapDown] else []) ++ if nearStop rate position.stop ref then [.nearStop] else []
  | _, _ => []

def kinds (memo : Memo) (position : Position) : Found × Memo :=
  let read := if position.rate.isSome then reference clock t memo position else (none, memo)
  let hits := signalStops clock t memo position.symbol
  ({ position := position, reference := read.1, hits := hits
     kinds := moveKinds position read.1 ++ if hits = [] then [] else [.signalStop] }, read.2)

def notDone (day : ℤ) (done : List Key) (found : Found) : Found :=
  { found with kinds := found.kinds.filter fun kind => (day, found.position.symbol, kind) ∉ done }

def candidates (day : ℤ) : Memo → List Position → List Found × Memo
  | memo, [] => ([], memo)
  | memo, position :: rest =>
    let checked := kinds clock t memo position
    let found := notDone day checked.2.done checked.1
    let later := candidates day checked.2 rest
    (if found.kinds = [] then later.1 else found :: later.1, later.2)

end Checks

section Alerting

variable (t : Tick) (day : ℤ)

def newest (a b : Option Timestamp) : Option Timestamp :=
  match a, b with
  | some a, some b => some (max a b)
  | some a, none => some a
  | none, b => b

def newestHit (hits : List Hit) : Option Timestamp := hits.foldr (fun hit => newest (some hit.closedAt)) none

def mergeSeen (memo : Memo) (stored : Stored) : String → Option Timestamp :=
  fun symbol => (newest (memo.seen symbol) (stored.signalSeen symbol)).filter fun seen => seenCutoff t.now ≤ seen

def dayData (stored : Stored) (seen : String → Option Timestamp) : Stored :=
  if stored.dubaiDate = some day then { stored with signalSeen := seen }
  else { Stored.empty with dubaiDate := some day, signalSeen := seen }

/-- No more today: sent by another process, or given up. -/
def spent (data : Stored) (symbol : String) (kind : Kind) : Bool :=
  data.sent symbol kind || maxSendAttempts ≤ data.failed symbol kind

def dropHits (seen : String → Option Timestamp) (found : Found) : Found :=
  let hits := found.hits.filter (newerThan (seen found.position.symbol))
  if .signalStop ∈ found.kinds then
    { found with hits := hits, kinds := found.kinds.filter fun kind => kind ≠ .signalStop || hits ≠ [] }
  else found

def spentKeys (data : Stored) (found : Found) : List Key :=
  (found.kinds.filter (spent data found.position.symbol)).map fun kind => (day, found.position.symbol, kind)

def unspent (data : Stored) (found : Found) : Found :=
  { found with kinds := found.kinds.filter fun kind => !spent data found.position.symbol kind }

def due (data : Stored) (seen : String → Option Timestamp) (found : List Found) : List Found :=
  ((found.map (dropHits seen)).map (unspent data)).filter fun found => found.kinds ≠ []

def readsOn (memo : Memo) : ℕ :=
  match memo.quoteReads with
  | some (read, n) => if read = day then n else 0
  | none => 0

def readsQuotes (memo : Memo) (due : List Found) : Bool :=
  due.any (fun found => found.position.instrumentId.any (· ≠ 0)) && !t.cooldown && readsOn day memo < maxQuoteReadsPerDay

def quotes (memo : Memo) (due : List Found) : Memo :=
  if readsQuotes t day memo due then
    { memo with
      quoteReads := some (day, if t.rates = .rateLimited then maxQuoteReadsPerDay else readsOn day memo + 1) }
  else memo

structure Sending where
  memo : Memo
  data : Stored
  alerts : List Alert

def Sending.succeed (w : Sending) (found : Found) : Sending :=
  let symbol := found.position.symbol
  let seen := if .signalStop ∈ found.kinds then
      Function.update w.memo.seen symbol (newestHit found.hits)
    else w.memo.seen
  { memo := { w.memo with
      done := w.memo.done ++ found.kinds.map fun kind => (day, symbol, kind)
      seen := seen }
    data := { w.data with
      sent := Function.update w.data.sent symbol fun kind => w.data.sent symbol kind || kind ∈ found.kinds
      signalSeen := seen }
    alerts := w.alerts ++ [⟨day, symbol, found.kinds, found.named, true⟩] }

def Sending.fail (w : Sending) (found : Found) : Sending :=
  let symbol := found.position.symbol
  { w with
    data := { w.data with
      failed := Function.update w.data.failed symbol fun kind =>
        w.data.failed symbol kind + if kind ∈ found.kinds then 1 else 0 }
    alerts := w.alerts ++ [⟨day, symbol, found.kinds, found.named, false⟩] }

def sendOne (w : Sending) (found : Found) : Sending :=
  if t.sends found.position.symbol then w.succeed day found else w.fail day found

def alert (s : State) (memo : Memo) (found : List Found) : State :=
  if t.readFails then { s with memo := memo }
  else
    let seen := mergeSeen t memo s.stored
    let data := dayData day s.stored seen
    let memo := { memo with
      seen := seen
      done := memo.done ++ (found.map (dropHits seen)).flatMap (spentKeys day data) }
    let due := due data seen found
    if due = [] then { s with memo := memo }
    else
      let sending := due.foldl (sendOne t day) ⟨quotes t day memo due, data, s.alerts⟩
      { memo := sending.memo
        stored := if t.saveFails then s.stored else sending.data
        alerts := sending.alerts
        quoteReads := if readsQuotes t day memo due then s.quoteReads ++ [(day, t.rates)] else s.quoteReads }

end Alerting

section Run

variable (clock : SessionClock)

def regularHours (now : Timestamp) : Bool :=
  weekday (clock.date now) < 5 && regularOpen ≤ clock.minuteOfDay now && clock.minuteOfDay now < regularClose

def check (s : State) (t : Tick) : State :=
  if !t.active || regularHours clock t.now then s
  else
    match t.loaded.map (positions clock t.now) with
    | none | some [] => s
    | some positions =>
      let day := alertDay t.now
      let memo := refreshSignalStops t { s.memo with done := s.memo.done.filter (·.1 = day), barReads := 0 }
      let checked := candidates clock t day memo positions
      if checked.1 = [] then { s with memo := checked.2 } else alert t day s checked.2 checked.1

def forget (s : State) : State := { s with memo := .fresh }

def run (actions : List (Remembered.Action Tick)) : State := Remembered.run (check clock) forget State.start actions

end Run

end AlgoTrader.Broker.OvernightAlert
