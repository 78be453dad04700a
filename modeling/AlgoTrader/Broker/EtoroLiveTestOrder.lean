import AlgoTrader.Lib.Rounding
import AlgoTrader.Lib.Runs
import AlgoTrader.Lib.Text
import AlgoTrader.Utils.Time
import Mathlib.Data.List.Nodup

/-! The one-off live test order (``app/broker/etoro_live_test_order.py``) beside what the broker holds:
its positions, and the orders that may still fill. -/

namespace AlgoTrader.Broker.TestOrder

open AlgoTrader.Utils.Time

def hardMaxTestOrderUsd : ℚ := 1000
def maxTestPctOfEquity : ℚ := 10
def allowedTestSymbols : List String := ["ETH", "BTC"]
def stopAtrMult : ℚ := 3 / 2
def rewardToRisk : ℚ := 2
def minStopPct : ℚ := 1
def maxStopPct : ℚ := 10
def maxHold : ℤ := 7 * microsPerDay
def notFoundGrace : ℤ := 30 * microsPerMinute

inductive Status where
  | open
  | closed
  | failed
deriving DecidableEq

/-- The stored test. ``number`` is no field of it: it tells one test from the next. -/
structure Test where
  number : ℕ
  symbol : String := ""
  amountUsd : ℚ := 0
  status : Status
  reason : String := ""
  orderId : String := ""
  uncertain : Bool := false
  instrumentId : ℤ := 0
  stopLoss : ℚ := 0
  takeProfit : ℚ := 0
  openedAt : Timestamp := 0
  maxHoldUntil : Timestamp := 0
  positionId : Option ℤ := none
  unseenReads : ℕ := 0
deriving DecidableEq

/-- An operator request; an amount that is no number is ``none``. -/
structure Request where
  symbol : String
  amountUsd : Option ℚ
deriving DecidableEq

structure Instrument where
  instrumentId : ℤ
  isTradable : Bool := true
  isBuyEnabled : Bool := true
  currentRate : ℚ
deriving DecidableEq

/-- An open position. ``owner`` is the test whose order opened it, ``none`` where no test did. -/
structure Position where
  positionId : ℤ
  instrumentId : ℤ
  hasStop : Bool
  owner : Option ℕ
deriving DecidableEq

inductive PostReply where
  | accepted (orderId : String)
  | rejected
  | uncertain
  | crashed
deriving DecidableEq

inductive CloseReply where
  | accepted
  | failed
deriving DecidableEq

/-- What one tick meets: the gates, the market, and how the broker takes its requests. ``reaches``: the
order is at the broker after the post; ``closes``: the position is gone after the close request. -/
structure TickInput where
  now : Timestamp
  mirrorEnabled : Bool := true
  clientProblem : Option String := none
  acknowledged : Bool := true
  halted : Bool := false
  hasBars : Bool := true
  lastEquity : Option ℚ := none
  instrument : Option Instrument := none
  atr : Option ℚ := none
  orderModeAllowed : Bool := true
  post : PostReply := .accepted ""
  reaches : Bool := true
  readOk : Bool := true
  rate : Option ℚ := none
  close : CloseReply := .accepted
  closes : Bool := true
  recheckOk : Bool × Bool := (true, true)
deriving DecidableEq

def bracketFromAtr (rate atr : ℚ) : ℚ × ℚ :=
  let distance := min (max (stopAtrMult * atr) (rate * minStopPct / 100)) (rate * maxStopPct / 100)
  (Rounding.toDigits 2 (rate - distance), Rounding.toDigits 2 (rate + rewardToRisk * distance))

def blockers (i : TickInput) (symbol : String) : List String :=
  (if i.mirrorEnabled then [] else ["etoro_live_mirror_disabled"]) ++ i.clientProblem.toList ++
  (if i.acknowledged then [] else ["etoro_live_acknowledgement_missing"]) ++
  (if i.halted then ["etoro_live_mirror_halted"] else []) ++
  (if symbol ∈ allowedTestSymbols then [] else ["test_symbol_not_allowed:" ++ symbol]) ++
  (if i.hasBars then [] else ["no_bar_source_for_atr"])

def testAmount (i : TickInput) (amountUsd : ℚ) : ℚ :=
  let amount := min amountUsd hardMaxTestOrderUsd
  match i.lastEquity with
  | none => amount
  | some equity =>
      if equity = 0 then amount else min amount (Rounding.toDigits 2 (equity * maxTestPctOfEquity / 100))

def prepare (i : TickInput) (number : ℕ) (request : Request) : Except String Test :=
  let symbol := Text.strip request.symbol.toUpper
  match request.amountUsd with
  | none => .error "bad_amount_usd"
  | some asked =>
      let amount := testAmount i asked
      let reasons := blockers i symbol ++ if amount < 10 then ["test_amount_below_10_usd"] else []
      if reasons ≠ [] then .error (",".intercalate reasons)
      else
        match i.instrument, i.atr with
        | some instrument, some atr =>
            if ¬ (instrument.isTradable ∧ instrument.isBuyEnabled) then
              .error (symbol ++ "_not_tradable_on_etoro_now")
            else if instrument.currentRate ≤ 0 ∨ atr ≤ 0 then .error "no_price_or_atr"
            else if ¬ i.orderModeAllowed then .error "open_failed"
            else
              let bracket := bracketFromAtr instrument.currentRate atr
              .ok
                { number := number
                  symbol := symbol
                  amountUsd := amount
                  status := .open
                  instrumentId := instrument.instrumentId
                  stopLoss := bracket.1
                  takeProfit := bracket.2
                  openedAt := i.now
                  maxHoldUntil := i.now + maxHold }
        | _, _ => .error "open_failed"

/-- ``request``: the request row, its text as read (``none`` inside: no JSON). ``pending``: orders of tests
that are at the broker and have not filled. ``touched``: for each adoption and each close request the
test it was made for and the owner of the position. -/
structure World where
  stored : Option Test := none
  request : Option (Option Request) := none
  positions : List Position := []
  pending : List (ℕ × ℤ) := []
  usedIds : List ℤ := []
  nextNumber : ℕ := 0
  touched : List (ℕ × Option ℕ) := []
deriving DecidableEq

inductive Event where
  | ask (request : Option Request)
  | foreign (positionId instrumentId : ℤ) (hasStop : Bool)
  | fill (number : ℕ) (instrumentId positionId : ℤ) (hasStop : Bool)
  | reject (number : ℕ) (instrumentId : ℤ)
  | gone (positionId : ℤ)
  | tick (input : TickInput)

namespace World

variable (w : World)

def save (t : Test) : World := { w with stored := some t }

def finish (t : Test) (reason : String) : World := w.save { t with status := .closed, reason := reason }

def touch (t : Test) (p : Position) : World := { w with touched := (t.number, p.owner) :: w.touched }

def mine (t : Test) : List Position := w.positions.filter fun p => p.instrumentId = t.instrumentId

def held (t : Test) : Option Position := (w.mine t).find? fun p => some p.positionId = t.positionId

def adopts (t : Test) : Option Position := if t.positionId = none then (w.mine t).head? else none

def stillOpen (i : TickInput) (instrumentId : ℤ) : Bool :=
  !(i.recheckOk.1 || i.recheckOk.2) || w.positions.any fun p => p.instrumentId = instrumentId

def closeReason (i : TickInput) (t : Test) (p : Position) : Option String :=
  if ¬ p.hasStop then some "no_stop_at_broker"
  else if t.maxHoldUntil ≤ i.now then some "time_stop"
  else if i.rate.any (· ≤ t.stopLoss) then some "bot_backup_stop"
  else none

def closePosition (i : TickInput) (t : Test) (p : Position) (reason : String) : World :=
  let sent : World :=
    { w.touch t p with
      positions := if i.closes then w.positions.filter (·.positionId ≠ p.positionId) else w.positions }
  if i.close = .accepted then sent.finish t reason
  else if sent.stillOpen i t.instrumentId then sent
  else sent.finish t (reason ++ "_closed_elsewhere")

def watch (i : TickInput) (t : Test) (p : Position) : World :=
  match closeReason i t p with
  | some reason => w.closePosition i t p reason
  | none => w.save { t with unseenReads := 0 }

def monitor (i : TickInput) (t : Test) : World :=
  if ¬ i.readOk then w
  else
    match w.held t, w.adopts t with
    | some p, _ => w.watch i t p
    | none, some p => (w.touch t p).watch i { t with positionId := some p.positionId } p
    | none, none =>
        if t.positionId ≠ none then
          -- Gone from a clean read: confirmed on a second one first.
          let t := { t with unseenReads := t.unseenReads + 1 }
          if t.unseenReads < 2 then w.save t else w.finish t "closed_at_broker_by_stop_or_target"
        else if t.openedAt < i.now - notFoundGrace then w.finish t "no_position_seen_order_likely_rejected"
        else w

def fail (number : ℕ) (reason : String) : World :=
  { w with stored := some { number := number, status := .failed, reason := reason }, nextNumber := number + 1 }

def post (i : TickInput) (t : Test) : World :=
  { w with
    stored := some
      (match i.post with
      | .accepted orderId => { t with orderId := orderId }
      | .rejected => { t with status := .failed, reason := "open_failed" }
      | .uncertain => { t with uncertain := true }
      | .crashed => t)
    pending := if i.reaches then (t.number, t.instrumentId) :: w.pending else w.pending
    nextNumber := t.number + 1 }

def start (i : TickInput) : World :=
  match w.request with
  | none => w
  | some raw =>
      let taken : World := { w with request := none }
      match raw with
      | none => taken.fail w.nextNumber "request_not_json"
      | some request =>
          match prepare i w.nextNumber request with
          | .error reason => taken.fail w.nextNumber reason
          | .ok t => taken.post i t

def openTest : Option Test := w.stored.filter fun t => t.status = .open

def tick (i : TickInput) : World :=
  match w.openTest with
  | some t => w.monitor i t
  | none => w.start i

def step : Event → World
  | .ask request => { w with request := some request }
  | .foreign positionId instrumentId hasStop =>
      if positionId ∈ w.usedIds then w
      else
        { w with
          positions := ⟨positionId, instrumentId, hasStop, none⟩ :: w.positions
          usedIds := positionId :: w.usedIds }
  | .fill number instrumentId positionId hasStop =>
      if (number, instrumentId) ∈ w.pending ∧ positionId ∉ w.usedIds then
        { w with
          pending := w.pending.erase (number, instrumentId)
          positions := ⟨positionId, instrumentId, hasStop, some number⟩ :: w.positions
          usedIds := positionId :: w.usedIds }
      else w
  | .reject number instrumentId => { w with pending := w.pending.erase (number, instrumentId) }
  | .gone positionId => { w with positions := w.positions.filter (·.positionId ≠ positionId) }
  | .tick i => w.tick i

end World

end AlgoTrader.Broker.TestOrder
