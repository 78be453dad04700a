import AlgoTrader.Broker.EtoroLiveMirror
import Mathlib.Data.List.Sort

/-! The idle cash held in SPY (``app/broker/etoro_live_spy_reserve.py``): the sale that funds a copy
and the daily top-up. The logs and the notes a save adds for the page are left out. -/

namespace AlgoTrader.Broker.Etoro

open AlgoTrader.Utils.Time

def cashBufferUsd : ℚ := 2500
def hardMaxReservePct : ℚ := 60
def minTopupUsd : ℚ := 50
def releaseMarginPct : ℚ := 1
def minLeftUsd : ℚ := 20
def windowStart : ℕ := 9 * 60 + 45
def windowEnd : ℕ := 15 * 60 + 45

structure ReserveRow extends Position where
  isBuy : Bool := true

def reserveHeld (rows : List ReserveRow) (instrumentId : ℕ) : List ReserveRow :=
  rows.filter fun row => row.instrumentId = instrumentId ∧ row.isBuy = true

def instrumentIdOf (store : Store) (lookup : Option ℕ) : Option ℕ :=
  (truthyId store.reserveInstrumentId).or lookup

def rowUnits (row : ReserveRow) : ℚ := row.units.getD 0

structure SoldLot where
  positionId : ℕ
  units : ℚ
  whole : Bool
  deriving DecidableEq

structure SaleRun where
  sold : List SoldLot := []
  needUnits : ℚ
  failed : Bool := false

def lotToSell (rate needUnits : ℚ) (row : ReserveRow) : SoldLot :=
  let take := min (rowUnits row) needUnits
  if (rowUnits row - take) * rate < minLeftUsd then ⟨row.positionId, rowUnits row, true⟩
  else ⟨row.positionId, Rounding.toDigits 6 take, false⟩

def sellLots (rate : ℚ) (answer : ℕ → Attempt) (needUnits : ℚ) : List ReserveRow → SaleRun
  | [] => { needUnits }
  | row :: rest =>
      if needUnits ≤ 0 ∨ rowUnits row ≤ 0 then { needUnits }
      else
        let lot := lotToSell rate needUnits row
        match (answer row.positionId).result with
        | .error _ => { needUnits, failed := true }
        | .ok _ =>
            let run := sellLots rate answer
              (needUnits - if lot.whole then rowUnits row else min (rowUnits row) needUnits) rest
            { run with sold := lot :: run.sold }

/-- A look at the account while the sale is waited for; one that raises ends the release. -/
inductive Poll
  | raises
  | credit (value : Option ℚ)

def confirmCash (before : Option ℚ) (short : ℚ) : List Poll → Option (Option ℚ)
  | [] => some none
  | .raises :: _ => none
  | .credit value :: rest =>
      match value, before with
      | some credit, some before =>
          if before + short * (95 / 100) ≤ credit then some (some credit)
          else confirmCash (some before) short rest
      | _, _ => confirmCash before short rest

/-- What a sale meets: the first portfolio read, the lookup of SPY, its fresh rate, the answers to
the closes and the looks at the cash. A read that raises is ``none``. -/
structure Sale where
  rows : Option (List ReserveRow)
  credit : Option ℚ := none
  lookup : Option ℕ := none
  rate : Option ℚ := none
  closeAnswer : ℕ → Attempt := fun _ => .posted (.accepted (some 1))
  polls : List Poll := []

def sortedLots (rows : List ReserveRow) (instrumentId : ℕ) : List ReserveRow :=
  (reserveHeld rows instrumentId).insertionSort fun first second => rowUnits second ≤ rowUnits first

def neededUnits (short rate : ℚ) : ℚ := short * (1 + releaseMarginPct / 100) / rate

def shortfall (cash amount : ℚ) : ℚ := Rounding.toDigits 2 (amount - (cash - cashReserveUsd))

def Sale.run (sale : Sale) (store : Store) (short : ℚ) : Option (SaleRun × ℚ) :=
  match sale.rows, instrumentIdOf store sale.lookup, sale.rate with
  | some rows, some instrumentId, some rate =>
      if sortedLots rows instrumentId = [] ∨ rate ≤ 0 then none
      else
        some (sellLots rate sale.closeAnswer (neededUnits short rate) (sortedLots rows instrumentId),
          rate)
  | _, _, _ => none

def soldValue (rate : ℚ) (sold : List SoldLot) : ℚ :=
  Rounding.toDigits 2 ((sold.map (·.units)).sum * rate)

def Sale.release (sale : Sale) (store : Store) (short : ℚ) : Release :=
  match sale.run store short with
  | none => .refused
  | some (run, rate) =>
      if run.failed ∨ 1 / 1000000000 < run.needUnits then .refused
      else
        match confirmCash sale.credit short sale.polls with
        | none => .refused
        | some confirmed => .sold (soldValue rate run.sold) confirmed

-- The top-up. Each save and the order are listed in the order they happen, so that a
-- crash is a prefix of the list.
structure ReserveStore extends Store where
  lastTopupDay : Option ℤ := none

structure TopUpReads where
  clientUsable : Bool := true
  marketOpen : Bool := true
  rows : Option (List ReserveRow)
  credit : Option ℚ
  lookup : Option ℕ := none
  allowed : Bool := true
  rate : Option ℚ
  attempt : Attempt

def inWindow (clock : NewYorkClock) (now : Timestamp) : Bool :=
  weekday (clock.date now) < 5 && windowStart ≤ clock.minuteOfDay now &&
    clock.minuteOfDay now < windowEnd

/-- What the amount is the least of; ``held_cost`` is the lots' cost in whole cents. -/
structure Rooms where
  equity : ℚ
  cash : ℚ
  cost : ℚ
  deriving DecidableEq

def Rooms.heldCost (rooms : Rooms) : ℚ := Rounding.toDigits 2 rooms.cost
def Rooms.capRoom (rooms : Rooms) : ℚ := rooms.equity * hardMaxReservePct / 100 - rooms.heldCost
def Rooms.cashRoom (rooms : Rooms) : ℚ := rooms.cash - cashBufferUsd - cashReserveUsd
def Rooms.amount (rooms : Rooms) : ℚ := Rounding.toDigits 2 (min rooms.capRoom rooms.cashRoom)

def lotsCost (lots : List ReserveRow) : ℚ := (lots.map fun row => row.amount.getD 0).sum

def accountValue (rows : List ReserveRow) (cash : ℚ) : ℚ :=
  accountValueAtCost { credit := some cash, raw := rows.map (·.toPosition), portfolio := [] }

def roomsOf (rows : List ReserveRow) (cash : ℚ) (instrumentId : ℕ) : Rooms where
  equity := accountValue rows cash
  cash := cash
  cost := lotsCost (reserveHeld rows instrumentId)

inductive Effect
  | saveReserve (instrumentId : ℕ) (lastTopupDay : Option ℤ)
  | saveMirror (state : MirrorState)
  | order (rooms : Rooms)

def boughtState (state : MirrorState) (heldCost amount : ℚ) : MirrorState :=
  let row := (state.openNotional.lookup reserveSymbol).getD {}
  { state with
    openSymbols := (reserveSymbol :: state.openSymbols).dedup
    openNotional := state.openNotional.insert reserveSymbol
      { row with
        costUsd := some (Rounding.toDigits 2 ((row.costUsd.filter (· ≠ 0)).getD heldCost + amount)) }
    lastCash := state.lastCash.map fun cash => Rounding.toDigits 2 (cash - amount) }

def settleOrder (attempt : Attempt) (before : MirrorState) (instrumentId : ℕ) (day : ℤ) :
    List Effect :=
  match attempt.result with
  | .error failure =>
      (if failure.refunded then [.saveMirror before] else []) ++
        [.saveReserve instrumentId (if failure.isRateLimit then none else some day)]
  | .ok status =>
      (if status.refused then [.saveMirror before] else []) ++ [.saveReserve instrumentId (some day)]

def buy (before : MirrorState) (instrumentId : ℕ) (day : ℤ) (rooms : Rooms) (attempt : Attempt) :
    List Effect :=
  [.saveReserve instrumentId (some day), .saveMirror (boughtState before rooms.heldCost rooms.amount),
    .order rooms] ++ settleOrder attempt before instrumentId day

/-- ``_top_up``, after the checks of ``top_up`` passed; ``before`` is the mirror's state. -/
def topUpEffects (store : ReserveStore) (before : MirrorState) (day : ℤ) (reads : TopUpReads) :
    List Effect :=
  match reads.rows, reads.credit with
  | some rows, some cash =>
      if accountValue rows cash ≤ 0 then []
      else
        match instrumentIdOf store.toStore reads.lookup with
        | none => []
        | some instrumentId =>
            let rooms := roomsOf rows cash instrumentId
            if !reads.allowed || rooms.amount < minTopupUsd then [.saveReserve instrumentId (some day)]
            else
              match reads.rate with
              | none => []
              | some rate =>
                  if rate ≤ 0 then [] else buy before instrumentId day rooms reads.attempt
  | _, _ => []

def topUpDue (settings : Settings) (clock : NewYorkClock) (store : ReserveStore) (now : Timestamp)
    (reads : TopUpReads) : Bool :=
  settings.spyReserveEnabled && settings.mirrorEnabled && inWindow clock now &&
    store.lastTopupDay ≠ some (clock.date now) && !store.halted && reads.clientUsable &&
    reads.marketOpen

def topUp (settings : Settings) (clock : NewYorkClock) (store : ReserveStore)
    (now stateAt : Timestamp) (reads : TopUpReads) : List Effect :=
  if topUpDue settings clock store now reads then
    topUpEffects store (currentState store.mirror (utcDate stateAt)) (clock.date now) reads
  else []

end AlgoTrader.Broker.Etoro
