import AlgoTrader.Broker.EtoroLiveScorecard
import Mathlib.Data.List.Dedup

/-! The room a copy needs (``app/broker/etoro_live_room.py``) and the SPY reserve's part in it
(``app/broker/etoro_live_spy_reserve.py``). The order of a set of symbols is never read, so a sorted
set is a list without duplicates. -/

namespace AlgoTrader.Broker.Etoro

open AlgoTrader.Utils.Time

def hardMaxOpenPerBucket : ℕ := 4
def markMaxAgeMinutes : ℤ := 15
def reserveSymbol : String := "SPY"
def sellableHaircut : ℚ := 9 / 10
def unknownBucket : String := "unclassified"

/-- The settings the mirror reads; ``correlationBucketForSymbol`` is the sector table. A share of
equity that is not a finite number is ``none``. -/
structure Settings where
  mirrorEnabled : Bool := true
  tradePctOfEquity : Option ℚ := some 25
  spyReserveEnabled : Bool := false
  correlationBucketForSymbol : String → String := fun _ => unknownBucket

def idsToSymbols (store : Store) : List (String × String) :=
  let cards := store.scorecard.entries.map fun entry => (entry.2.instrumentId, entry.2.symbol)
  let test := store.testOrder.toList.map fun test => (some test.instrumentId, test.symbol)
  ((cards ++ test).filterMap fun (id, symbol) =>
    if symbol = "" then none
    else (truthyId id).map fun id => (toString id, symbol.toUpper)).reverse

def symbolOf (store : Store) (key : String) : String :=
  ((idsToSymbols store).lookup key).getD key.toUpper

def liveCards (store : Store) : List Card :=
  (store.scorecard.entries.map (·.2)).filter (·.live)

def effectiveOpenSymbols (store : Store) (state : MirrorState) : List String :=
  ((state.openSymbols.map (symbolOf store) ++ (liveCards store).map (·.symbol.toUpper)).filter
    (· ≠ "")).dedup

def isReserveSymbol (settings : Settings) (symbol : String) : Bool :=
  settings.spyReserveEnabled && symbol.toUpper == reserveSymbol

def countedSymbols (settings : Settings) (held : List String) : List String :=
  held.filter (!isReserveSymbol settings ·)

def reserveInstrumentId (settings : Settings) (store : Store) : Option ℕ :=
  if settings.spyReserveEnabled then truthyId store.reserveInstrumentId else none

def positionSymbol (spyId : Option ℕ) (position : Position) : String :=
  if spyId = some position.instrumentId then reserveSymbol else position.symbol.toUpper

def bucketBlockers (settings : Settings) (symbol : String) (openSymbols : List String) :
    List String :=
  let bucket := settings.correlationBucketForSymbol symbol
  if bucket = unknownBucket then []
  else if hardMaxOpenPerBucket ≤
      openSymbols.countP (settings.correlationBucketForSymbol · = bucket) then
    ["etoro_live_bucket_cap"]
  else []

def largest (readings : List ℚ) : ℚ := readings.foldl max 0

section Exposure

variable (store : Store) (state : MirrorState) (now : Timestamp)

def notionalRows (symbol : String) : List NotionalRow :=
  (state.openNotional.entries.filter (symbolOf store ·.1 = symbol)).map (·.2)

def cardsOf (symbol : String) : List Card :=
  (liveCards store).filter (·.symbol.toUpper = symbol)

def liveNotional (symbol : String) : ℚ :=
  ((cardsOf store symbol).map fun card =>
    ((positive card.notionalUsd).or (positive card.amountUsd)).getD 0).sum

def unitsOf (symbol : String) : ℚ :=
  largest ((notionalRows store state symbol).map (fun row => (positive row.units).getD 0) ++
    (cardsOf store symbol).map fun card => (positive card.units).getD 0)

-- A held symbol with no notional at all is unknown.
def exposureOf (symbol : String) : Option ℚ :=
  let readings := liveNotional store symbol ::
    (notionalRows store state symbol).filterMap fun row => positive row.costUsd
  if largest readings = 0 then none
  else
    let marked := (store.marks.lookup symbol).filter fun mark =>
      0 < mark.rate && now - markMaxAgeMinutes * microsPerMinute ≤ mark.seenAt
    some (largest (readings ++ marked.toList.map fun mark => unitsOf store state symbol * mark.rate))

def openExposureUsd : Option ℚ :=
  if state.openNotional.entries.any (·.2.unreadable) then none
  else
    ((effectiveOpenSymbols store state).mapM (exposureOf store state now)).map fun totals =>
      Rounding.toDigits 2 totals.sum

end Exposure

def sellableUsd (settings : Settings) (state : MirrorState) : ℚ :=
  if settings.spyReserveEnabled then
    match ((state.openNotional.lookup reserveSymbol).bind (·.costUsd)).filter (0 < ·) with
    | some cost => Rounding.toDigits 2 (cost * sellableHaircut)
    | none => 0
  else 0

def fitToRoom (stake : ℚ) (rooms : List (String × ℚ)) : Option ℚ × List String :=
  if stake ≤ 0 then
    (none, if rooms = [] then ["etoro_live_exposure_cap"] else rooms.map (·.1))
  else
    let short := (rooms.filter (·.2 < stake)).map (·.1)
    if short = [] then (some stake, []) else (none, short)

lemma fitToRoom_some {stake amount : ℚ} {rooms : List (String × ℚ)}
    (h : (fitToRoom stake rooms).1 = some amount) : amount = stake := by
  simp only [fitToRoom] at h
  split_ifs at h
  cases h
  rfl

end AlgoTrader.Broker.Etoro
