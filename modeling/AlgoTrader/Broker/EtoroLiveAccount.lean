import AlgoTrader.Broker.EtoroLive
import AlgoTrader.Broker.EtoroLiveSpyReserve

/-! The live mirror with its SPY reserve as one system: copies that may be funded by a sale, daily
top-ups that a crash may cut short, and whatever else the mirror does. The account also keeps what
no record of the program holds: what each copy eToro may have opened was sized on, and every order
for the reserve. -/

namespace AlgoTrader.Broker.Etoro

open AlgoTrader.Utils.Time
open AlgoTrader.Models

section Funding

variable (settings : Settings) (store : Store) (input : CopyInput) (times : CopyTimes) (sale : Sale)

def copyStake : Option ℚ :=
  tradeAmount settings (currentState store.mirror (utcDate times.readAt))
    (orderStopPct input.request.order)

/-- What the copy is short of, when the reserve is on and the free cash was ever read. -/
def saleShortfall (state : MirrorState) (amount : ℚ) : Option ℚ :=
  if settings.spyReserveEnabled then
    (state.lastCash.map (shortfall · amount)).filter (0 < ·)
  else none

def Sale.fund : CopyInput :=
  { input with
    release :=
      match saleShortfall settings store.mirror ((copyStake settings store input times).getD 0) with
      | none => .refused
      | some short => sale.release store short }

def Sale.released (state : MirrorState) (amount : ℚ) : ℚ :=
  match (saleShortfall settings state amount).bind (sale.run store) with
  | none => 0
  | some (run, rate) =>
      soldValue rate (run.sold.filter fun lot => (sale.closeAnswer lot.positionId).effective)

structure Funding where
  equity : ℚ
  exposure : ℚ
  amount : ℚ
  released : ℚ

def fundingOf (prepared : Prepared) : Funding :=
  let state := currentState store.mirror (utcDate times.readAt)
  { equity := state.lastEquity.getD 0
    exposure := (openExposureUsd store state times.readAt).getD 0
    amount := prepared.amount
    released := sale.released settings store state prepared.amount }

-- A release that went through saves SPY's id with its note.
def notedId : Option ℕ :=
  match prepareCopy settings store input times, saleShortfall settings store.mirror
    ((copyStake settings store input times).getD 0) with
  | some _, some _ => instrumentIdOf store sale.lookup
  | _, _ => store.reserveInstrumentId

end Funding

structure Buy where
  day : ℤ
  rooms : Rooms
  possiblyFilled : Bool
  deriving DecidableEq

structure Account where
  world : World
  lastTopupDay : Option ℤ := none
  fundings : List Funding := []
  buys : List Buy := []

def Account.start (store : Store) (now : Timestamp) (lastTopupDay : Option ℤ) : Account where
  world := World.start store now
  lastTopupDay := lastTopupDay

def Account.reserveStore (account : Account) : ReserveStore :=
  { account.world.store with lastTopupDay := account.lastTopupDay }

structure TopUpWaits where
  toTick : ℕ := 0
  toState : ℕ := 0
  toPost : ℕ := 0
  toDone : ℕ := 0

inductive Event
  | copy (waits : CopyWaits) (input : CopyInput) (sale : Sale)
  -- Only the first ``done`` effects of the tick happen.
  | topUp (waits : TopUpWaits) (reads : TopUpReads) (done : ℕ)
  | reconcile (toRead toDone : ℕ) (input : ReconcileInput)
  | check (toRead toDone : ℕ) (check : StopCheck)
  | updateScorecard (wait : ℕ) (update : ScorecardUpdate)
  | clearHalt

def Account.apply (day : ℤ) (attempt : Attempt) (account : Account) : Effect → Account
  | .saveReserve instrumentId lastTopupDay =>
      { account with
        world :=
          { account.world with
            store := { account.world.store with reserveInstrumentId := some instrumentId } }
        lastTopupDay }
  | .saveMirror mirror =>
      { account with
        world := { account.world with store := { account.world.store with mirror } } }
  | .order rooms =>
      { account with
        buys := account.buys ++ [{ day, rooms, possiblyFilled := attempt.possiblyFilled }] }

def Account.applyAll (day : ℤ) (attempt : Attempt) (account : Account) (effects : List Effect) :
    Account :=
  effects.foldl (Account.apply day attempt) account

section Step

variable (settings : Settings) (clock : NewYorkClock) (instrumentOf : String → ℕ)

def Account.copy (account : Account) (waits : CopyWaits) (input : CopyInput) (sale : Sale) :
    Account :=
  let store := account.world.store
  let times := waits.times account.world.clock
  let input := sale.fund settings store input times
  let world := account.world.copy settings waits input
  { account with
    world :=
      { world with
        store :=
          { world.store with
            reserveInstrumentId := notedId settings store input times sale } }
    fundings := account.fundings ++
      if input.attempt.possiblyFilled then
        (prepareCopy settings store input times).toList.map (fundingOf settings store times sale)
      else [] }

def Account.advance (account : Account) (wait : ℕ) : Account :=
  { account with world := { account.world with clock := account.world.clock + wait } }

def TopUpWaits.tickAt (waits : TopUpWaits) (now : Timestamp) : Timestamp := now + waits.toTick

def TopUpWaits.postAt (waits : TopUpWaits) (now : Timestamp) : Timestamp :=
  waits.tickAt now + waits.toState + waits.toPost

def TopUpWaits.total (waits : TopUpWaits) : ℕ :=
  waits.toTick + waits.toState + waits.toPost + waits.toDone

def Account.topUp (account : Account) (waits : TopUpWaits) (reads : TopUpReads) (done : ℕ) :
    Account :=
  let now := account.world.clock
  let effects := Etoro.topUp settings clock account.reserveStore (waits.tickAt now)
    (waits.tickAt now + waits.toState) reads
  (account.applyAll (clock.date (waits.postAt now)) reads.attempt (effects.take done)).advance
    waits.total

def Account.mirrored (account : Account) (action : Action) : Account :=
  { account with world := step settings instrumentOf account.world action }

def accountStep (account : Account) : Event → Account
  | .copy waits input sale => account.copy settings waits input sale
  | .topUp waits reads done => account.topUp settings clock waits reads done
  | .reconcile toRead toDone input =>
      account.mirrored settings instrumentOf (.reconcile toRead toDone input)
  | .check toRead toDone check => account.mirrored settings instrumentOf (.check toRead toDone check)
  | .updateScorecard wait update =>
      account.mirrored settings instrumentOf (.updateScorecard wait update)
  | .clearHalt => account.mirrored settings instrumentOf .clearHalt

end Step

end AlgoTrader.Broker.Etoro
