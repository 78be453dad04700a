import AlgoTrader.Broker.EtoroClient
import AlgoTrader.Broker.EtoroLiveState
import Mathlib.Algebra.Order.Ring.Rat

/-! The backup stop (``app/broker/etoro_live_backup_stop.py``): intended stops are recorded when a
copy is submitted, and every check closes a held position whose fresh rate is at or below its
stop. The marks and the account value that a check also saves are display data and left out. -/

namespace AlgoTrader.Broker.Etoro

open AlgoTrader.Utils.Time

abbrev Stops := Records.Dict String StopInfo

def unseenGraceMinutes : ℤ := 24 * 60

def rememberStop (stops : Stops) (symbol : String) (stop : Option ℚ) (instrumentId : Option ℕ)
    (now : Timestamp) : Stops :=
  match stop with
  | none => stops
  | some stop => stops.insert symbol.toUpper { stop, instrumentId, recordedAt := now }

def forgetStop (stops : Stops) (symbol : String) : Stops := stops.erase symbol.toUpper

/-- What one check meets: the portfolio read, which instrument lookups fail, the fresh rates, the
answers to its closes and the two reads of ``_still_open``. -/
structure StopCheck where
  clientUsable : Bool := true
  read : PortfolioRead
  lookupFails : String → Bool := fun _ => false
  freshRate : String → Option ℚ := fun _ => none
  closeAnswer : ℕ → Attempt := fun _ => .posted (.accepted (some 1))
  reread : String → PortfolioRead × PortfolioRead := fun _ => (.failed, .failed)

def heldLots (lots : List Position) (instrumentId : ℕ) : List Position :=
  lots.filter (·.instrumentId = instrumentId)

structure CloseRun where
  sent : List ℕ := []
  failure : Option Failure := none

-- The first exception ends the loop: the lots after it are not closed in this check.
def closeLots (answer : ℕ → Attempt) : List Position → CloseRun
  | [] => {}
  | lot :: rest =>
      let attempt := answer lot.positionId
      let sent := if attempt.sent then [lot.positionId] else []
      match attempt.result with
      | .error failure => { sent, failure := some failure }
      | .ok _ =>
          let run := closeLots answer rest
          { run with sent := sent ++ run.sent }

def PortfolioRead.gone (instrumentId : ℕ) : PortfolioRead → Bool
  | .positions lots => (heldLots lots instrumentId).isEmpty
  | _ => false

def stillOpen (instrumentId : ℕ) (reread : PortfolioRead × PortfolioRead) : Bool :=
  !(reread.1.gone instrumentId || reread.2.gone instrumentId)

structure Outcome where
  kept : Option StopInfo
  sent : List ℕ := []
  halted : Bool := false
  closedElsewhere : Bool := false

section Check

-- The id eToro lists each symbol under.
variable (instrumentOf : String → ℕ) (check : StopCheck) (now : Timestamp) (lots : List Position)

def instrumentFor (symbol : String) (info : StopInfo) : Option ℕ :=
  (truthyId info.instrumentId).or
    (if check.lookupFails symbol then none else some (instrumentOf symbol))

def closeAtStop (symbol : String) (instrumentId : ℕ) (info : StopInfo) : Outcome :=
  let run := closeLots check.closeAnswer (heldLots lots instrumentId)
  match run.failure with
  | none => { kept := none, sent := run.sent }
  | some failure =>
      if failure.isRateLimit then { kept := some info, sent := run.sent }
      else if stillOpen instrumentId (check.reread symbol) then
        { kept := some info, sent := run.sent, halted := true }
      else { kept := none, sent := run.sent, closedElsewhere := true }

def checkStop (symbol : String) (info : StopInfo) : Outcome :=
  match instrumentFor instrumentOf check symbol info with
  | none => { kept := some info }
  | some id =>
      let info := { info with instrumentId := some id }
      if heldLots lots id = [] then
        -- Seen before and now gone was closed at eToro; never seen may still be a queued order.
        if !info.seen && now - unseenGraceMinutes * microsPerMinute < info.recordedAt then
          { kept := some info }
        else { kept := none }
      else
        let info := { info with seen := true }
        match check.freshRate symbol with
        | none => { kept := some info }
        | some rate =>
            if info.stop < rate then { kept := some info }
            else closeAtStop check lots symbol id info

-- Only the id and the seen flag are merged back into the entry, and only when they are truthy.
def mergeInfo (current info : StopInfo) : StopInfo :=
  { current with
    instrumentId := (truthyId info.instrumentId).or current.instrumentId
    seen := info.seen || current.seen }

structure CheckResult where
  stops : Stops
  sent : List ℕ := []
  halted : Bool := false
  closedElsewhere : List String := []

-- The lock is held throughout, so the merge at the end meets the entries the check started from.
def checkBackupStops (stops : Stops) : CheckResult :=
  match check.read.usable check.clientUsable with
  | none => { stops }
  | some lots =>
      let outcome := checkStop instrumentOf check now lots
      { stops := Records.rewrite (fun symbol current =>
          (outcome symbol current).kept.map (mergeInfo current)) stops
        sent := stops.entries.flatMap fun entry => (outcome entry.1 entry.2).sent
        halted := stops.entries.any fun entry => (outcome entry.1 entry.2).halted
        closedElsewhere := (stops.entries.filter fun entry =>
          (outcome entry.1 entry.2).closedElsewhere).map (·.1) }

end Check

end AlgoTrader.Broker.Etoro
