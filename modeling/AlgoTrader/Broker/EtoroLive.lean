import AlgoTrader.Broker.EtoroLiveMirror
import AlgoTrader.Lib.Runs

/-! The live mirror as a system: copies, reconciles, backup-stop checks and scorecard updates of one
process in any order, with any waits and any answers from eToro. The world also keeps what no record
of the program holds: every copy handed to eToro, what the portfolio reads have shown of it, and the
lots a check should have closed and did not. -/

namespace AlgoTrader.Broker.Etoro

open AlgoTrader.Utils.Time
open AlgoTrader.Models

/-- Not shown by a read yet, shown by one, or shown to be gone, closed or never opened. -/
inductive Phase
  | queued
  | held
  | finished
  deriving DecidableEq, Repr

structure Copy where
  number : ℕ
  order : TradeOrder
  amount : ℚ
  equity : Option ℚ
  counted : ℕ
  recordedAt : Timestamp
  postedAt : Timestamp
  possiblyFilled : Bool
  phase : Phase

def Copy.symbol (copy : Copy) : String := copy.order.symbol.toUpper

def Copy.unfinished (copy : Copy) : Prop := copy.phase ≠ .finished

instance (copy : Copy) : Decidable copy.unfinished := inferInstanceAs (Decidable (_ ≠ _))

structure World where
  store : Store
  clock : Timestamp
  -- The equity the last successful reconcile read.
  equityRead : Option ℚ
  copies : List Copy := []
  missed : List Position := []

def World.start (store : Store) (clock : Timestamp) : World where
  store := store
  clock := clock
  equityRead := store.mirror.lastEquity

structure CopyWaits where
  toGates : ℕ := 0
  toRead : ℕ := 0
  toStop : ℕ := 0
  toPost : ℕ := 0
  toDone : ℕ := 0

def CopyWaits.times (waits : CopyWaits) (clock : Timestamp) : CopyTimes where
  gatesAt := clock + waits.toGates
  readAt := clock + waits.toGates + waits.toRead
  stopAt := clock + waits.toGates + waits.toRead + waits.toStop
  postAt := clock + waits.toGates + waits.toRead + waits.toStop + waits.toPost
  doneAt := clock + waits.toGates + waits.toRead + waits.toStop + waits.toPost + waits.toDone

inductive Action
  | copy (waits : CopyWaits) (input : CopyInput)
  | reconcile (toRead toDone : ℕ) (input : ReconcileInput)
  | check (toRead toDone : ℕ) (check : StopCheck)
  | updateScorecard (wait : ℕ) (update : ScorecardUpdate)
  | clearHalt

section Observation

variable (instrumentOf : String → ℕ)

def Copy.lots (copy : Copy) (lots : List Position) : List Position :=
  lots.filter fun lot => lot.copy = some copy.number ∧ lot.instrumentId = instrumentOf copy.symbol

def Copy.observe (lots : List Position) (copy : Copy) : Copy :=
  match copy.phase, copy.lots instrumentOf lots with
  | .queued, _ :: _ => { copy with phase := .held }
  | .held, [] => { copy with phase := .finished }
  | _, _ => copy

def reconcileReads (settings : Settings) (input : ReconcileInput) : List (List Position) :=
  if !settings.mirrorEnabled || !input.clientUsable then []
  else
    match input.reads with
    | .error _ => []
    | .ok reads => [reads.raw, reads.portfolio]

-- The scorecard reads the portfolio only when a card is pending or open.
def scorecardReads (store : Store) (update : ScorecardUpdate) : List (List Position) :=
  if liveCards store = [] then [] else (update.read.usable update.clientUsable).toList

def Copy.observeReads (reads : List (List Position)) (copy : Copy) : Copy :=
  reads.foldl (fun copy lots => copy.observe instrumentOf lots) copy

section Check

variable (check : StopCheck) (result : CheckResult) (lots : List Position)

/-- A check closes a position when each of its lots is sent a close that takes effect, or when its
second look finds the instrument gone. -/
def Copy.closedBy (copy : Copy) : Bool :=
  (copy.lots instrumentOf lots).all (fun lot =>
    lot.positionId ∈ result.sent ∧ (check.closeAnswer lot.positionId).effective) ||
  (copy.symbol ∈ result.closedElsewhere &&
    !stillOpen (instrumentOf copy.symbol) (check.reread copy.symbol))

def Copy.afterCheck (copy : Copy) : Copy :=
  let observed := copy.observe instrumentOf lots
  if observed.phase = .held ∧ copy.closedBy instrumentOf check result lots then
    { observed with phase := .finished }
  else observed

def Copy.stopReached (copy : Copy) : Bool :=
  copy.order.stopLoss.any fun stop => (check.freshRate copy.symbol).any (· ≤ stop)

def Copy.missedBy (copy : Copy) : List Position :=
  if copy.unfinished ∧ copy.stopReached check then
    (copy.lots instrumentOf lots).filter (·.positionId ∉ result.sent)
  else []

end Check

end Observation

section Step

variable (settings : Settings) (instrumentOf : String → ℕ)

def submitted (world : World) (times : CopyTimes) (input : CopyInput) (prepared : Prepared) : Copy where
  number := world.copies.length
  order := input.request.order
  amount := prepared.amount
  equity := world.equityRead
  counted := (countedSymbols settings (effectiveOpenSymbols world.store world.store.mirror)).length
  recordedAt := times.stopAt
  postedAt := times.postAt
  possiblyFilled := input.attempt.possiblyFilled
  phase := if input.attempt.possiblyFilled then .queued else .finished

def World.copy (world : World) (waits : CopyWaits) (input : CopyInput) : World :=
  let times := waits.times world.clock
  { world with
    store := mirror settings world.store input times
    clock := times.doneAt
    copies := world.copies ++
      (prepareCopy settings world.store input times).toList.map (submitted settings world times input) }

def World.reconcile (world : World) (toRead toDone : ℕ) (input : ReconcileInput) : World :=
  let now := world.clock + toRead
  let reads := reconcileReads settings input
  { world with
    store := Etoro.reconcile settings world.store input now
    clock := now + toDone
    equityRead :=
      match reads, input.reads with
      | _ :: _, .ok reads => some (accountValueAtCost reads)
      | _, _ => world.equityRead
    copies := world.copies.map (Copy.observeReads instrumentOf reads) }

def World.check (world : World) (toRead toDone : ℕ) (check : StopCheck) : World :=
  let now := world.clock + toRead
  let result := checkBackupStops instrumentOf check now world.store.stops
  { world with
    store :=
      { world.store with
        stops := result.stops
        halted := world.store.halted || result.halted }
    clock := now + toDone
    copies :=
      match check.read.usable check.clientUsable with
      | none => world.copies
      | some lots => world.copies.map (Copy.afterCheck instrumentOf check result lots)
    missed :=
      match check.read.usable check.clientUsable with
      | none => world.missed
      | some lots =>
          world.missed ++ world.copies.flatMap (Copy.missedBy instrumentOf check result lots) }

def World.updateScorecard (world : World) (wait : ℕ) (update : ScorecardUpdate) : World :=
  let now := world.clock + wait
  { world with
    store :=
      { world.store with
        scorecard := Etoro.updateScorecard instrumentOf update now world.store.scorecard }
    clock := now
    copies :=
      world.copies.map (Copy.observeReads instrumentOf (scorecardReads world.store update)) }

def step (world : World) : Action → World
  | .copy waits input => world.copy settings waits input
  | .reconcile toRead toDone input => world.reconcile settings instrumentOf toRead toDone input
  | .check toRead toDone check => world.check instrumentOf toRead toDone check
  | .updateScorecard wait update => world.updateScorecard instrumentOf wait update
  -- The operator deletes ``etoro_live:halted``.
  | .clearHalt => { world with store := { world.store with halted := false } }

end Step

end AlgoTrader.Broker.Etoro
