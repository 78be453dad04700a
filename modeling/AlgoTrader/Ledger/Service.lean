import AlgoTrader.Lib.Runs
import AlgoTrader.Utils.Time
import Mathlib.Algebra.Order.Group.Unbundled.Int

/-! The outcome ledger (``app/ledger/service.py``, ``app/ledger/repository.py``): a cycle as the list of
its writes, each computed from what the writes before it left. Prices and scores are left out. -/

namespace AlgoTrader.Ledger

open AlgoTrader.Utils.Time

structure Position where
  positionId : ℤ
  instrumentId : ℤ
  symbol : String
  openDatetime : Option IsoText
deriving DecidableEq

structure Snapshot where
  snapshotTs : Timestamp
  stamp : String
  positions : List Position
deriving DecidableEq

inductive ClosedStatus
  | targetHit | stopHit | closedManual
deriving DecidableEq

inductive OutcomeStatus
  | pendingMatch | opened | expiredUnmatched
  | closed (as : ClosedStatus)
deriving DecidableEq

/-- The id of an alert is a text with four colons or more, that of a manual import has one. -/
inductive AlertId
  | alert (text : String)
  | manualEtoro (positionId : ℤ)
deriving DecidableEq

structure Outcome where
  id : ℕ
  alertId : AlertId
  symbol : String
  alertCreatedAt : IsoText
  status : OutcomeStatus
  matchedPositionId : Option ℤ
  positionOpenAt : Option IsoText
deriving DecidableEq

structure Database where
  snapshots : List Snapshot := []
  outcomes : List Outcome := []

inductive Write
  | expirePending (cutoff : String)
  | insertSnapshot (snapshot : Snapshot)
  | insertOutcome (alertId : AlertId) (symbol : String) (alertCreatedAt : IsoText)
  | markMatched (outcomeId : ℕ) (position : Position)
  | markClosed (outcomeId : ℕ) (status : ClosedStatus)

namespace Database

variable (db : Database)

def nextId : ℕ := db.outcomes.length + 1

def update (id : ℕ) (f : Outcome → Outcome) : Database :=
  { db with outcomes := db.outcomes.map fun outcome => if outcome.id = id then f outcome else outcome }

def apply : Write → Database
  | .expirePending cutoff =>
      { db with outcomes := db.outcomes.map fun outcome =>
          if outcome.status = .pendingMatch ∧ outcome.alertCreatedAt.text < cutoff then
            { outcome with status := .expiredUnmatched }
          else outcome }
  | .insertSnapshot snapshot => { db with snapshots := db.snapshots ++ [snapshot] }
  | .insertOutcome alertId symbol alertCreatedAt =>
      { db with outcomes := db.outcomes ++
          [⟨db.nextId, alertId, symbol.toUpper, alertCreatedAt, .pendingMatch, none, none⟩] }
  | .markMatched outcomeId position =>
      db.update outcomeId fun outcome =>
        { outcome with
          matchedPositionId := some position.positionId
          positionOpenAt := position.openDatetime
          status := .opened }
  | .markClosed outcomeId status => db.update outcomeId fun outcome => { outcome with status := .closed status }

-- Of two snapshots with one stamp the later row is read.
def latestOf (snapshots : List Snapshot) : Option Snapshot :=
  snapshots.foldl (fun best snapshot =>
    match best with
    | none => some snapshot
    | some best => if best.snapshotTs ≤ snapshot.snapshotTs then some snapshot else some best) none

def latestSnapshot : Option Snapshot := latestOf db.snapshots

def snapshotBefore (ts : Timestamp) : Option Snapshot :=
  latestOf (db.snapshots.filter (·.snapshotTs < ts))

def getByAlertId (alertId : AlertId) : Option Outcome := db.outcomes.reverse.find? (·.alertId = alertId)

def listPendingMatch : List Outcome :=
  (db.outcomes.filter (·.status = .pendingMatch)).mergeSort
    fun a b => decide (a.alertCreatedAt.text ≤ b.alertCreatedAt.text)

-- In the order of the table; the query lists the latest match first, which only a cycle that fails between two
-- closings could tell.
def listOpenOutcomes : List Outcome := db.outcomes.filter (·.status = .opened)

def PositionMatched (positionId : ℤ) : Prop :=
  ∃ outcome ∈ db.outcomes, outcome.matchedPositionId = some positionId

instance (positionId : ℤ) : Decidable (db.PositionMatched positionId) :=
  inferInstanceAs (Decidable (∃ outcome ∈ db.outcomes, _))

end Database

def clockForgiveness : ℤ := 5 * microsPerMinute

/-- Opened from five minutes before the alert to ``matchWindow`` after it. -/
def InWindow (matchWindow : ℤ) (alertTs openTs : Timestamp) : Prop :=
  alertTs - clockForgiveness ≤ openTs ∧ openTs ≤ alertTs + matchWindow

instance (matchWindow : ℤ) (alertTs openTs : Timestamp) : Decidable (InWindow matchWindow alertTs openTs) :=
  inferInstanceAs (Decidable (_ ∧ _))

section Matching

variable (matchWindow : ℤ)

def openTime (position : Position) : Option Timestamp := position.openDatetime.bind (·.time)

def Candidate (db : Database) (outcome : Outcome) (alertTs : Timestamp) (position : Position) : Prop :=
  position.symbol.toUpper = outcome.symbol.toUpper ∧ ¬ db.PositionMatched position.positionId ∧
    ∃ openTs ∈ openTime position, InWindow matchWindow alertTs openTs

instance (db : Database) (outcome : Outcome) (alertTs : Timestamp) (position : Position) :
    Decidable (Candidate matchWindow db outcome alertTs position) :=
  inferInstanceAs (Decidable (_ ∧ _ ∧ _))

def matchDelta (alertTs : Timestamp) (position : Position) : ℤ :=
  |(openTime position).getD alertTs - alertTs|

def bestPosition (db : Database) (outcome : Outcome) (positions : List Position) : Option Position :=
  match outcome.alertCreatedAt.time with
  | none => none
  | some alertTs =>
      (positions.filter fun position => Candidate matchWindow db outcome alertTs position).minOn?
        (matchDelta alertTs)

def matchPending (positions : List Position) : Database → List Outcome → List Write
  | _, [] => []
  | db, outcome :: rest =>
      match bestPosition matchWindow db outcome positions with
      | none => matchPending positions db rest
      | some best =>
          let write := Write.markMatched outcome.id best
          write :: matchPending positions (db.apply write) rest

def matchOpenPositions (db : Database) : List Write :=
  match db.latestSnapshot with
  | none => []
  | some snapshot => matchPending matchWindow snapshot.positions db db.listPendingMatch

end Matching

def recordAlert (db : Database) (alertId : AlertId) (symbol : String) (alertCreatedAt : IsoText) : List Write :=
  match db.getByAlertId alertId with
  | some _ => []
  | none => [.insertOutcome alertId symbol alertCreatedAt]

section Imports

variable (snapshot : Snapshot) (previousIds : List ℤ)

def importSymbol (position : Position) : String :=
  (if position.symbol = "" then toString position.instrumentId else position.symbol).toUpper

def importTime (position : Position) : IsoText :=
  position.openDatetime.getD ⟨snapshot.stamp, some snapshot.snapshotTs⟩

def importPosition (db : Database) (position : Position) : List Write :=
  if position.positionId ∈ previousIds ∨ db.PositionMatched position.positionId then []
  else
    let alertId := AlertId.manualEtoro position.positionId
    let outcomeId := ((db.getByAlertId alertId).map (·.id)).getD db.nextId
    recordAlert db alertId (importSymbol position) (importTime snapshot position) ++
      [.markMatched outcomeId position]

def importPositions : Database → List Position → List Write
  | _, [] => []
  | db, position :: rest =>
      let writes := importPosition snapshot previousIds db position
      writes ++ importPositions (Runs.run Database.apply db writes) rest

-- The first observed snapshot is the baseline: nothing in it is imported.
def importNewManualPositions (db : Database) : List Write :=
  match db.snapshotBefore snapshot.snapshotTs with
  | none => []
  | some previous => importPositions snapshot (previous.positions.map (·.positionId)) db snapshot.positions

end Imports

def refreshClosedOutcomes (classify : Outcome → ClosedStatus) (db : Database) : List Write :=
  match db.latestSnapshot with
  | none => []
  | some latest =>
      (db.listOpenOutcomes.filter fun outcome =>
        match outcome.matchedPositionId with
        | none => false
        | some positionId => positionId ∉ latest.positions.map (·.positionId)).map
          fun outcome => .markClosed outcome.id (classify outcome)

structure Settings where
  matchWindow : ℤ
  trackManualPositions : Bool

/-- One cycle: the expiry cutoff, the broker's portfolio (``none`` when the read raises), the stamp of
its snapshot, how closed outcomes are scored, and after how many writes the cycle fails. -/
structure Cycle where
  cutoff : String
  portfolio : Option (List Position)
  snapshotTs : Timestamp
  stamp : String
  classify : Outcome → ClosedStatus
  failsAfter : Option ℕ := none

def Cycle.snapshot (cycle : Cycle) (positions : List Position) : Snapshot :=
  ⟨cycle.snapshotTs, cycle.stamp, positions⟩

section Cycles

variable (settings : Settings) (cycle : Cycle) (db : Database)

def snapshotWrites (positions : List Position) : List Write :=
  let inserted := db.apply (.insertSnapshot (cycle.snapshot positions))
  let matching := matchOpenPositions settings.matchWindow inserted
  let matched := Runs.run Database.apply inserted matching
  .insertSnapshot (cycle.snapshot positions) :: matching ++
    if settings.trackManualPositions then importNewManualPositions (cycle.snapshot positions) matched else []

def runCycle : List Write :=
  let expired := db.apply (.expirePending cycle.cutoff)
  if expired.listPendingMatch = [] ∧ expired.listOpenOutcomes = [] ∧ !settings.trackManualPositions then
    [.expirePending cycle.cutoff]
  else
    match cycle.portfolio with
    | none => [.expirePending cycle.cutoff]
    | some positions =>
        let writes := snapshotWrites settings cycle expired positions
        .expirePending cycle.cutoff ::
          (writes ++ refreshClosedOutcomes cycle.classify (Runs.run Database.apply expired writes))

def Cycle.done : List Write :=
  match cycle.failsAfter with
  | none => runCycle settings cycle db
  | some k => (runCycle settings cycle db).take k

inductive Action
  | alert (text symbol : String) (createdAt : IsoText)
  | cycle (cycle : Cycle)

def actionWrites : Action → List Write
  | .alert text symbol createdAt => recordAlert db (.alert text) symbol createdAt
  | .cycle cycle => cycle.done settings db

def step (db : Database) (action : Action) : Database :=
  Runs.run Database.apply db (actionWrites settings db action)

end Cycles

end AlgoTrader.Ledger
