import AlgoTrader.Ledger.Cycles
import AlgoTrader.Lib.Table
import Mathlib.Algebra.Order.Ring.Rat

/-! The ledger with its prices (``snapshot_portfolio``, ``refresh_closed_outcomes`` and ``_classify_outcome`` in
``app/ledger/service.py``). ``match_open_positions`` and ``import_new_manual_positions`` decide which outcome is linked
to which position; here any pair may be linked, at any time. -/

namespace AlgoTrader.Ledger.Priced

open AlgoTrader.Utils.Time

/-- An item of ``clientPortfolio.positions``. A number is missing when it cannot be read; the symbol is the one the
instrument id resolves to. -/
structure PortfolioRow where
  instrumentId : Option ℤ
  positionId : Option ℤ
  symbol : String
  isBuy : Option Bool
  openRate : Option ℚ
  units : Option ℚ
  openDatetime : Option IsoText

structure ClientPortfolio where
  credit : Option ℚ
  positions : Option (List PortfolioRow)

structure RawPortfolio where
  clientPortfolio : Option ClientPortfolio

def RawPortfolio.rows (raw : RawPortfolio) : List PortfolioRow := (raw.clientPortfolio.bind (·.positions)).getD []

/-- ``portfolio_positions`` in ``app/broker/etoro_live_backup_stop.py``. -/
def portfolioPositions (raw : RawPortfolio) : Option (List PortfolioRow) :=
  match raw.clientPortfolio with
  | none => none
  | some portfolio => if portfolio.credit = none then none else portfolio.positions

structure Position extends Ledger.Position where
  isBuy : Bool
  openRate : ℚ
  units : ℚ

def PortfolioRow.position (row : PortfolioRow) : Option Position :=
  match row.instrumentId, row.positionId with
  | some instrumentId, some positionId =>
      some { positionId, instrumentId, symbol := row.symbol, openDatetime := row.openDatetime
             isBuy := row.isBuy.getD true, openRate := row.openRate.getD 0, units := row.units.getD 0 }
  | _, _ => none

structure Snapshot where
  snapshotTs : Timestamp
  stamp : String
  raw : RawPortfolio

def Snapshot.positions (snapshot : Snapshot) : List Position := snapshot.raw.rows.filterMap (·.position)

/-- What ``mark_closed`` records. ``latest`` is bookkeeping: the snapshot the position was missing from. -/
structure Closing where
  closedAt : String
  closeRate : ℚ
  realizedPnlUsd : ℚ
  realizedRMultiple : Option ℚ
  latest : Snapshot

/-- A position's number that is not recorded is 0, as it is read. -/
structure Outcome extends Ledger.Outcome where
  alertEntryPrice : Option ℚ
  alertStop : Option ℚ
  alertTarget : Option ℚ
  matchedAt : String := ""
  positionOpenRate : ℚ := 0
  positionUnits : ℚ := 0
  positionIsBuy : Bool := false
  closing : Option Closing := none

structure Database where
  snapshots : List Snapshot := []
  outcomes : List Outcome := []

inductive Write
  | expirePending (cutoff : String)
  | insertSnapshot (snapshot : Snapshot)
  | insertOutcome (alertId : AlertId) (symbol : String) (alertCreatedAt : IsoText) (entryPrice stop target : Option ℚ)
  | markMatched (outcomeId : ℕ) (position : Position) (matchedAt : String)
  | markClosed (outcomeId : ℕ) (closing : Closing) (status : ClosedStatus)

def Outcome.expired (outcome : Outcome) (cutoff : String) : Outcome :=
  if outcome.status = .pendingMatch ∧ outcome.alertCreatedAt.text < cutoff then
    { outcome with status := .expiredUnmatched }
  else outcome

def Outcome.matched (outcome : Outcome) (position : Position) (matchedAt : String) : Outcome :=
  { outcome with
    matchedPositionId := some position.positionId
    matchedAt
    positionOpenAt := position.openDatetime
    positionOpenRate := position.openRate
    positionUnits := position.units
    positionIsBuy := position.isBuy
    status := .opened }

def Outcome.closed (outcome : Outcome) (closing : Closing) (status : ClosedStatus) : Outcome :=
  { outcome with closing := some closing, status := .closed status }

namespace Database

variable (db : Database)

def nextId : ℕ := db.outcomes.length + 1

def update (id : ℕ) (f : Outcome → Outcome) : Database :=
  { db with outcomes := db.outcomes.map fun outcome => if outcome.id = id then f outcome else outcome }

def apply : Write → Database
  | .expirePending cutoff => { db with outcomes := db.outcomes.map (·.expired cutoff) }
  | .insertSnapshot snapshot => { db with snapshots := db.snapshots ++ [snapshot] }
  | .insertOutcome alertId symbol alertCreatedAt alertEntryPrice alertStop alertTarget =>
      { db with outcomes := db.outcomes ++
          [{ id := db.nextId, alertId, symbol := symbol.toUpper, alertCreatedAt, status := .pendingMatch
             matchedPositionId := none, positionOpenAt := none, alertEntryPrice, alertStop, alertTarget }] }
  | .markMatched outcomeId position matchedAt => db.update outcomeId (·.matched position matchedAt)
  | .markClosed outcomeId closing status => db.update outcomeId (·.closed closing status)

def latestOf (snapshots : List Snapshot) : Option Snapshot :=
  snapshots.foldl (fun best snapshot =>
    match best with
    | none => some snapshot
    | some best => if best.snapshotTs ≤ snapshot.snapshotTs then some snapshot else some best) none

def latestSnapshot : Option Snapshot := latestOf db.snapshots

def getByAlertId (alertId : AlertId) : Option Outcome := db.outcomes.reverse.find? (·.alertId = alertId)

-- The latest match first.
def listOpenOutcomes : List Outcome :=
  (db.outcomes.filter (·.status = .opened)).mergeSort fun a b => decide (b.matchedAt ≤ a.matchedAt)

end Database

def sightingLimit : ℕ := 500

section Closing

variable (db : Database) (latest : Snapshot) (outcome : Outcome)

def findLastSighting (positionId : ℤ) : Option (Snapshot × Position) :=
  ((db.snapshots.reverse.insertionSort fun a b => b.snapshotTs ≤ a.snapshotTs).take sightingLimit).findSome?
    fun snapshot => (snapshot.positions.find? (·.positionId = positionId)).map fun position => (snapshot, position)

def lastSighting : Option (Snapshot × Position) := outcome.matchedPositionId.bind (findLastSighting db)

def lastOpenRate : ℚ :=
  match lastSighting db outcome with
  | some (_, position) => position.openRate
  | none => outcome.positionOpenRate

def direction (isBuy : Bool) : ℚ := if isBuy then 1 else -1

def alertEntry : ℚ :=
  match outcome.alertEntryPrice with
  | none => outcome.positionOpenRate
  | some price => if price = 0 then outcome.positionOpenRate else price

def rMultiple (close : ℚ) : Option ℚ :=
  match outcome.alertStop with
  | none => none
  | some stop =>
      if 0 < |alertEntry outcome - stop| then
        some ((close - alertEntry outcome) * direction outcome.positionIsBuy / |alertEntry outcome - stop|)
      else none

def classifyOutcome (close : ℚ) (stop target : Option ℚ) (isBuy : Bool) : ClosedStatus :=
  match stop, target with
  | some stop, some target =>
      if isBuy then
        if close ≤ stop then .stopHit else if target ≤ close then .targetHit else .closedManual
      else if stop ≤ close then .stopHit
      else if close ≤ target then .targetHit
      else .closedManual
  | _, _ => .closedManual

def closingOf : Closing where
  closedAt := ((lastSighting db outcome).map (·.1.stamp)).getD latest.stamp
  closeRate := lastOpenRate db outcome
  realizedPnlUsd := (lastOpenRate db outcome - outcome.positionOpenRate) * outcome.positionUnits *
    direction outcome.positionIsBuy
  realizedRMultiple := rMultiple outcome (lastOpenRate db outcome)
  latest

def statusOf : ClosedStatus :=
  classifyOutcome (lastOpenRate db outcome) outcome.alertStop outcome.alertTarget outcome.positionIsBuy

def Vanished : Prop :=
  outcome.status = .opened ∧
    ∃ positionId ∈ outcome.matchedPositionId, positionId ∉ latest.positions.map (·.positionId)

instance : Decidable (Vanished latest outcome) := inferInstanceAs (Decidable (_ ∧ _))

def vanished : List Outcome := db.listOpenOutcomes.filter fun outcome => Vanished latest outcome

def close : Write := .markClosed outcome.id (closingOf db latest outcome) (statusOf db outcome)

def refreshClosedOutcomes : List Write :=
  match db.latestSnapshot with
  | none => []
  | some latest => (vanished db latest).map (close db latest)

end Closing

/-- A refresh may stop after some of its writes. A portfolio read that raises leaves nothing. -/
inductive Call
  | recordAlert (alertId : AlertId) (symbol : String) (alertCreatedAt : IsoText) (entryPrice stop target : Option ℚ)
  | expireStalePending (cutoff : String)
  | snapshotPortfolio (snapshot : Snapshot)
  | markMatched (outcomeId : ℕ) (position : Position) (matchedAt : String)
  | refreshClosedOutcomes (stopsAfter : Option ℕ)

def upTo {α : Type*} (stopsAfter : Option ℕ) (l : List α) : List α :=
  match stopsAfter with
  | none => l
  | some k => l.take k

def writes (db : Database) : Call → List Write
  | .recordAlert alertId symbol alertCreatedAt entryPrice stop target =>
      match db.getByAlertId alertId with
      | some _ => []
      | none => [.insertOutcome alertId symbol alertCreatedAt entryPrice stop target]
  | .expireStalePending cutoff => [.expirePending cutoff]
  | .snapshotPortfolio snapshot => [.insertSnapshot snapshot]
  | .markMatched outcomeId position matchedAt => [.markMatched outcomeId position matchedAt]
  | .refreshClosedOutcomes stopsAfter => upTo stopsAfter (refreshClosedOutcomes db)

def step (db : Database) (call : Call) : Database := Runs.run Database.apply db (writes db call)

section Unpriced

def Snapshot.unpriced (snapshot : Snapshot) : Ledger.Snapshot :=
  ⟨snapshot.snapshotTs, snapshot.stamp, snapshot.positions.map (·.toPosition)⟩

def Database.unpriced (db : Database) : Ledger.Database :=
  ⟨db.snapshots.map (·.unpriced), db.outcomes.map (·.toOutcome)⟩

def Write.unpriced : Write → Ledger.Write
  | .expirePending cutoff => .expirePending cutoff
  | .insertSnapshot snapshot => .insertSnapshot snapshot.unpriced
  | .insertOutcome alertId symbol alertCreatedAt _ _ _ => .insertOutcome alertId symbol alertCreatedAt
  | .markMatched outcomeId position _ => .markMatched outcomeId position.toPosition
  | .markClosed outcomeId _ status => .markClosed outcomeId status

variable {db : Database}

lemma unpriced_update {id : ℕ} {f : Outcome → Outcome} {g : Ledger.Outcome → Ledger.Outcome}
    (h : ∀ outcome, (f outcome).toOutcome = g outcome.toOutcome) :
    (db.update id f).unpriced = db.unpriced.update id g := by
  rw [Database.update, Ledger.Database.update, Database.unpriced, Database.unpriced, List.map_map, List.map_map]
  congr 1
  apply List.map_congr_left
  intro outcome _
  rw [Function.comp_apply, Function.comp_apply, apply_ite Outcome.toOutcome, h]

theorem unpriced_apply (db : Database) (write : Write) :
    (db.apply write).unpriced = db.unpriced.apply write.unpriced := by
  cases write with
  | expirePending cutoff =>
    rw [Database.apply, Database.unpriced, List.map_map]
    change Ledger.Database.mk _ _ = Ledger.Database.mk _ _
    congr 1
    rw [Database.unpriced, List.map_map]
    apply List.map_congr_left
    intro outcome _
    rw [Function.comp_apply, Function.comp_apply, Outcome.expired, apply_ite Outcome.toOutcome]
  | insertSnapshot snapshot =>
    change Ledger.Database.mk ((db.snapshots ++ [snapshot]).map _) _ = _
    rw [List.map_append]
    rfl
  | insertOutcome alertId symbol alertCreatedAt entryPrice stop target =>
    change Ledger.Database.mk _ ((db.outcomes ++ [_]).map _) = Ledger.Database.mk _ (db.outcomes.map _ ++ _)
    rw [List.map_append, Ledger.Database.nextId, Database.unpriced, List.length_map]
    rfl
  | markMatched outcomeId position matchedAt => exact unpriced_update fun _ => rfl
  | markClosed outcomeId closing status => exact unpriced_update fun _ => rfl

theorem unpriced_run (db : Database) (writes : List Write) : (Runs.run Database.apply db writes).unpriced =
    Runs.run Ledger.Database.apply db.unpriced (writes.map Write.unpriced) := by
  induction writes generalizing db with
  | nil => rfl
  | cons write rest ih =>
    change (Runs.run Database.apply (db.apply write) rest).unpriced = _
    rw [ih, unpriced_apply]
    rfl

lemma unpriced_latestOf (snapshots : List Snapshot) :
    (Database.latestOf snapshots).map Snapshot.unpriced = Ledger.Database.latestOf (snapshots.map (·.unpriced)) := by
  induction snapshots using List.reverseRecOn with
  | nil => rfl
  | append_singleton rest last ih =>
    rw [List.map_append, List.map_singleton, latestOf_concat, ← ih, Database.latestOf, List.foldl_append,
      ← Database.latestOf]
    cases Database.latestOf rest with
    | none => rfl
    | some best =>
      change (if best.snapshotTs ≤ last.snapshotTs then some last else some best).map Snapshot.unpriced = _
      rw [apply_ite (Option.map Snapshot.unpriced)]
      rfl

lemma find_id (hnodup : (db.outcomes.map (·.id)).Nodup) {outcome : Outcome} (h : outcome ∈ db.outcomes) :
    db.outcomes.find? (·.id = outcome.id) = some outcome := by
  change Table.find (fun outcome : Outcome => outcome.id) db.outcomes outcome.id = some outcome
  exact Table.find_self hnodup h

lemma vanished_perm (db : Database) (latest : Snapshot) :
    (vanished db latest).Perm (db.outcomes.filter fun outcome => Vanished latest outcome) := by
  have hopened : (db.outcomes.filter (·.status = .opened)).filter (fun outcome => Vanished latest outcome) =
      db.outcomes.filter fun outcome => Vanished latest outcome := by
    rw [List.filter_filter]
    apply List.filter_congr
    intro outcome _
    rw [Bool.eq_iff_iff, Bool.and_eq_true, decide_eq_true_eq, decide_eq_true_eq]
    exact and_iff_left_of_imp And.left
  rw [← hopened]
  exact (List.mergeSort_perm _ _).filter _

lemma vanished_unpriced (db : Database) (latest : Snapshot) :
    (db.outcomes.filter fun outcome => Vanished latest outcome).map (·.toOutcome) =
      db.unpriced.listOpenOutcomes.filter fun outcome =>
        match outcome.matchedPositionId with
        | none => false
        | some positionId => positionId ∉ latest.unpriced.positions.map (·.positionId) := by
  rw [Ledger.Database.listOpenOutcomes, Database.unpriced, List.filter_map, List.filter_map, List.filter_filter]
  congr 1
  apply List.filter_congr
  intro outcome _
  rw [Bool.eq_iff_iff, Function.comp_apply, Function.comp_apply, Bool.and_eq_true, decide_eq_true_eq,
    decide_eq_true_eq, Vanished, and_comm]
  refine and_congr_left fun _ => ?_
  rw [Snapshot.unpriced, List.map_map]
  cases outcome.matchedPositionId with
  | none => simp
  | some positionId => simp

/-- The closings are those of the other ledger, which takes them in the order of the table. -/
theorem unpriced_refresh (hnodup : (db.outcomes.map (·.id)).Nodup) : ∃ classify,
    ((refreshClosedOutcomes db).map Write.unpriced).Perm (Ledger.refreshClosedOutcomes classify db.unpriced) := by
  refine ⟨fun outcome => ((db.outcomes.find? (·.id = outcome.id)).map (statusOf db)).getD .closedManual, ?_⟩
  have hlatest : db.unpriced.latestSnapshot = db.latestSnapshot.map Snapshot.unpriced :=
    (unpriced_latestOf db.snapshots).symm
  rw [refreshClosedOutcomes, Ledger.refreshClosedOutcomes, hlatest]
  cases db.latestSnapshot with
  | none => exact List.Perm.nil
  | some latest =>
    rw [Option.map_some]
    dsimp only
    refine List.Perm.trans ?_ (List.Perm.of_eq (congrArg (List.map _) (vanished_unpriced db latest)))
    rw [List.map_map, List.map_map]
    refine ((vanished_perm db latest).map _).trans (List.Perm.of_eq ?_)
    apply List.map_congr_left
    intro outcome hmem
    rw [Function.comp_apply, Function.comp_apply, find_id hnodup (List.mem_filter.mp hmem).1]
    rfl

end Unpriced

end AlgoTrader.Ledger.Priced
