import AlgoTrader.Lib.Batch
import AlgoTrader.Ledger.Outcomes
import Mathlib.Tactic.Ring

/-! Whether a closed outcome tells how its position was closed. -/

namespace AlgoTrader.Ledger.Priced

variable {db : Database} {latest : Snapshot} {outcome : Outcome} {price : ℚ}

def ReachedStop (outcome : Outcome) (price : ℚ) : Prop :=
  ∃ stop ∈ outcome.alertStop, if outcome.positionIsBuy then price ≤ stop else stop ≤ price

def ReachedTarget (outcome : Outcome) (price : ℚ) : Prop :=
  ∃ target ∈ outcome.alertTarget, if outcome.positionIsBuy then target ≤ price else price ≤ target

def HasLevels (outcome : Outcome) : Prop := outcome.alertStop ≠ none ∧ outcome.alertTarget ≠ none

lemma statusOf_eq_stopHit_iff : statusOf db outcome = .stopHit ↔
    HasLevels outcome ∧ ReachedStop outcome (lastOpenRate db outcome) := by
  rw [statusOf, HasLevels, ReachedStop]
  cases outcome.alertStop with
  | none => simp [classifyOutcome]
  | some stop =>
    cases outcome.alertTarget with
    | none => simp [classifyOutcome]
    | some target =>
      simp only [classifyOutcome]
      split_ifs with hbuy hstop htarget hstop htarget <;> simp [hstop]

lemma statusOf_eq_targetHit_iff : statusOf db outcome = .targetHit ↔
    HasLevels outcome ∧ ¬ ReachedStop outcome (lastOpenRate db outcome) ∧
      ReachedTarget outcome (lastOpenRate db outcome) := by
  rw [statusOf, HasLevels, ReachedStop, ReachedTarget]
  cases outcome.alertStop with
  | none => simp [classifyOutcome]
  | some stop =>
    cases outcome.alertTarget with
    | none => simp [classifyOutcome]
    | some target =>
      simp only [classifyOutcome]
      split_ifs with hbuy hstop htarget hstop htarget <;> simp [*]

def ShowsGone (raw : RawPortfolio) (positionId : ℤ) : Prop :=
  ∃ rows, portfolioPositions raw = some rows ∧ ∀ row ∈ rows, row.positionId ≠ some positionId

structure Reflects (outcome : Outcome) (closing : Closing) (status : ClosedStatus) (positionId : ℤ) (price : ℚ) :
    Prop where
  gone : ShowsGone closing.latest.raw positionId
  pnl : closing.realizedPnlUsd =
    direction outcome.positionIsBuy * (outcome.positionUnits * (price - outcome.positionOpenRate))
  target : status = .targetHit ↔ ReachedTarget outcome price
  stop : status = .stopHit ↔ ReachedStop outcome price

/-- The read is a portfolio, and the position's row, if it has one, carries an instrument id. -/
def ReadsWhole (raw : RawPortfolio) (positionId : ℤ) : Prop :=
  ∃ rows, portfolioPositions raw = some rows ∧
    ∀ row ∈ rows, row.positionId = some positionId → row.instrumentId ≠ none

structure ClosedAsListed (db : Database) (latest : Snapshot) (outcome : Outcome) (positionId : ℤ) (price : ℚ) :
    Prop where
  read : ReadsWhole latest.raw positionId
  rate : outcome.positionUnits = 0 ∨ lastOpenRate db outcome = price
  target : ReachedTarget outcome price ↔ HasLevels outcome ∧ ¬ ReachedStop outcome (lastOpenRate db outcome) ∧
    ReachedTarget outcome (lastOpenRate db outcome)
  stop : ReachedStop outcome price ↔ HasLevels outcome ∧ ReachedStop outcome (lastOpenRate db outcome)

lemma rows_of_portfolioPositions {raw : RawPortfolio} {rows : List PortfolioRow}
    (h : portfolioPositions raw = some rows) : raw.rows = rows := by
  rw [portfolioPositions] at h
  rw [RawPortfolio.rows]
  cases hportfolio : raw.clientPortfolio with
  | none =>
    rw [hportfolio] at h
    cases h
  | some portfolio =>
    rw [hportfolio] at h
    dsimp only at h
    split_ifs at h
    rw [Option.bind_some, h, Option.getD_some]

lemma showsGone_iff {positionId : ℤ} (hvanished : positionId ∉ latest.positions.map (·.positionId)) :
    ShowsGone latest.raw positionId ↔ ReadsWhole latest.raw positionId := by
  constructor
  · rintro ⟨rows, hrows, hgone⟩
    exact ⟨rows, hrows, fun row hrow hposition => absurd hposition (hgone row hrow)⟩
  · rintro ⟨rows, hrows, hwhole⟩
    refine ⟨rows, hrows, fun row hrow hposition => hvanished ?_⟩
    obtain ⟨instrumentId, hinstrument⟩ := Option.ne_none_iff_exists'.mp (hwhole row hrow hposition)
    rw [Snapshot.positions, rows_of_portfolioPositions hrows, List.map_filterMap, List.mem_filterMap]
    exact ⟨row, hrow, by simp [PortfolioRow.position, hinstrument, hposition]⟩

lemma direction_ne_zero (isBuy : Bool) : direction isBuy ≠ 0 := by
  cases isBuy <;> decide +kernel

theorem reflects_iff {positionId : ℤ} (hvanished : positionId ∉ latest.positions.map (·.positionId)) :
    Reflects outcome (closingOf db latest outcome) (statusOf db outcome) positionId price ↔
      ClosedAsListed db latest outcome positionId price := by
  have hpnl : (closingOf db latest outcome).realizedPnlUsd =
      direction outcome.positionIsBuy * (outcome.positionUnits * (price - outcome.positionOpenRate)) ↔
        outcome.positionUnits = 0 ∨ lastOpenRate db outcome = price := by
    have hdiff : (closingOf db latest outcome).realizedPnlUsd -
        direction outcome.positionIsBuy * (outcome.positionUnits * (price - outcome.positionOpenRate)) =
          direction outcome.positionIsBuy * (outcome.positionUnits * (lastOpenRate db outcome - price)) := by
      rw [closingOf]
      ring
    rw [← sub_eq_zero, hdiff, mul_eq_zero_iff_left (direction_ne_zero _), mul_eq_zero, sub_eq_zero]
  constructor
  · intro h
    exact ⟨(showsGone_iff hvanished).mp h.gone, hpnl.mp h.pnl, h.target.symm.trans statusOf_eq_targetHit_iff,
      h.stop.symm.trans statusOf_eq_stopHit_iff⟩
  · intro h
    exact ⟨(showsGone_iff hvanished).mpr h.read, hpnl.mpr h.rate, statusOf_eq_targetHit_iff.trans h.target.symm,
      statusOf_eq_stopHit_iff.trans h.stop.symm⟩

section Ids

def Numbered (db : Database) : Prop := db.outcomes.map (·.id) = List.range' 1 db.outcomes.length

lemma numbered_empty : Numbered {} := rfl

lemma Numbered.nodup (h : Numbered db) : (db.outcomes.map (·.id)).Nodup := by
  rw [h]
  exact List.nodup_range'

lemma Numbered.rewritten {f : Outcome → Outcome} (h : Numbered db) (hid : ∀ outcome, (f outcome).id = outcome.id) :
    Numbered { db with outcomes := db.outcomes.map f } := by
  rw [Numbered, List.length_map, ← h]
  exact Table.map_key_map fun outcome _ => hid outcome

lemma Numbered.update {f : Outcome → Outcome} {id : ℕ} (h : Numbered db)
    (hid : ∀ outcome, (f outcome).id = outcome.id) : Numbered (db.update id f) := by
  refine h.rewritten fun outcome => ?_
  rw [apply_ite (fun outcome : Outcome => outcome.id), hid, ite_self]

lemma Numbered.apply (h : Numbered db) (write : Write) : Numbered (db.apply write) := by
  cases write with
  | expirePending cutoff =>
    refine h.rewritten fun outcome => ?_
    rw [Outcome.expired, apply_ite (fun outcome : Outcome => outcome.id), ite_self]
  | insertSnapshot snapshot => exact h
  | insertOutcome alertId symbol alertCreatedAt entryPrice stop target =>
    rw [Numbered, Database.apply, List.map_append, h, List.length_append, List.length_singleton, List.range'_concat,
      Database.nextId, one_mul, Nat.add_comm]
    rfl
  | markMatched outcomeId position matchedAt => exact h.update fun _ => rfl
  | markClosed outcomeId closing status => exact h.update fun _ => rfl

lemma Numbered.step (h : Numbered db) (call : Call) : Numbered (step db call) :=
  Runs.invariant_of_step (fun _ write hdb => hdb.apply write) h _

end Ids

section Refresh

def closedBy (db : Database) (latest : Snapshot) (read row : Outcome) : Outcome :=
  row.closed (closingOf db latest read) (statusOf db read)

lemma outcomes_run_close (db start : Database) (latest : Snapshot) (batch : List Outcome) :
    (Runs.run Database.apply start (batch.map (close db latest))).outcomes =
      Batch.updateAll (·.id) (closedBy db latest) start.outcomes batch := by
  induction batch generalizing start with
  | nil => rfl
  | cons first rest ih => exact ih _

lemma upTo_map {α β : Type*} (stopsAfter : Option ℕ) (f : α → β) (l : List α) :
    upTo stopsAfter (l.map f) = (upTo stopsAfter l).map f := by
  cases stopsAfter with
  | none => rfl
  | some k => exact List.map_take.symm

lemma upTo_sublist {α : Type*} (stopsAfter : Option ℕ) (l : List α) : (upTo stopsAfter l).Sublist l := by
  cases stopsAfter with
  | none => exact List.Sublist.refl l
  | some k => exact List.take_sublist k l

lemma mem_of_mem_vanished (h : outcome ∈ vanished db latest) : outcome ∈ db.outcomes :=
  (List.mem_filter.mp ((vanished_perm db latest).mem_iff.mp h)).1

lemma mem_refresh (h : Numbered db) (hlatest : db.latestSnapshot = some latest) {stopsAfter : Option ℕ} :
    outcome ∈ (step db (.refreshClosedOutcomes stopsAfter)).outcomes ↔
      (∃ read ∈ upTo stopsAfter (vanished db latest), outcome = closedBy db latest read read) ∨
        (outcome ∈ db.outcomes ∧ outcome.id ∉ (upTo stopsAfter (vanished db latest)).map (·.id)) := by
  have hvanished : ((vanished db latest).map (·.id)).Nodup :=
    (((vanished_perm db latest).map _).nodup_iff).mpr (h.nodup.sublist (List.filter_sublist.map _))
  have hsub := upTo_sublist stopsAfter (vanished db latest)
  rw [step, writes, refreshClosedOutcomes, hlatest]
  dsimp only
  rw [upTo_map, outcomes_run_close]
  exact Batch.mem_updateAll (fun _ _ => rfl) h.nodup (hvanished.sublist (hsub.map _)) fun read hread =>
    mem_of_mem_vanished (hsub.subset hread)

end Refresh

section Run

variable (closePrice : ℤ → ℚ)

def AllReflect (db : Database) : Prop :=
  ∀ outcome ∈ db.outcomes, ∀ status, outcome.status = .closed status → ∃ positionId closing,
    outcome.matchedPositionId = some positionId ∧ outcome.closing = some closing ∧
      Reflects outcome closing status positionId (closePrice positionId)

def ClosesAsListed (db : Database) : Call → Prop
  | .refreshClosedOutcomes stopsAfter => ∀ latest, db.latestSnapshot = some latest →
      ∀ outcome ∈ upTo stopsAfter (vanished db latest), ∀ positionId, outcome.matchedPositionId = some positionId →
        ClosedAsListed db latest outcome positionId (closePrice positionId)
  | _ => True

variable {closePrice}

lemma Reflects.of_closed {closing : Closing} {status : ClosedStatus} {positionId : ℤ}
    (h : Reflects (outcome.closed closing status) closing status positionId price) :
    Reflects outcome closing status positionId price := ⟨h.gone, h.pnl, h.target, h.stop⟩

lemma Reflects.closed {closing : Closing} {status : ClosedStatus} {positionId : ℤ}
    (h : Reflects outcome closing status positionId price) :
    Reflects (outcome.closed closing status) closing status positionId price := ⟨h.gone, h.pnl, h.target, h.stop⟩

lemma vanished_position (h : outcome ∈ vanished db latest) {positionId : ℤ}
    (hposition : outcome.matchedPositionId = some positionId) :
    positionId ∉ latest.positions.map (·.positionId) := by
  obtain ⟨_, vanishedId, hvanishedId, hgone⟩ := of_decide_eq_true (List.mem_filter.mp h).2
  rw [hposition] at hvanishedId
  cases hvanishedId
  exact hgone

lemma allReflect_refresh (hnumbered : Numbered db) (hdb : AllReflect closePrice db) (stopsAfter : Option ℕ) :
    AllReflect closePrice (step db (.refreshClosedOutcomes stopsAfter)) ↔
      ClosesAsListed closePrice db (.refreshClosedOutcomes stopsAfter) := by
  cases hlatest : db.latestSnapshot with
  | none =>
    have hsame : step db (.refreshClosedOutcomes stopsAfter) = db := by
      rw [step, writes, refreshClosedOutcomes, hlatest]
      cases stopsAfter with
      | none => rfl
      | some k => rw [upTo, List.take_nil]; rfl
    rw [hsame]
    refine iff_of_true hdb fun latest hsome => ?_
    rw [hlatest] at hsome
    cases hsome
  | some latest =>
    constructor
    · intro h latest' hsome read hread positionId hposition
      rw [hlatest] at hsome
      cases hsome
      have hmem := (mem_refresh hnumbered hlatest).mpr (.inl ⟨read, hread, rfl⟩)
      obtain ⟨positionId', closing, hposition', hclosing, hreflects⟩ := h _ hmem _ rfl
      cases hposition.symm.trans hposition'
      cases hclosing
      exact (reflects_iff (vanished_position ((upTo_sublist _ _).subset hread) hposition)).mp hreflects.of_closed
    · intro h outcome hmem status hstatus
      rcases (mem_refresh hnumbered hlatest).mp hmem with ⟨read, hread, rfl⟩ | ⟨hold, _⟩
      · have hvanished := (upTo_sublist _ _).subset hread
        obtain ⟨_, positionId, hposition, _⟩ := of_decide_eq_true (List.mem_filter.mp hvanished).2
        cases hstatus
        refine ⟨positionId, _, hposition, rfl, Reflects.closed ?_⟩
        exact (reflects_iff (vanished_position hvanished hposition)).mpr (h latest hlatest read hread positionId hposition)
      · exact hdb outcome hold status hstatus

def ClosesNone : Write → Prop
  | .markClosed _ _ _ => False
  | _ => True

lemma closed_before {write : Write} (hwrite : ClosesNone write) {status : ClosedStatus}
    (h : outcome ∈ (db.apply write).outcomes) (hstatus : outcome.status = .closed status) : outcome ∈ db.outcomes := by
  cases write with
  | expirePending cutoff =>
    obtain ⟨old, hold, rfl⟩ := List.mem_map.mp h
    rw [Outcome.expired] at hstatus ⊢
    split_ifs with hpending
    · rw [if_pos hpending] at hstatus
      cases hstatus
    · exact hold
  | insertSnapshot snapshot => exact h
  | insertOutcome alertId symbol alertCreatedAt entryPrice stop target =>
    rcases List.mem_append.mp h with hold | hnew
    · exact hold
    · rw [List.mem_singleton.mp hnew] at hstatus
      cases hstatus
  | markMatched outcomeId position matchedAt =>
    obtain ⟨old, hold, rfl⟩ := List.mem_map.mp h
    split_ifs with hid
    · rw [if_pos hid] at hstatus
      cases hstatus
    · exact hold
  | markClosed outcomeId closing status => exact hwrite.elim

lemma allReflect_apply (hdb : AllReflect closePrice db) (write : Write) (hwrite : ClosesNone write) :
    AllReflect closePrice (db.apply write) :=
  fun outcome hmem status hstatus => hdb outcome (closed_before hwrite hmem hstatus) status hstatus

lemma allReflect_step (hnumbered : Numbered db) (hdb : AllReflect closePrice db) (call : Call) :
    AllReflect closePrice (step db call) ↔ ClosesAsListed closePrice db call := by
  cases call with
  | recordAlert alertId symbol alertCreatedAt entryPrice stop target =>
    refine iff_of_true ?_ trivial
    rw [step, writes]
    cases db.getByAlertId alertId with
    | some existing => exact hdb
    | none => exact allReflect_apply hdb (.insertOutcome alertId symbol alertCreatedAt entryPrice stop target) trivial
  | expireStalePending cutoff => exact iff_of_true (allReflect_apply hdb (.expirePending cutoff) trivial) trivial
  | snapshotPortfolio snapshot => exact iff_of_true (allReflect_apply hdb (.insertSnapshot snapshot) trivial) trivial
  | markMatched outcomeId position matchedAt =>
    exact iff_of_true (allReflect_apply hdb (.markMatched outcomeId position matchedAt) trivial) trivial
  | refreshClosedOutcomes stopsAfter => exact allReflect_refresh hnumbered hdb stopsAfter

theorem outcomes_reflect_close_iff (closePrice : ℤ → ℚ) (calls : List Call) :
    Runs.Always step (AllReflect closePrice) {} calls ↔ Runs.Allowed step (ClosesAsListed closePrice) {} calls :=
  Runs.always_iff_allowed (I := Numbered) (fun _ call hdb => hdb.step call)
    (fun _ call hnumbered hdb => allReflect_step hnumbered hdb call) numbered_empty (by rintro _ ⟨⟩) calls

end Run

section Example

def listedRow : PortfolioRow where
  instrumentId := some 1001
  positionId := some 5
  symbol := "AAPL"
  isBuy := some true
  openRate := some 100
  units := some 10
  openDatetime := none

def portfolio (rows : List PortfolioRow) : RawPortfolio := ⟨some ⟨some 1000, some rows⟩⟩

/-- Ten AAPL bought at 100 on an alert with stop 95 and target 110, and two reads: the second is ``raw``. -/
def readTwice (raw : RawPortfolio) : List Call :=
  [.recordAlert (.alert "AAPL:1d:breakout:x:1") "AAPL" ⟨"t", some 0⟩ (some 100) (some 95) (some 110),
    .snapshotPortfolio ⟨0, "t", portfolio [listedRow]⟩] ++
  (listedRow.position.map (Call.markMatched 1 · "t")).toList ++
  [.snapshotPortfolio ⟨1, "t1", raw⟩, .refreshClosedOutcomes none]

/-- Closed at the target, the outcome is recorded without a profit and as closed by hand; an empty body closes it as
well. -/
theorem closed_without_profit_or_by_empty_read :
    ¬ Runs.Always step (AllReflect fun _ => 110) {} (readTwice (portfolio [])) ∧
      ¬ Runs.Always step (AllReflect fun _ => 100) {} (readTwice ⟨none⟩) := by
  constructor
  · intro h
    have hclosed : ∃ outcome ∈ (Runs.run step {} (readTwice (portfolio []))).outcomes,
        outcome.status = .closed .closedManual ∧ outcome.alertTarget = some 110 ∧ outcome.positionIsBuy = true := by
      decide +kernel
    obtain ⟨outcome, hmem, hstatus, htarget, hbuy⟩ := hclosed
    obtain ⟨_, _, _, _, hreflects⟩ := h.last outcome hmem _ hstatus
    have hlabel := hreflects.target.mpr ⟨110, htarget, by rw [hbuy]; exact le_refl _⟩
    cases hlabel
  · intro h
    have hclosed : ∃ outcome ∈ (Runs.run step {} (readTwice ⟨none⟩)).outcomes, outcome.status = .closed .closedManual ∧
        ∀ closing ∈ outcome.closing, (portfolioPositions closing.latest.raw).isNone := by
      decide +kernel
    obtain ⟨outcome, hmem, hstatus, hread⟩ := hclosed
    obtain ⟨_, closing, _, hclosing, hreflects⟩ := h.last outcome hmem _ hstatus
    obtain ⟨rows, hrows, _⟩ := hreflects.gone
    have hnone := hread closing hclosing
    rw [hrows] at hnone
    cases hnone

end Example

end AlgoTrader.Ledger.Priced
