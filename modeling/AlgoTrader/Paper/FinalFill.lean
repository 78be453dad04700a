import AlgoTrader.Paper.BrokerLedger

/-! The quantity and entry price of a paper trade are those of the first fill a sync saw. -/

namespace AlgoTrader.Paper

variable {ledger : Ledger} {known : List Position} {now : String} {record : PaperBrokerExecutionRecord} {nextId : ℕ}

lemma positionOf_concat (known : List Position) (position : Position) (executionId : String) :
    positionOf (known ++ [position]) executionId =
      if position.executionId = some executionId then some position else positionOf known executionId := by
  unfold positionOf
  rw [List.reverse_append, List.reverse_singleton, List.singleton_append, List.find?_cons]
  by_cases h : position.executionId = some executionId
  · rw [if_pos h, decide_eq_true h]
  · rw [if_neg h, decide_eq_false h]

lemma positionOf_last (known : List Position) {position : Position} {executionId : String}
    (h : position.executionId = some executionId) :
    positionOf (known ++ [position]) executionId = some position :=
  (positionOf_concat known position executionId).trans (if_pos h)

lemma positionOf_eq_some {executionId : String} {position : Position}
    (h : positionOf known executionId = some position) :
    position ∈ known ∧ position.executionId = some executionId :=
  ⟨List.mem_reverse.mp (List.mem_of_find?_eq_some h), by simpa using List.find?_some h⟩

lemma positionOf_eq_none {executionId : String} (h : positionOf known executionId = none) :
    ∀ position ∈ known, position.executionId ≠ some executionId := by
  intro position hmem
  simpa using List.find?_eq_none.mp h position (List.mem_reverse.mpr hmem)

lemma mem_listed {position : Position} (h : position ∈ positionsByExecution ledger) :
    position ∈ ledger.positions := by
  have hlisted := List.mem_of_mem_take (List.mem_filter.mp h).1
  exact (List.mergeSort_perm ledger.positions _).subset hlisted

inductive SyncCase (now : String) (nextId : ℕ) (known : List Position) (record : PaperBrokerExecutionRecord) :
    Pass → Prop
  | unfilled : ¬ record.HasFill → SyncCase now nextId known record { known }
  | kept {position : Position} : record.HasFill → positionOf known record.executionId = some position →
      position.status = .closed ∨ record.exitFillPrice = none → SyncCase now nextId known record { known }
  | closes {position : Position} {exitPrice : ℚ} {closedAt : String} : record.HasFill →
      positionOf known record.executionId = some position → position.status = .opened →
      record.exitFillPrice = some exitPrice →
      SyncCase now nextId known record
        { writes := closePosition position exitPrice (exitOutcome record) closedAt
          known := known ++ [position.closed exitPrice closedAt] }
  | opens : record.HasFill → positionOf known record.executionId = none → record.exitFillPrice = none →
      SyncCase now nextId known record
        { writes := [.createPosition (openPosition now nextId record)]
          known := known ++ [openPosition now nextId record] }
  | opensAndCloses {exitPrice : ℚ} {closedAt : String} : record.HasFill →
      positionOf known record.executionId = none → record.exitFillPrice = some exitPrice →
      SyncCase now nextId known record
        { writes := .createPosition (openPosition now nextId record) ::
            closePosition (openPosition now nextId record) exitPrice (exitOutcome record) closedAt
          known := known ++ [openPosition now nextId record] ++
            [(openPosition now nextId record).closed exitPrice closedAt] }

lemma syncRecord_cases (now : String) (nextId : ℕ) (known : List Position) (record : PaperBrokerExecutionRecord) :
    SyncCase now nextId known record (syncRecord now nextId known record) := by
  unfold syncRecord
  split_ifs with hfill
  · cases hposition : positionOf known record.executionId with
    | some position =>
      dsimp only
      unfold closeRecord
      cases hstatus : position.status with
      | closed => exact .kept hfill hposition (.inl hstatus)
      | opened =>
        cases hexit : record.exitFillPrice with
        | none => exact .kept hfill hposition (.inr hexit)
        | some exitPrice => exact .closes hfill hposition hstatus hexit
    | none =>
      dsimp only
      unfold closeRecord
      cases hexit : record.exitFillPrice with
      | none => exact .opens hfill hposition hexit
      | some exitPrice => exact .opensAndCloses hfill hposition hexit
  · exact .unfilled hfill

section Final

variable (final : String → ℚ × ℚ)

def FinalRow (position : Position) : Prop :=
  ∀ executionId, position.executionId = some executionId →
    position.quantity = (final executionId).1 ∧ position.entryPrice = (final executionId).2

def FinalTrade (trade : Trade) : Prop :=
  ∀ executionId, trade.executionId = some executionId →
    trade.quantity = (final executionId).1 ∧ trade.entryPrice = (final executionId).2 ∧
      trade.realizedPnlUsd =
        Rounding.toDigits 2 (pnl trade.side (final executionId).1 (final executionId).2 trade.exitPrice)

structure FinalLedger (ledger : Ledger) : Prop where
  rows : ∀ position ∈ ledger.positions, FinalRow final position
  trades : ∀ trade ∈ ledger.trades, FinalTrade final trade

def SeesFinal (record : PaperBrokerExecutionRecord) : Prop :=
  record.filledQty = (final record.executionId).1 ∧ record.entryFillPrice = some (final record.executionId).2

/-- Every execution the sync opens a position for already shows its final fill. -/
def OpensFinal (ledger : Ledger) (sync : Sync) : Prop :=
  ∀ record ∈ sync.records, record.HasFill →
    positionOf (positionsByExecution ledger) record.executionId = none → SeesFinal final record

variable {final}

lemma mem_created {row position : Position} :
    row ∈ (ledger.apply (.createPosition position)).positions ↔ row ∈ ledger.positions ∨ row = position := by
  change row ∈ ledger.positions ++ [position] ↔ _
  rw [List.mem_append, List.mem_singleton]

lemma mem_createdTrade {row trade : Trade} :
    row ∈ (ledger.apply (.createTrade trade)).trades ↔ row ∈ ledger.trades ∨ row = trade := by
  change row ∈ ledger.trades ++ [trade] ↔ _
  rw [List.mem_append, List.mem_singleton]

lemma finalLedger_create {position : Position} :
    FinalLedger final (ledger.apply (.createPosition position)) ↔ FinalLedger final ledger ∧ FinalRow final position := by
  constructor
  · intro h
    refine ⟨⟨fun old hold => h.rows old (mem_created.mpr (.inl hold)), h.trades⟩, ?_⟩
    exact h.rows position (mem_created.mpr (.inr rfl))
  · rintro ⟨h, hrow⟩
    refine ⟨?_, h.trades⟩
    intro other hother
    rcases mem_created.mp hother with hold | rfl
    · exact h.rows other hold
    · exact hrow

lemma finalLedger_update {position : Position} :
    FinalLedger final (ledger.apply (.updatePosition position)) ↔ FinalLedger final ledger := by
  have hsame (old : Position) :
      FinalRow final (if old.id = position.id then old.updated position else old) ↔ FinalRow final old := by
    split_ifs <;> exact Iff.rfl
  constructor
  · intro h
    exact ⟨fun old hold => (hsame old).mp (h.rows _ (List.mem_map_of_mem hold)), h.trades⟩
  · intro h
    refine ⟨?_, h.trades⟩
    intro row hrow
    obtain ⟨old, hold, rfl⟩ := List.mem_map.mp hrow
    exact (hsame old).mpr (h.rows old hold)

lemma finalLedger_trade {trade : Trade} :
    FinalLedger final (ledger.apply (.createTrade trade)) ↔ FinalLedger final ledger ∧ FinalTrade final trade := by
  constructor
  · intro h
    refine ⟨⟨h.rows, fun old hold => h.trades old (mem_createdTrade.mpr (.inl hold))⟩, ?_⟩
    exact h.trades trade (mem_createdTrade.mpr (.inr rfl))
  · rintro ⟨h, htrade⟩
    refine ⟨h.rows, ?_⟩
    intro other hother
    rcases mem_createdTrade.mp hother with hold | rfl
    · exact h.trades other hold
    · exact htrade

-- A row or trade that is not final stays in the ledger as it is.
lemma finalLedger_of_apply {write : Write} (h : FinalLedger final (ledger.apply write)) : FinalLedger final ledger := by
  cases write with
  | createPosition position => exact (finalLedger_create.mp h).1
  | updatePosition position => exact finalLedger_update.mp h
  | createTrade trade => exact (finalLedger_trade.mp h).1

lemma finalLedger_of_run {writes : List Write} (h : FinalLedger final (Runs.run Ledger.apply ledger writes)) :
    FinalLedger final ledger := by
  induction writes generalizing ledger with
  | nil => exact h
  | cons write rest ih => exact finalLedger_of_apply (ih h)

lemma finalTrade_of_row {position : Position} (h : FinalRow final position) (exitPrice : ℚ)
    (outcome closedAt : String) :
    FinalTrade final (closingTrade position exitPrice outcome closedAt) := by
  intro executionId hexecution
  obtain ⟨hquantity, hentry⟩ := h executionId hexecution
  refine ⟨hquantity, hentry, ?_⟩
  rw [← hquantity, ← hentry]
  rfl

lemma finalRow_open (hfill : record.HasFill) :
    FinalRow final (openPosition now nextId record) ↔ SeesFinal final record := by
  obtain ⟨price, hprice⟩ := Option.ne_none_iff_exists'.mp hfill.2
  have hentry : (openPosition now nextId record).entryPrice = price := by
    rw [openPosition, hprice]
    rfl
  constructor
  · intro h
    obtain ⟨hquantity, hfinal⟩ := h record.executionId rfl
    exact ⟨hquantity, hprice.trans (congrArg some (hentry.symm.trans hfinal))⟩
  · rintro ⟨hquantity, hfinal⟩ executionId hexecution
    cases hexecution
    exact ⟨hquantity, hentry.trans (Option.some.inj (hprice.symm.trans hfinal))⟩

lemma finalLedger_close {position : Position} (h : FinalRow final position) (exitPrice : ℚ)
    (outcome closedAt : String) :
    FinalLedger final (Runs.run Ledger.apply ledger (closePosition position exitPrice outcome closedAt)) ↔
      FinalLedger final ledger := by
  refine finalLedger_trade.trans ⟨fun hboth => finalLedger_update.mp hboth.1, fun hledger => ⟨?_, ?_⟩⟩
  · exact finalLedger_update.mpr hledger
  · exact finalTrade_of_row h exitPrice outcome closedAt

variable {pass : Pass}

lemma SyncCase.final_iff (hcase : SyncCase now nextId known record pass) (hledger : FinalLedger final ledger)
    (hknown : ∀ position ∈ known, FinalRow final position) :
    FinalLedger final (Runs.run Ledger.apply ledger pass.writes) ↔
      (record.HasFill → positionOf known record.executionId = none → SeesFinal final record) := by
  cases hcase with
  | unfilled hfill => exact ⟨fun _ hfilled => absurd hfilled hfill, fun _ => hledger⟩
  | kept _ hposition _ =>
    refine ⟨fun _ _ hnone => ?_, fun _ => hledger⟩
    cases hposition.symm.trans hnone
  | closes _ hposition _ _ =>
    have hrow := hknown _ (positionOf_eq_some hposition).1
    refine ⟨fun _ _ hnone => ?_, fun _ => (finalLedger_close hrow _ _ _).mpr hledger⟩
    cases hposition.symm.trans hnone
  | opens hfill hnone _ =>
    refine finalLedger_create.trans ⟨fun h _ _ => (finalRow_open hfill).mp h.2, fun h => ⟨hledger, ?_⟩⟩
    exact (finalRow_open hfill).mpr (h hfill hnone)
  | @opensAndCloses exitPrice closedAt hfill hnone _ =>
    constructor
    · intro h _ _
      have hclosed : FinalLedger final (Runs.run Ledger.apply
          (ledger.apply (.createPosition (openPosition now nextId record)))
          (closePosition (openPosition now nextId record) exitPrice (exitOutcome record) closedAt)) := h
      exact (finalRow_open hfill).mp (finalLedger_create.mp (finalLedger_of_run hclosed)).2
    · intro h
      have hrow : FinalRow final (openPosition now nextId record) := (finalRow_open hfill).mpr (h hfill hnone)
      exact (finalLedger_close hrow _ _ _).mpr (finalLedger_create.mpr ⟨hledger, hrow⟩)

lemma SyncCase.known_final (hcase : SyncCase now nextId known record pass)
    (hknown : ∀ position ∈ known, FinalRow final position)
    (hsees : record.HasFill → positionOf known record.executionId = none → SeesFinal final record) :
    ∀ position ∈ pass.known, FinalRow final position := by
  have hadd {old : List Position} {new : Position} (hold : ∀ position ∈ old, FinalRow final position)
      (hnew : FinalRow final new) : ∀ position ∈ old ++ [new], FinalRow final position := by
    intro position hmem
    rcases List.mem_append.mp hmem with hin | hin
    · exact hold position hin
    · rwa [List.mem_singleton.mp hin]
  cases hcase with
  | unfilled _ => exact hknown
  | kept _ _ _ => exact hknown
  | closes _ hposition _ _ =>
    have hrow := hknown _ (positionOf_eq_some hposition).1
    exact hadd hknown hrow
  | opens hfill hnone _ => exact hadd hknown ((finalRow_open hfill).mpr (hsees hfill hnone))
  | opensAndCloses hfill hnone _ =>
    have hrow : FinalRow final (openPosition now nextId record) := (finalRow_open hfill).mpr (hsees hfill hnone)
    exact hadd (hadd hknown hrow) hrow

lemma SyncCase.positionOf_other (hcase : SyncCase now nextId known record pass) {executionId : String}
    (hne : record.executionId ≠ executionId) : positionOf pass.known executionId = positionOf known executionId := by
  have hother {position : Position} (h : position.executionId = some record.executionId) :
      position.executionId ≠ some executionId := fun heq => hne (Option.some.inj (h.symm.trans heq))
  cases hcase with
  | unfilled _ => rfl
  | kept _ _ _ => rfl
  | closes _ hposition _ _ =>
    rw [positionOf_concat]
    exact if_neg (hother (positionOf_eq_some hposition).2)
  | opens _ _ _ => rw [positionOf_concat, if_neg (hother rfl)]
  | opensAndCloses _ _ _ =>
    rw [positionOf_concat, positionOf_concat, if_neg (hother rfl)]
    exact if_neg (hother rfl)

lemma syncRecords_final_iff {records : List PaperBrokerExecutionRecord}
    (hids : (records.map (·.executionId)).Nodup) (hledger : FinalLedger final ledger)
    (hknown : ∀ position ∈ known, FinalRow final position) :
    FinalLedger final (Runs.run Ledger.apply ledger (syncRecords now ledger known records)) ↔
      ∀ record ∈ records, record.HasFill → positionOf known record.executionId = none → SeesFinal final record := by
  induction records generalizing ledger known with
  | nil => exact ⟨fun _ _ => nofun, fun _ => hledger⟩
  | cons record rest ih =>
    rw [List.map_cons, List.nodup_cons] at hids
    have hcase := syncRecord_cases now ledger.positions.length known record
    have hfirst := hcase.final_iff hledger hknown
    have hsame : ∀ other ∈ rest, positionOf (syncRecord now ledger.positions.length known record).known
        other.executionId = positionOf known other.executionId := by
      intro other hother
      apply hcase.positionOf_other
      intro heq
      exact hids.1 (heq ▸ List.mem_map_of_mem hother)
    unfold syncRecords
    rw [Runs.run_append]
    constructor
    · intro h
      have hsees := hfirst.mp (finalLedger_of_run h)
      have hrest := (ih hids.2 (finalLedger_of_run h) (hcase.known_final hknown hsees)).mp h
      intro other hother
      rcases List.mem_cons.mp hother with rfl | hin
      · exact hsees
      · intro hfill hnone
        exact hrest other hin hfill ((hsame other hin).trans hnone)
    · intro h
      have hsees := h record List.mem_cons_self
      refine (ih hids.2 (hfirst.mpr hsees) (hcase.known_final hknown hsees)).mpr ?_
      intro other hother hfill hnone
      exact h other (List.mem_cons_of_mem _ hother) hfill ((hsame other hother).symm.trans hnone)

def completeSync (ledger : Ledger) (sync : Sync) : Ledger :=
  Runs.run Ledger.apply ledger (syncBrokerBackedPositions ledger sync)

lemma records_nodup (sync : Sync) : (sync.records.map (·.executionId)).Nodup := by
  unfold Sync.records brokerExecutions
  rw [List.map_map]
  exact sync.ids_nodup

theorem ledger_final_iff (final : String → ℚ × ℚ) (syncs : List Sync) :
    Runs.Always completeSync (FinalLedger final) {} syncs ↔
      Runs.Allowed completeSync (OpensFinal final) {} syncs := by
  have hstart : FinalLedger final {} :=
    ⟨fun _ hmem => absurd hmem List.not_mem_nil, fun _ hmem => absurd hmem List.not_mem_nil⟩
  refine Runs.always_iff_of_step ?_ hstart syncs
  intro ledger sync hledger
  exact syncRecords_final_iff (records_nodup sync) hledger fun position hmem => hledger.rows position (mem_listed hmem)

end Final

section Run

def buyOrder (filledQty price : ℚ) (exit : Option ℚ) : OrderPayload where
  side := "buy"
  filledQty := some filledQty
  filledAvgPrice := some price
  legs := some [⟨"sell", "limit", if exit.isSome then "filled" else "new", exit, some 11, none, ""⟩]

def syncOf (filledQty price : ℚ) (exit : Option ℚ) : Sync where
  executions := [⟨"exec", "order", "ACME", "buy", none, buyOrder filledQty price exit⟩]
  snapshots := []
  now := "2026-09-08"
  ids_nodup := List.nodup_singleton _

def partialRun : List Sync := [syncOf 40 10 none, syncOf 100 (101 / 10) none, syncOf 100 (101 / 10) (some 11)]

-- The first sync saw 40 shares at 10.00, the order filled 100 at 10.10.
theorem partial_fill_kept : ∃ trade ∈ (Runs.run completeSync {} partialRun).trades,
    trade.executionId = some "exec" ∧ trade.quantity = 40 ∧ trade.entryPrice = 10 ∧ trade.realizedPnlUsd = 40 := by
  decide +kernel

end Run

end AlgoTrader.Paper
