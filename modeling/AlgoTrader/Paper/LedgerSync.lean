import AlgoTrader.Lib.Atomic
import AlgoTrader.Lib.Table
import AlgoTrader.Paper.FinalFill
import Mathlib.Data.List.Nodup

/-! Syncs that may stop after any of their writes: a position's closing row and its trade are two of them. -/

namespace AlgoTrader.Paper

variable {ledger : Ledger} {known : List Position} {now : String} {record : PaperBrokerExecutionRecord}
  {position : Position} {pass : Pass}

/-- One position for each execution, one trade for each closed position, no other trades. -/
structure Consistent (ledger : Ledger) : Prop where
  ids_nodup : (ledger.positions.map (·.id)).Nodup
  ids_lt : ∀ position ∈ ledger.positions, position.id < ledger.positions.length
  one_each : ∀ a ∈ ledger.positions, ∀ b ∈ ledger.positions, ∀ executionId,
    a.executionId = some executionId → b.executionId = some executionId → a.id = b.id
  trade_closed : ∀ trade ∈ ledger.trades,
    ∃ position ∈ ledger.positions, position.id = trade.positionId ∧ position.status = .closed
  closed_once : ∀ position ∈ ledger.positions, position.status = .closed →
    (ledger.trades.filter (·.positionId = position.id)).length = 1

def ClosesRow : Write → Prop
  | .updatePosition _ => True
  | _ => False

lemma Consistent.eq_of_id (h : Consistent ledger) {a b : Position} (ha : a ∈ ledger.positions)
    (hb : b ∈ ledger.positions) (hid : a.id = b.id) : a = b :=
  List.inj_on_of_nodup_map h.ids_nodup ha hb hid

lemma Consistent.create (h : Consistent ledger) (hid : position.id = ledger.positions.length)
    (hstatus : position.status = .opened)
    (hnew : ∀ old ∈ ledger.positions, ∀ executionId, position.executionId = some executionId →
      old.executionId ≠ some executionId) : Consistent (ledger.apply (.createPosition position)) where
  ids_nodup := by
    change ((ledger.positions ++ [position]).map (·.id)).Nodup
    rw [List.map_append]
    apply List.Nodup.append h.ids_nodup (List.nodup_singleton _)
    intro id hold hlast
    obtain ⟨old, hmem, rfl⟩ := List.mem_map.mp hold
    have hlt := h.ids_lt old hmem
    have heq : old.id = position.id := List.mem_singleton.mp hlast
    rw [heq, hid] at hlt
    exact lt_irrefl _ hlt
  ids_lt := by
    intro other hother
    change other.id < (ledger.positions ++ [position]).length
    rw [List.length_append]
    rcases mem_created.mp hother with hold | rfl
    · exact Nat.lt_add_right _ (h.ids_lt other hold)
    · rw [hid]
      exact Nat.lt_succ_self _
  one_each := by
    intro a ha b hb executionId hexecA hexecB
    rcases mem_created.mp ha with holdA | rfl
    · rcases mem_created.mp hb with holdB | rfl
      · exact h.one_each a holdA b holdB executionId hexecA hexecB
      · exact absurd hexecA (hnew a holdA executionId hexecB)
    · rcases mem_created.mp hb with holdB | rfl
      · exact absurd hexecB (hnew b holdB executionId hexecA)
      · rfl
  trade_closed := by
    intro trade htrade
    obtain ⟨old, hmem, hrest⟩ := h.trade_closed trade htrade
    exact ⟨old, List.mem_append_left _ hmem, hrest⟩
  closed_once := by
    intro other hother hclosed
    rcases mem_created.mp hother with hold | rfl
    · exact h.closed_once other hold hclosed
    · cases hstatus.symm.trans hclosed

section Close

variable (exitPrice : ℚ) (outcome closedAt : String)

def closedLedger (ledger : Ledger) (position : Position) : Ledger :=
  Runs.run Ledger.apply ledger (closePosition position exitPrice outcome closedAt)

variable {exitPrice outcome closedAt}

lemma mem_closed (h : Consistent ledger) (hposition : position ∈ ledger.positions) {row : Position}
    (hrow : row ∈ (closedLedger exitPrice outcome closedAt ledger position).positions) :
    row = position.closed exitPrice closedAt ∨ row ∈ ledger.positions ∧ row.id ≠ position.id := by
  obtain ⟨old, hold, rfl⟩ := List.mem_map.mp hrow
  by_cases hid : old.id = (position.closed exitPrice closedAt).id
  · rw [if_pos hid, h.eq_of_id hold hposition hid]
    exact .inl rfl
  · rw [if_neg hid]
    exact .inr ⟨hold, hid⟩

lemma closed_mem (hposition : position ∈ ledger.positions) :
    position.closed exitPrice closedAt ∈ (closedLedger exitPrice outcome closedAt ledger position).positions := by
  refine List.mem_map.mpr ⟨position, hposition, ?_⟩
  exact if_pos rfl

lemma other_mem {other : Position} (hother : other ∈ ledger.positions) (hid : other.id ≠ position.id) :
    other ∈ (closedLedger exitPrice outcome closedAt ledger position).positions := by
  refine List.mem_map.mpr ⟨other, hother, ?_⟩
  exact if_neg hid

lemma no_trade_of_opened (h : Consistent ledger) (hposition : position ∈ ledger.positions)
    (hopened : position.status = .opened) : ledger.trades.filter (·.positionId = position.id) = [] := by
  apply List.filter_eq_nil_iff.mpr
  intro trade htrade hid
  obtain ⟨row, hrow, hrowId, hclosed⟩ := h.trade_closed trade htrade
  have heq := h.eq_of_id hrow hposition (hrowId.trans (of_decide_eq_true hid))
  rw [heq, hopened] at hclosed
  cases hclosed

lemma trades_closed : (closedLedger exitPrice outcome closedAt ledger position).trades =
    ledger.trades ++ [closingTrade position exitPrice outcome closedAt] := rfl

lemma ids_closed : (closedLedger exitPrice outcome closedAt ledger position).positions.map (·.id) =
    ledger.positions.map (·.id) := by
  unfold closedLedger closePosition
  change List.map Position.id (List.map (fun old =>
    if old.id = position.id then old.updated (position.closed exitPrice closedAt) else old) ledger.positions) = _
  exact Table.map_key_where fun _ _ => rfl

lemma Consistent.close (h : Consistent ledger) (hposition : position ∈ ledger.positions)
    (hopened : position.status = .opened) :
    Consistent (closedLedger exitPrice outcome closedAt ledger position) where
  ids_nodup := by
    rw [ids_closed]
    exact h.ids_nodup
  ids_lt := by
    have hlength : (closedLedger exitPrice outcome closedAt ledger position).positions.length =
        ledger.positions.length := List.length_map _
    intro row hrow
    rw [hlength]
    rcases mem_closed h hposition hrow with rfl | ⟨hold, _⟩
    · exact h.ids_lt position hposition
    · exact h.ids_lt row hold
  one_each := by
    have hsame {row : Position} (hrow : row ∈ (closedLedger exitPrice outcome closedAt ledger position).positions) :
        ∃ old ∈ ledger.positions, row.id = old.id ∧ row.executionId = old.executionId := by
      rcases mem_closed h hposition hrow with rfl | ⟨hold, _⟩
      · exact ⟨position, hposition, rfl, rfl⟩
      · exact ⟨row, hold, rfl, rfl⟩
    intro a ha b hb executionId hexecA hexecB
    obtain ⟨oldA, hmemA, hidA, hsameA⟩ := hsame ha
    obtain ⟨oldB, hmemB, hidB, hsameB⟩ := hsame hb
    rw [hidA, hidB]
    exact h.one_each oldA hmemA oldB hmemB executionId (hsameA.symm.trans hexecA) (hsameB.symm.trans hexecB)
  trade_closed := by
    intro trade htrade
    rw [trades_closed] at htrade
    rcases List.mem_append.mp htrade with hold | hlast
    · obtain ⟨row, hrow, hid, hclosed⟩ := h.trade_closed trade hold
      refine ⟨row, other_mem hrow ?_, hid, hclosed⟩
      intro heq
      rw [h.eq_of_id hrow hposition heq, hopened] at hclosed
      cases hclosed
    · rw [List.mem_singleton.mp hlast]
      exact ⟨_, closed_mem hposition, rfl, rfl⟩
  closed_once := by
    intro row hrow hclosed
    rw [trades_closed, List.filter_append, List.length_append, List.filter_singleton]
    rcases mem_closed h hposition hrow with rfl | ⟨hold, hne⟩
    · have hnone := no_trade_of_opened h hposition hopened
      change (ledger.trades.filter (·.positionId = position.id)).length + _ = 1
      rw [hnone]
      simp [closingTrade, Position.closed]
    · have hother : ¬ (closingTrade position exitPrice outcome closedAt).positionId = row.id := fun heq => hne heq.symm
      rw [h.closed_once row hold hclosed, decide_eq_false hother]
      rfl

end Close

abbrev KeepsConsistent (ledger : Ledger) (writes : List Write) : Prop :=
  Atomic.Keeps Ledger.apply ClosesRow Consistent ledger writes

def KnowsRows (ledger : Ledger) (known : List Position) : Prop :=
  ∀ executionId position, positionOf known executionId = some position → position ∈ ledger.positions

def KnowsAll (ledger : Ledger) (known : List Position) (record : PaperBrokerExecutionRecord) : Prop :=
  record.HasFill → ∀ position ∈ ledger.positions, position.executionId = some record.executionId →
    positionOf known record.executionId = some position

def Settled (ledger : Ledger) (record : PaperBrokerExecutionRecord) : Prop :=
  record.HasFill → ∃ position ∈ ledger.positions, position.executionId = some record.executionId ∧
    (position.status = .closed ∨ record.exitFillPrice = none)

section Record

variable {exitPrice : ℚ} {outcome closedAt : String}

lemma Consistent.keeps_close (h : Consistent ledger) (hposition : position ∈ ledger.positions)
    (hopened : position.status = .opened) :
    KeepsConsistent ledger (closePosition position exitPrice outcome closedAt) :=
  Atomic.Keeps.pair trivial h (h.close hposition hopened)

lemma Consistent.open (h : Consistent ledger) (hfill : record.HasFill) (hall : KnowsAll ledger known record)
    (hnone : positionOf known record.executionId = none) :
    Consistent (ledger.apply (.createPosition (openPosition now ledger.positions.length record))) := by
  refine h.create rfl rfl ?_
  intro old hold executionId hexecution hsame
  have hid : record.executionId = executionId := Option.some.inj hexecution
  cases hnone.symm.trans (hall hfill old hold (hid ▸ hsame))

lemma mem_opened (ledger : Ledger) (position : Position) :
    position ∈ (ledger.apply (.createPosition position)).positions :=
  mem_created.mpr (.inr rfl)

lemma SyncCase.keeps (hcase : SyncCase now ledger.positions.length known record pass) (h : Consistent ledger)
    (hrows : KnowsRows ledger known) (hall : KnowsAll ledger known record) : KeepsConsistent ledger pass.writes := by
  cases hcase with
  | unfilled _ => exact Atomic.Keeps.nil h
  | kept _ _ _ => exact Atomic.Keeps.nil h
  | closes _ hposition hopened _ => exact h.keeps_close (hrows _ _ hposition) hopened
  | opens hfill hnone _ =>
    have hone : KeepsConsistent ledger [.createPosition (openPosition now ledger.positions.length record)] :=
      Atomic.Keeps.single h (h.open hfill hall hnone)
    exact hone
  | opensAndCloses hfill hnone _ =>
    have hopened : Consistent (ledger.apply (.createPosition (openPosition now ledger.positions.length record))) :=
      h.open hfill hall hnone
    have hone : KeepsConsistent ledger [.createPosition (openPosition now ledger.positions.length record)] :=
      Atomic.Keeps.single h hopened
    exact hone.append (hopened.keeps_close (mem_opened ledger _) rfl)

lemma mem_closed_other (h : Consistent ledger) (hposition : position ∈ ledger.positions) {other : Position}
    (hne : other.executionId ≠ position.executionId) :
    other ∈ (closedLedger exitPrice outcome closedAt ledger position).positions ↔ other ∈ ledger.positions := by
  constructor
  · intro hmem
    rcases mem_closed h hposition hmem with rfl | ⟨hold, _⟩
    · exact absurd rfl hne
    · exact hold
  · intro hmem
    refine other_mem hmem ?_
    intro hid
    exact hne (congrArg Position.executionId (h.eq_of_id hmem hposition hid))

lemma mem_created_other {other : Position} (hne : other.executionId ≠ position.executionId) :
    other ∈ (ledger.apply (.createPosition position)).positions ↔ other ∈ ledger.positions := by
  constructor
  · intro hmem
    rcases mem_created.mp hmem with hold | rfl
    · exact hold
    · exact absurd rfl hne
  · exact fun hold => mem_created.mpr (.inl hold)

lemma SyncCase.mem_other (hcase : SyncCase now ledger.positions.length known record pass) (h : Consistent ledger)
    (hrows : KnowsRows ledger known) (hall : KnowsAll ledger known record) {other : Position}
    (hne : other.executionId ≠ some record.executionId) :
    other ∈ (Runs.run Ledger.apply ledger pass.writes).positions ↔ other ∈ ledger.positions := by
  cases hcase with
  | unfilled _ => exact Iff.rfl
  | kept _ _ _ => exact Iff.rfl
  | closes _ hposition _ _ =>
    exact mem_closed_other h (hrows _ _ hposition) ((positionOf_eq_some hposition).2 ▸ hne)
  | opens _ _ _ =>
    have hcreated : other ∈ (ledger.apply (.createPosition
        (openPosition now ledger.positions.length record))).positions ↔ other ∈ ledger.positions :=
      mem_created_other hne
    exact hcreated
  | opensAndCloses hfill hnone _ =>
    have hopened : Consistent (ledger.apply (.createPosition (openPosition now ledger.positions.length record))) :=
      h.open hfill hall hnone
    exact (mem_closed_other hopened (mem_opened ledger _) hne).trans (mem_created_other hne)

lemma SyncCase.settled (hcase : SyncCase now ledger.positions.length known record pass)
    (hrows : KnowsRows ledger known) : Settled (Runs.run Ledger.apply ledger pass.writes) record := by
  intro hfilled
  cases hcase with
  | unfilled hfill => exact absurd hfilled hfill
  | kept _ hposition hdone => exact ⟨_, hrows _ _ hposition, (positionOf_eq_some hposition).2, hdone⟩
  | closes _ hposition _ _ =>
    exact ⟨_, closed_mem (hrows _ _ hposition), (positionOf_eq_some hposition).2, .inl rfl⟩
  | opens _ _ hexit => exact ⟨_, mem_opened ledger _, rfl, .inr hexit⟩
  | opensAndCloses _ _ _ => exact ⟨_, closed_mem (mem_opened ledger _), rfl, .inl rfl⟩

lemma SyncCase.positionOf_self (hcase : SyncCase now ledger.positions.length known record pass)
    (hrows : KnowsRows ledger known) (hknown : positionOf pass.known record.executionId = some position) :
    position ∈ (Runs.run Ledger.apply ledger pass.writes).positions := by
  cases hcase with
  | unfilled _ => exact hrows _ _ hknown
  | kept _ _ _ => exact hrows _ _ hknown
  | closes _ hposition _ _ =>
    cases hknown.symm.trans (positionOf_last known (positionOf_eq_some hposition).2)
    exact closed_mem (hrows _ _ hposition)
  | opens _ _ _ =>
    cases hknown.symm.trans (positionOf_last known rfl)
    exact mem_opened ledger _
  | opensAndCloses _ _ _ =>
    cases hknown.symm.trans (positionOf_last _ rfl)
    exact closed_mem (mem_opened ledger _)

lemma SyncCase.knowsRows (hcase : SyncCase now ledger.positions.length known record pass) (h : Consistent ledger)
    (hrows : KnowsRows ledger known) (hall : KnowsAll ledger known record) :
    KnowsRows (Runs.run Ledger.apply ledger pass.writes) pass.known := by
  intro executionId position hknown
  by_cases hid : record.executionId = executionId
  · exact hcase.positionOf_self hrows (hid ▸ hknown)
  · rw [hcase.positionOf_other hid] at hknown
    have hne : position.executionId ≠ some record.executionId := by
      rw [(positionOf_eq_some hknown).2]
      exact fun heq => hid (Option.some.inj heq).symm
    exact (hcase.mem_other h hrows hall hne).mpr (hrows executionId position hknown)

lemma SyncCase.knowsAll (hcase : SyncCase now ledger.positions.length known record pass) (h : Consistent ledger)
    (hrows : KnowsRows ledger known) (hall : KnowsAll ledger known record) {other : PaperBrokerExecutionRecord}
    (hne : record.executionId ≠ other.executionId) (hother : KnowsAll ledger known other) :
    KnowsAll (Runs.run Ledger.apply ledger pass.writes) pass.known other := by
  intro hfill position hposition hexecution
  have hrow : position.executionId ≠ some record.executionId := by
    rw [hexecution]
    exact fun heq => hne (Option.some.inj heq).symm
  rw [hcase.positionOf_other hne]
  exact hother hfill position ((hcase.mem_other h hrows hall hrow).mp hposition) hexecution

end Record

section Loop

variable {records : List PaperBrokerExecutionRecord}

lemma Settled.of_rows {next : Ledger} (h : Settled ledger record)
    (hrows : ∀ position, position.executionId = some record.executionId →
      (position ∈ next.positions ↔ position ∈ ledger.positions)) : Settled next record := by
  intro hfill
  obtain ⟨position, hposition, hexecution, hdone⟩ := h hfill
  exact ⟨position, (hrows position hexecution).mpr hposition, hexecution, hdone⟩

structure LoopDone (ledger : Ledger) (records : List PaperBrokerExecutionRecord) (writes : List Write) : Prop where
  keeps : KeepsConsistent ledger writes
  settled : ∀ record ∈ records, Settled (Runs.run Ledger.apply ledger writes) record
  others : ∀ position : Position, (∀ record ∈ records, position.executionId ≠ some record.executionId) →
    (position ∈ (Runs.run Ledger.apply ledger writes).positions ↔ position ∈ ledger.positions)

lemma syncRecords_done (h : Consistent ledger) (hrows : KnowsRows ledger known)
    (hids : (records.map (·.executionId)).Nodup) (hall : ∀ record ∈ records, KnowsAll ledger known record) :
    LoopDone ledger records (syncRecords now ledger known records) := by
  induction records generalizing ledger known with
  | nil => exact ⟨Atomic.Keeps.nil h, nofun, fun _ _ => Iff.rfl⟩
  | cons record rest ih =>
    rw [List.map_cons, List.nodup_cons] at hids
    have hcase := syncRecord_cases now ledger.positions.length known record
    have hallFirst := hall record List.mem_cons_self
    have hkeeps := hcase.keeps h hrows hallFirst
    have hne : ∀ other ∈ rest, record.executionId ≠ other.executionId :=
      fun other hother heq => hids.1 (heq ▸ List.mem_map_of_mem hother)
    have hrest := ih hkeeps.done (hcase.knowsRows h hrows hallFirst) hids.2 fun other hother =>
      hcase.knowsAll h hrows hallFirst (hne other hother) (hall other (List.mem_cons_of_mem _ hother))
    unfold syncRecords
    refine ⟨hkeeps.append hrest.keeps, ?_, ?_⟩
    · intro other hother
      rw [Runs.run_append]
      rcases List.mem_cons.mp hother with rfl | hin
      · apply (hcase.settled hrows).of_rows
        intro position hexecution
        apply hrest.others position
        intro next hnext heq
        exact hne next hnext (Option.some.inj (hexecution.symm.trans heq))
      · exact hrest.settled other hin
    · intro position hposition
      rw [Runs.run_append]
      refine (hrest.others position fun next hnext => hposition next (List.mem_cons_of_mem _ hnext)).trans ?_
      exact hcase.mem_other h hrows hallFirst (hposition record List.mem_cons_self)

lemma syncRecords_settled
    (hall : ∀ record ∈ records, KnowsAll ledger known record) (hsettled : ∀ record ∈ records, Settled ledger record) :
    syncRecords now ledger known records = [] := by
  induction records with
  | nil => rfl
  | cons record rest ih =>
    have hpass : syncRecord now ledger.positions.length known record = { known } := by
      have hcase := syncRecord_cases now ledger.positions.length known record
      have hsettledFirst := hsettled record List.mem_cons_self
      have hallFirst := hall record List.mem_cons_self
      generalize syncRecord now ledger.positions.length known record = pass at hcase ⊢
      cases hcase with
      | unfilled _ => rfl
      | kept _ _ _ => rfl
      | closes hfill hposition hopened hexit =>
        obtain ⟨row, hrow, hexecution, hdone⟩ := hsettledFirst hfill
        cases (hallFirst hfill row hrow hexecution).symm.trans hposition
        rcases hdone with hclosed | hnone
        · cases hopened.symm.trans hclosed
        · cases hexit.symm.trans hnone
      | opens hfill hnone _ =>
        obtain ⟨row, hrow, hexecution, _⟩ := hsettledFirst hfill
        cases (hallFirst hfill row hrow hexecution).symm.trans hnone
      | opensAndCloses hfill hnone _ =>
        obtain ⟨row, hrow, hexecution, _⟩ := hsettledFirst hfill
        cases (hallFirst hfill row hrow hexecution).symm.trans hnone
    unfold syncRecords
    dsimp only
    rw [hpass]
    exact ih (fun other hother => hall other (List.mem_cons_of_mem _ hother))
      fun other hother => hsettled other (List.mem_cons_of_mem _ hother)

end Loop

structure SyncRun where
  sync : Sync
  stopsAfter : Option ℕ := none

def SyncRun.writes (action : SyncRun) (ledger : Ledger) : List Write :=
  match action.stopsAfter with
  | none => syncBrokerBackedPositions ledger action.sync
  | some k => (syncBrokerBackedPositions ledger action.sync).take k

def runSync (ledger : Ledger) (action : SyncRun) : Ledger := Runs.run Ledger.apply ledger (action.writes ledger)

/-- The rows listed hold the position of every execution the sync reads a fill of. -/
def Listed (ledger : Ledger) (sync : Sync) : Prop :=
  ∀ record ∈ sync.records, record.HasFill → ∀ position ∈ ledger.positions,
    position.executionId = some record.executionId → position ∈ ledger.list

/-- The rows listed hold the positions needed, and the sync does not stop between a position's closing row
and its trade. -/
def SafeSync (ledger : Ledger) (action : SyncRun) : Prop :=
  Listed ledger action.sync ∧ ∀ k ∈ action.stopsAfter,
    ¬ Atomic.Dangles ClosesRow ((syncBrokerBackedPositions ledger action.sync).take k)

section Sync

lemma knowsRows_listed (ledger : Ledger) : KnowsRows ledger (positionsByExecution ledger) :=
  fun _ _ hknown => mem_listed (positionOf_eq_some hknown).1

lemma knowsAll_listed (h : Consistent ledger) {sync : Sync} (hlisted : Listed ledger sync) :
    ∀ record ∈ sync.records, KnowsAll ledger (positionsByExecution ledger) record := by
  intro record hrecord hfill position hposition hexecution
  have hmem : position ∈ positionsByExecution ledger := by
    refine List.mem_filter.mpr ⟨hlisted record hrecord hfill position hposition hexecution, ?_⟩
    rw [hexecution]
    rfl
  cases hknown : positionOf (positionsByExecution ledger) record.executionId with
  | none => exact absurd hexecution (positionOf_eq_none hknown position hmem)
  | some other =>
    obtain ⟨hother, hsame⟩ := positionOf_eq_some hknown
    have hid := h.one_each other (mem_listed hother) position hposition record.executionId hsame hexecution
    exact congrArg some (h.eq_of_id (mem_listed hother) hposition hid)

lemma sync_done (h : Consistent ledger) {sync : Sync} (hlisted : Listed ledger sync) :
    LoopDone ledger sync.records (syncBrokerBackedPositions ledger sync) :=
  syncRecords_done h (knowsRows_listed ledger) (records_nodup sync) (knowsAll_listed h hlisted)

lemma consistent_runSync (h : Consistent ledger) {action : SyncRun} (hsafe : SafeSync ledger action) :
    Consistent (runSync ledger action) := by
  obtain ⟨hlisted, hstops⟩ := hsafe
  have hkeeps := (sync_done h hlisted).keeps
  unfold runSync SyncRun.writes
  cases hstop : action.stopsAfter with
  | none => exact hkeeps.done
  | some k => exact hkeeps.stopped k (hstops k hstop)

lemma runSync_twice (h : Consistent ledger) {sync : Sync} (hlisted : Listed ledger sync)
    (hagain : Listed (runSync ledger ⟨sync, none⟩) sync) :
    runSync (runSync ledger ⟨sync, none⟩) ⟨sync, none⟩ = runSync ledger ⟨sync, none⟩ := by
  have hdone := sync_done h hlisted
  have hnext : Consistent (runSync ledger ⟨sync, none⟩) := hdone.keeps.done
  have hwrites : syncBrokerBackedPositions (runSync ledger ⟨sync, none⟩) sync = [] :=
    syncRecords_settled (knowsAll_listed hnext hagain) hdone.settled
  change Runs.run Ledger.apply (runSync ledger ⟨sync, none⟩)
    (syncBrokerBackedPositions (runSync ledger ⟨sync, none⟩) sync) = _
  rw [hwrites]
  rfl

theorem ledger_sync_safe {start : Ledger} (hstart : Consistent start) {actions : List SyncRun}
    (hsafe : Runs.Allowed runSync SafeSync start actions) :
    Runs.Always runSync Consistent start actions ∧
      ∀ earlier sync later, actions = earlier ++ ⟨sync, none⟩ :: ⟨sync, none⟩ :: later →
        Runs.run runSync start (earlier ++ [⟨sync, none⟩, ⟨sync, none⟩]) =
          Runs.run runSync start (earlier ++ [⟨sync, none⟩]) := by
  have hstep (ledger : Ledger) (action : SyncRun) (h : Consistent ledger) (hsafe : SafeSync ledger action) :
      Consistent (runSync ledger action) := consistent_runSync h hsafe
  refine ⟨Runs.always_of_allowed hstep (fun _ h => h) hstart hsafe, ?_⟩
  rintro earlier sync later rfl
  obtain ⟨hearlier, hfirst, hsecond, _⟩ := Runs.allowed_append.mp hsafe
  have hreached : Consistent (Runs.run runSync start earlier) := Runs.invariant hstep hstart hearlier
  rw [Runs.run_append, Runs.run_append]
  exact runSync_twice hreached hfirst.1 hsecond.1

instance : DecidablePred ClosesRow
  | .updatePosition _ => isTrue trivial
  | .createPosition _ => isFalse id
  | .createTrade _ => isFalse id

instance (ledger : Ledger) (sync : Sync) : Decidable (Listed ledger sync) :=
  inferInstanceAs (Decidable (∀ record ∈ sync.records, record.HasFill → ∀ position ∈ ledger.positions, _ → _))

instance (ledger : Ledger) (action : SyncRun) : Decidable (SafeSync ledger action) :=
  inferInstanceAs (Decidable (_ ∧ ∀ k ∈ action.stopsAfter,
    ¬ ∃ write ∈ ((syncBrokerBackedPositions ledger action.sync).take k).getLast?, ClosesRow write))

def entryFilled : Sync := syncOf 100 10 none
def exitFilled : Sync := syncOf 100 10 (some 11)

lemma consistent_empty : Consistent {} where
  ids_nodup := List.nodup_nil
  ids_lt := by rintro _ ⟨⟩
  one_each := by rintro _ ⟨⟩
  trade_closed := by rintro _ ⟨⟩
  closed_once := by rintro _ ⟨⟩

-- The first sync stops before it writes anything; the last one repeats the one before it.
theorem ledger_sync_safe_close :
    Runs.Always runSync Consistent {} [⟨entryFilled, some 0⟩, ⟨entryFilled, none⟩, ⟨exitFilled, none⟩, ⟨exitFilled, none⟩] :=
  (ledger_sync_safe consistent_empty (by decide +kernel)).1

-- The sync that closes the position stops before it writes the trade. Later syncs skip the closed row.
theorem closed_without_trade :
    ¬ Consistent (Runs.run runSync {} [⟨entryFilled, none⟩, ⟨exitFilled, some 1⟩, ⟨exitFilled, none⟩]) := by
  intro h
  have hclosed : ∃ position ∈ (Runs.run runSync {} [⟨entryFilled, none⟩, ⟨exitFilled, some 1⟩,
      ⟨exitFilled, none⟩]).positions, position.status = .closed := by decide +kernel
  have htrades : (Runs.run runSync {} [⟨entryFilled, none⟩, ⟨exitFilled, some 1⟩, ⟨exitFilled, none⟩]).trades = [] := by
    decide +kernel
  obtain ⟨position, hmem, hstatus⟩ := hclosed
  have honce := h.closed_once position hmem hstatus
  rw [htrades] at honce
  cases honce

end Sync

end AlgoTrader.Paper
