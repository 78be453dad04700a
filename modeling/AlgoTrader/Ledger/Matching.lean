import AlgoTrader.Ledger.Service
import AlgoTrader.Lib.Table
import Mathlib.Data.List.Nodup

/-! Links between outcomes and positions: at most one each way, made for the same symbol inside the
window or for the very position an outcome was recorded for, and never changed. -/

namespace AlgoTrader.Ledger

open AlgoTrader.Utils.Time

variable {db : Database} {write : Write} {writes : List Write}

namespace Database

def rewriteBy : Write → Outcome → Outcome
  | .expirePending cutoff, outcome =>
      if outcome.status = .pendingMatch ∧ outcome.alertCreatedAt.text < cutoff then
        { outcome with status := .expiredUnmatched }
      else outcome
  | .markMatched outcomeId position, outcome =>
      if outcome.id = outcomeId then
        { outcome with
          matchedPositionId := some position.positionId
          positionOpenAt := position.openDatetime
          status := .opened }
      else outcome
  | .markClosed outcomeId status, outcome =>
      if outcome.id = outcomeId then { outcome with status := .closed status } else outcome
  | _, outcome => outcome

def inserted (db : Database) : Write → List Outcome
  | .insertOutcome alertId symbol alertCreatedAt =>
      [⟨db.nextId, alertId, symbol.toUpper, alertCreatedAt, .pendingMatch, none, none⟩]
  | _ => []

lemma outcomes_apply (db : Database) (write : Write) :
    (db.apply write).outcomes = db.outcomes.map (rewriteBy write) ++ db.inserted write := by
  cases write with
  | expirePending cutoff => exact (List.append_nil _).symm
  | insertSnapshot snapshot => exact ((List.append_nil _).trans (List.map_id _)).symm
  | insertOutcome alertId symbol alertCreatedAt =>
    exact congrArg (· ++ _) (List.map_id db.outcomes).symm
  | markMatched outcomeId position => exact (List.append_nil _).symm
  | markClosed outcomeId status => exact (List.append_nil _).symm

lemma snapshots_apply (db : Database) (write : Write) {snapshot : Snapshot} (h : snapshot ∈ db.snapshots) :
    snapshot ∈ (db.apply write).snapshots := by
  cases write with
  | insertSnapshot new => exact List.mem_append_left _ h
  | _ => exact h

end Database

open Database

structure Becomes (write : Write) (before after : Outcome) : Prop where
  id : after.id = before.id
  alertId : after.alertId = before.alertId
  symbol : after.symbol = before.symbol
  alertCreatedAt : after.alertCreatedAt = before.alertCreatedAt
  link : (after.matchedPositionId = before.matchedPositionId ∧ after.positionOpenAt = before.positionOpenAt ∧
      (after.status = .pendingMatch → before.status = .pendingMatch)) ∨
    ∃ position, write = .markMatched before.id position ∧
      after.matchedPositionId = some position.positionId ∧ after.positionOpenAt = position.openDatetime ∧
        after.status = .opened

lemma becomes_rewriteBy (write : Write) (outcome : Outcome) : Becomes write outcome (rewriteBy write outcome) := by
  cases write with
  | expirePending cutoff =>
    unfold rewriteBy
    dsimp only
    split_ifs with h
    · exact ⟨rfl, rfl, rfl, rfl, .inl ⟨rfl, rfl, nofun⟩⟩
    · exact ⟨rfl, rfl, rfl, rfl, .inl ⟨rfl, rfl, id⟩⟩
  | insertSnapshot snapshot => exact ⟨rfl, rfl, rfl, rfl, .inl ⟨rfl, rfl, id⟩⟩
  | insertOutcome alertId symbol alertCreatedAt => exact ⟨rfl, rfl, rfl, rfl, .inl ⟨rfl, rfl, id⟩⟩
  | markMatched outcomeId position =>
    unfold rewriteBy
    dsimp only
    split_ifs with h
    · exact ⟨rfl, rfl, rfl, rfl, .inr ⟨position, h ▸ rfl, rfl, rfl, rfl⟩⟩
    · exact ⟨rfl, rfl, rfl, rfl, .inl ⟨rfl, rfl, id⟩⟩
  | markClosed outcomeId status =>
    unfold rewriteBy
    dsimp only
    split_ifs with h
    · exact ⟨rfl, rfl, rfl, rfl, .inl ⟨rfl, rfl, nofun⟩⟩
    · exact ⟨rfl, rfl, rfl, rfl, .inl ⟨rfl, rfl, id⟩⟩

lemma mem_apply {after : Outcome} (h : after ∈ (db.apply write).outcomes) :
    (∃ before ∈ db.outcomes, Becomes write before after) ∨
      ∃ alertId symbol alertCreatedAt, write = .insertOutcome alertId symbol alertCreatedAt ∧
        after = ⟨db.nextId, alertId, symbol.toUpper, alertCreatedAt, .pendingMatch, none, none⟩ := by
  rw [outcomes_apply] at h
  rcases List.mem_append.mp h with hold | hnew
  · obtain ⟨before, hbefore, rfl⟩ := List.mem_map.mp hold
    exact .inl ⟨before, hbefore, becomes_rewriteBy write before⟩
  · cases write with
    | insertOutcome alertId symbol alertCreatedAt =>
      exact .inr ⟨alertId, symbol, alertCreatedAt, rfl, List.mem_singleton.mp hnew⟩
    | _ => cases hnew

lemma becomes_mem {before : Outcome} (h : before ∈ db.outcomes) :
    ∃ after ∈ (db.apply write).outcomes, Becomes write before after := by
  refine ⟨rewriteBy write before, ?_, becomes_rewriteBy write before⟩
  rw [outcomes_apply]
  exact List.mem_append_left _ (List.mem_map_of_mem h)

variable (matchWindow : ℤ)

def MatchedInWindow (outcome : Outcome) (position : Position) : Prop :=
  position.symbol.toUpper = outcome.symbol.toUpper ∧
    ∃ alertTs ∈ outcome.alertCreatedAt.time, ∃ openTs ∈ openTime position, InWindow matchWindow alertTs openTs

instance (outcome : Outcome) (position : Position) : Decidable (MatchedInWindow matchWindow outcome position) :=
  inferInstanceAs (Decidable (_ ∧ _))

/-- A link to a position the broker listed: for the same symbol inside the window, or of the outcome that
was recorded for this position. -/
def LinkSound (db : Database) (outcome : Outcome) (positionId : ℤ) : Prop :=
  ∃ snapshot ∈ db.snapshots, ∃ position ∈ snapshot.positions, position.positionId = positionId ∧
    outcome.positionOpenAt = position.openDatetime ∧
      (MatchedInWindow matchWindow outcome position ∨ outcome.alertId = .manualEtoro positionId)

/-- The outcome of a manual import has the position's symbol, or its instrument id, and its open time,
or the snapshot's. -/
def RecordedFor (db : Database) (outcome : Outcome) (positionId : ℤ) : Prop :=
  ∃ snapshot ∈ db.snapshots, ∃ position ∈ snapshot.positions, position.positionId = positionId ∧
    outcome.symbol = (importSymbol position).toUpper ∧ outcome.alertCreatedAt = importTime snapshot position

structure WellLinked (db : Database) : Prop where
  ids_nodup : (db.outcomes.map (·.id)).Nodup
  ids_le : ∀ outcome ∈ db.outcomes, outcome.id ≤ db.outcomes.length
  pending_free : ∀ outcome ∈ db.outcomes, outcome.status = .pendingMatch → outcome.matchedPositionId = none
  linked_once : ∀ a ∈ db.outcomes, ∀ b ∈ db.outcomes, ∀ positionId,
    a.matchedPositionId = some positionId → b.matchedPositionId = some positionId → a.id = b.id
  link_sound : ∀ outcome ∈ db.outcomes, ∀ positionId, outcome.matchedPositionId = some positionId →
    LinkSound matchWindow db outcome positionId
  recorded_for : ∀ outcome ∈ db.outcomes, ∀ positionId, outcome.alertId = .manualEtoro positionId →
    RecordedFor db outcome positionId

def Listed (db : Database) (position : Position) : Prop :=
  ∃ snapshot ∈ db.snapshots, position ∈ snapshot.positions

def Guarded (db : Database) : Write → Prop
  | .insertOutcome (.manualEtoro positionId) symbol alertCreatedAt =>
      ∃ snapshot ∈ db.snapshots, ∃ position ∈ snapshot.positions, position.positionId = positionId ∧
        symbol = importSymbol position ∧ alertCreatedAt = importTime snapshot position
  | .markMatched outcomeId position =>
      ¬ db.PositionMatched position.positionId ∧ Listed db position ∧
        ∃ outcome ∈ db.outcomes, outcome.id = outcomeId ∧
          (MatchedInWindow matchWindow outcome position ∨ outcome.alertId = .manualEtoro position.positionId)
  | _ => True

variable {matchWindow}

lemma WellLinked.eq_of_id (h : WellLinked matchWindow db) {a b : Outcome} (ha : a ∈ db.outcomes)
    (hb : b ∈ db.outcomes) (hid : a.id = b.id) : a = b :=
  List.inj_on_of_nodup_map h.ids_nodup ha hb hid

lemma MatchedInWindow.becomes {before after : Outcome} {position : Position}
    (hbecomes : Becomes write before after) (h : MatchedInWindow matchWindow before position) :
    MatchedInWindow matchWindow after position := by
  unfold MatchedInWindow at h ⊢
  rwa [hbecomes.symbol, hbecomes.alertCreatedAt]

lemma ids_apply_nodup (h : WellLinked matchWindow db) : ((db.apply write).outcomes.map (·.id)).Nodup := by
  have hids : (db.outcomes.map (rewriteBy write)).map (·.id) = db.outcomes.map (·.id) :=
    Table.map_key_map fun outcome _ => (becomes_rewriteBy write outcome).id
  rw [outcomes_apply, List.map_append, hids]
  apply List.Nodup.append h.ids_nodup
  · cases write <;> simp [inserted]
  · intro id hold hnew
    obtain ⟨outcome, hmem, rfl⟩ := List.mem_map.mp hold
    have hle := h.ids_le outcome hmem
    cases write with
    | insertOutcome alertId symbol alertCreatedAt =>
      simp [inserted, nextId] at hnew
      omega
    | _ => cases hnew

lemma ids_apply_le (h : WellLinked matchWindow db) :
    ∀ outcome ∈ (db.apply write).outcomes, outcome.id ≤ (db.apply write).outcomes.length := by
  intro after hafter
  rw [outcomes_apply, List.length_append, List.length_map]
  rcases mem_apply hafter with ⟨before, hbefore, hbecomes⟩ | ⟨alertId, symbol, alertCreatedAt, rfl, rfl⟩
  · rw [hbecomes.id]
    exact (h.ids_le before hbefore).trans (Nat.le_add_right _ _)
  · exact le_rfl

lemma pending_free_apply (h : WellLinked matchWindow db) : ∀ outcome ∈ (db.apply write).outcomes,
    outcome.status = .pendingMatch → outcome.matchedPositionId = none := by
  intro after hafter hpending
  rcases mem_apply hafter with ⟨before, hbefore, hbecomes⟩ | ⟨alertId, symbol, alertCreatedAt, rfl, rfl⟩
  · rcases hbecomes.link with ⟨hlink, _, hstatus⟩ | ⟨position, _, _, _, hopened⟩
    · rw [hlink]
      exact h.pending_free before hbefore (hstatus hpending)
    · cases hopened.symm.trans hpending
  · rfl

lemma linked_once_apply (h : WellLinked matchWindow db) (hguard : Guarded matchWindow db write) :
    ∀ a ∈ (db.apply write).outcomes, ∀ b ∈ (db.apply write).outcomes, ∀ positionId,
      a.matchedPositionId = some positionId → b.matchedPositionId = some positionId → a.id = b.id := by
  have hnew {after : Outcome} {positionId : ℤ} (hafter : after ∈ (db.apply write).outcomes)
      (hlink : after.matchedPositionId = some positionId) : ∃ before ∈ db.outcomes, after.id = before.id ∧
        (before.matchedPositionId = some positionId ∨
          ∃ position, write = .markMatched before.id position ∧ position.positionId = positionId) := by
    rcases mem_apply hafter with ⟨before, hbefore, hbecomes⟩ | ⟨_, _, _, _, rfl⟩
    · refine ⟨before, hbefore, hbecomes.id, ?_⟩
      rcases hbecomes.link with ⟨hsame, _⟩ | ⟨position, hwrite, hmarked, _⟩
      · exact .inl (hsame ▸ hlink)
      · exact .inr ⟨position, hwrite, Option.some.inj (hmarked.symm.trans hlink)⟩
    · cases hlink
  intro a ha b hb positionId hla hlb
  obtain ⟨a', ha', hida, hlinka⟩ := hnew ha hla
  obtain ⟨b', hb', hidb, hlinkb⟩ := hnew hb hlb
  rw [hida, hidb]
  rcases hlinka with hlinka | ⟨position, hwrite, hposition⟩
  · rcases hlinkb with hlinkb | ⟨position, hwrite, hposition⟩
    · exact h.linked_once a' ha' b' hb' positionId hlinka hlinkb
    · rw [hwrite] at hguard
      exact absurd ⟨a', ha', hposition ▸ hlinka⟩ hguard.1
  · rcases hlinkb with hlinkb | ⟨other, hother, _⟩
    · rw [hwrite] at hguard
      exact absurd ⟨b', hb', hposition ▸ hlinkb⟩ hguard.1
    · exact (Write.markMatched.inj (hwrite.symm.trans hother)).1

lemma link_sound_apply (h : WellLinked matchWindow db) (hguard : Guarded matchWindow db write) :
    ∀ outcome ∈ (db.apply write).outcomes, ∀ positionId, outcome.matchedPositionId = some positionId →
      LinkSound matchWindow (db.apply write) outcome positionId := by
  intro after hafter positionId hlink
  rcases mem_apply hafter with ⟨before, hbefore, hbecomes⟩ | ⟨_, _, _, _, rfl⟩
  · rcases hbecomes.link with ⟨hsame, hopen, _⟩ | ⟨position, rfl, hmarked, hopen, _⟩
    · obtain ⟨snapshot, hsnapshot, position, hposition, hid, hat, hwhy⟩ :=
        h.link_sound before hbefore positionId (hsame ▸ hlink)
      refine ⟨snapshot, snapshots_apply db write hsnapshot, position, hposition, hid, hopen.trans hat, ?_⟩
      exact hwhy.imp (MatchedInWindow.becomes hbecomes) fun hmanual => hbecomes.alertId.trans hmanual
    · obtain ⟨_, ⟨snapshot, hsnapshot, hposition⟩, outcome, houtcome, hid, hwhy⟩ := hguard
      have hpositionId : position.positionId = positionId := Option.some.inj (hmarked.symm.trans hlink)
      refine ⟨snapshot, snapshots_apply db _ hsnapshot, position, hposition, hpositionId, hopen, ?_⟩
      rw [h.eq_of_id houtcome hbefore hid] at hwhy
      rw [← hpositionId]
      exact hwhy.imp (MatchedInWindow.becomes hbecomes) fun hmanual => hbecomes.alertId.trans hmanual
  · cases hlink

lemma recorded_for_apply (h : WellLinked matchWindow db) (hguard : Guarded matchWindow db write) :
    ∀ outcome ∈ (db.apply write).outcomes, ∀ positionId, outcome.alertId = .manualEtoro positionId →
      RecordedFor (db.apply write) outcome positionId := by
  intro after hafter positionId hmanual
  rcases mem_apply hafter with ⟨before, hbefore, hbecomes⟩ | ⟨alertId, symbol, alertCreatedAt, rfl, rfl⟩
  · obtain ⟨snapshot, hsnapshot, position, hposition, hid, hsymbol, hat⟩ :=
      h.recorded_for before hbefore positionId (hbecomes.alertId.symm.trans hmanual)
    exact ⟨snapshot, snapshots_apply db write hsnapshot, position, hposition, hid,
      hbecomes.symbol.trans hsymbol, hbecomes.alertCreatedAt.trans hat⟩
  · change alertId = .manualEtoro positionId at hmanual
    subst hmanual
    obtain ⟨snapshot, hsnapshot, position, hposition, hid, hsymbol, hat⟩ := hguard
    exact ⟨snapshot, snapshots_apply db _ hsnapshot, position, hposition, hid, hsymbol ▸ rfl, hat⟩

theorem WellLinked.apply (h : WellLinked matchWindow db) (hguard : Guarded matchWindow db write) :
    WellLinked matchWindow (db.apply write) where
  ids_nodup := ids_apply_nodup h
  ids_le := ids_apply_le h
  pending_free := pending_free_apply h
  linked_once := linked_once_apply h hguard
  link_sound := link_sound_apply h hguard
  recorded_for := recorded_for_apply h hguard

theorem WellLinked.run (h : WellLinked matchWindow db)
    (hguard : Runs.Allowed Database.apply (Guarded matchWindow) db writes) :
    WellLinked matchWindow (Runs.run Database.apply db writes) :=
  Runs.invariant (fun _ _ hdb hwrite => hdb.apply hwrite) h hguard

end AlgoTrader.Ledger
