import AlgoTrader.Ledger.Matching
import Mathlib.Data.List.Induction
import Mathlib.Data.List.Sort

/-! What a cycle writes respects the links there are. A link is only overwritten when an import finds the
outcome that an earlier, failed import recorded for the position. -/

namespace AlgoTrader.Ledger

open Database AlgoTrader.Utils.Time

variable {matchWindow : ℤ} {db : Database} {write : Write} {writes : List Write}

abbrev after (db : Database) (writes : List Write) : Database := Runs.run Database.apply db writes

abbrev AllGuarded (matchWindow : ℤ) (db : Database) (writes : List Write) : Prop :=
  Runs.Allowed Database.apply (Guarded matchWindow) db writes

/-- A write that neither overwrites a link nor records a manual outcome. -/
def Plain (db : Database) : Write → Prop
  | .insertOutcome (.manualEtoro _) _ _ => False
  | .markMatched outcomeId _ => ∀ outcome ∈ db.outcomes, outcome.id = outcomeId → outcome.matchedPositionId = none
  | _ => True

def Tidy (db : Database) : Prop :=
  ∀ outcome ∈ db.outcomes, ∀ positionId, outcome.alertId = .manualEtoro positionId →
    outcome.matchedPositionId = some positionId

def Linked (db : Database) (id : ℕ) (positionId : ℤ) : Prop :=
  ∃ outcome ∈ db.outcomes, outcome.id = id ∧ outcome.matchedPositionId = some positionId

instance (id : ℕ) (positionId : ℤ) : Decidable (Linked db id positionId) :=
  inferInstanceAs (Decidable (∃ outcome ∈ db.outcomes, _))

section Latest

variable {snapshots : List Snapshot} {snapshot : Snapshot}

lemma latestOf_concat (snapshots : List Snapshot) (last : Snapshot) :
    latestOf (snapshots ++ [last]) =
      match latestOf snapshots with
      | none => some last
      | some best => if best.snapshotTs ≤ last.snapshotTs then some last else some best := by
  rw [latestOf, List.foldl_append]
  rfl

lemma mem_of_latestOf (h : latestOf snapshots = some snapshot) : snapshot ∈ snapshots := by
  induction snapshots using List.reverseRecOn with
  | nil => cases h
  | append_singleton rest last ih =>
    rw [latestOf_concat] at h
    cases hbest : latestOf rest with
    | none =>
      rw [hbest] at h
      exact List.mem_append_right _ (List.mem_singleton.mpr (Option.some.inj h).symm)
    | some best =>
      rw [hbest] at h
      dsimp only at h
      split_ifs at h with hle
      · exact List.mem_append_right _ (List.mem_singleton.mpr (Option.some.inj h).symm)
      · exact List.mem_append_left _ (ih (hbest.trans h))

end Latest

lemma allowed_mono {P Q : Database → Write → Prop} (h : ∀ db write, P db write → Q db write)
    (hall : Runs.Allowed Database.apply P db writes) : Runs.Allowed Database.apply Q db writes := by
  induction writes generalizing db with
  | nil => trivial
  | cons write rest ih => exact ⟨h db write hall.1, ih hall.2⟩

lemma rewriteBy_other {outcomeId : ℕ} {position : Position} {outcome : Outcome} (h : outcome.id ≠ outcomeId) :
    rewriteBy (.markMatched outcomeId position) outcome = outcome := if_neg h

section Matching

lemma bestPosition_eq_some {outcome : Outcome} {positions : List Position} {best : Position}
    (h : bestPosition matchWindow db outcome positions = some best) :
    best ∈ positions ∧ ¬ db.PositionMatched best.positionId ∧ MatchedInWindow matchWindow outcome best := by
  unfold bestPosition at h
  cases htime : outcome.alertCreatedAt.time with
  | none =>
    rw [htime] at h
    cases h
  | some alertTs =>
    rw [htime] at h
    have hmem := List.minOn?_mem h
    obtain ⟨hin, hcandidate⟩ := List.mem_filter.mp hmem
    obtain ⟨hsymbol, hfree, openTs, hopen, hwindow⟩ := of_decide_eq_true hcandidate
    exact ⟨hin, hfree, hsymbol, alertTs, htime, openTs, hopen, hwindow⟩

lemma matchPending_allowed (hwell : WellLinked matchWindow db) {positions : List Position}
    (hlisted : ∀ position ∈ positions, Listed db position) {pending : List Outcome}
    (hpending : ∀ outcome ∈ pending, outcome ∈ db.outcomes ∧ outcome.status = .pendingMatch)
    (hnodup : (pending.map (·.id)).Nodup) :
    Runs.Allowed Database.apply (fun db write => Guarded matchWindow db write ∧ Plain db write) db
      (matchPending matchWindow positions db pending) := by
  induction pending generalizing db with
  | nil => trivial
  | cons outcome rest ih =>
    obtain ⟨hmem, hstatus⟩ := hpending outcome List.mem_cons_self
    rw [List.map_cons, List.nodup_cons] at hnodup
    unfold matchPending
    cases hbest : bestPosition matchWindow db outcome positions with
    | none => exact ih hwell hlisted (fun o ho => hpending o (List.mem_cons_of_mem _ ho)) hnodup.2
    | some best =>
      obtain ⟨hin, hfree, hwindow⟩ := bestPosition_eq_some hbest
      have hguard : Guarded matchWindow db (.markMatched outcome.id best) :=
        ⟨hfree, hlisted best hin, outcome, hmem, rfl, .inl hwindow⟩
      refine ⟨⟨hguard, ?_⟩, ih (hwell.apply hguard) ?_ ?_ hnodup.2⟩
      · intro other hother hid
        rw [hwell.eq_of_id hother hmem hid]
        exact hwell.pending_free outcome hmem hstatus
      · intro position hposition
        obtain ⟨snapshot, hsnapshot, hposition⟩ := hlisted position hposition
        exact ⟨snapshot, snapshots_apply db _ hsnapshot, hposition⟩
      · intro other hother
        obtain ⟨hmemOther, hstatusOther⟩ := hpending other (List.mem_cons_of_mem _ hother)
        have hne : other.id ≠ outcome.id := fun heq => hnodup.1 (heq ▸ List.mem_map_of_mem hother)
        refine ⟨?_, hstatusOther⟩
        rw [outcomes_apply, ← rewriteBy_other hne]
        exact List.mem_append_left _ (List.mem_map_of_mem hmemOther)

lemma matchOpenPositions_allowed (hwell : WellLinked matchWindow db) :
    Runs.Allowed Database.apply (fun db write => Guarded matchWindow db write ∧ Plain db write) db
      (matchOpenPositions matchWindow db) := by
  unfold matchOpenPositions
  cases hlatest : db.latestSnapshot with
  | none => trivial
  | some snapshot =>
    have hperm := List.mergeSort_perm (db.outcomes.filter (·.status = .pendingMatch))
      fun a b => decide (a.alertCreatedAt.text ≤ b.alertCreatedAt.text)
    apply matchPending_allowed hwell
    · intro position hposition
      exact ⟨snapshot, mem_of_latestOf hlatest, hposition⟩
    · intro outcome houtcome
      obtain ⟨hmem, hstatus⟩ := List.mem_filter.mp (hperm.subset houtcome)
      exact ⟨hmem, of_decide_eq_true hstatus⟩
    · apply ((hperm.map (·.id)).nodup_iff).mpr
      exact hwell.ids_nodup.sublist (List.filter_sublist.map _)

end Matching

section Imports

variable {snapshot : Snapshot} {previousIds : List ℤ} {position : Position}

lemma getByAlertId_eq_some {alertId : AlertId} {outcome : Outcome} (h : db.getByAlertId alertId = some outcome) :
    outcome ∈ db.outcomes ∧ outcome.alertId = alertId :=
  ⟨List.mem_reverse.mp (List.mem_of_find?_eq_some h), by simpa using List.find?_some h⟩

/-- What an import writes for one position: nothing, the link of an outcome recorded earlier, or a new
outcome and its link. -/
lemma importPosition_cases (db : Database) (snapshot : Snapshot) (previousIds : List ℤ) (position : Position) :
    ((position.positionId ∈ previousIds ∨ db.PositionMatched position.positionId) ∧
      importPosition snapshot previousIds db position = []) ∨
    ¬ db.PositionMatched position.positionId ∧
      ((∃ outcome ∈ db.outcomes, outcome.alertId = .manualEtoro position.positionId ∧
        importPosition snapshot previousIds db position = [.markMatched outcome.id position]) ∨
      importPosition snapshot previousIds db position =
        [.insertOutcome (.manualEtoro position.positionId) (importSymbol position) (importTime snapshot position),
          .markMatched db.nextId position]) := by
  unfold importPosition
  split_ifs with hknown
  · exact .inl ⟨hknown, rfl⟩
  · refine .inr ⟨(not_or.mp hknown).2, ?_⟩
    unfold recordAlert
    cases hrow : db.getByAlertId (.manualEtoro position.positionId) with
    | none =>
      right
      dsimp only
      rw [hrow]
      rfl
    | some outcome =>
      obtain ⟨hmem, halert⟩ := getByAlertId_eq_some hrow
      refine .inl ⟨outcome, hmem, halert, ?_⟩
      dsimp only
      rw [hrow]
      rfl

lemma mem_inserted (db : Database) (alertId : AlertId) (symbol : String) (alertCreatedAt : IsoText) :
    (⟨db.nextId, alertId, symbol.toUpper, alertCreatedAt, .pendingMatch, none, none⟩ : Outcome) ∈
      (db.apply (.insertOutcome alertId symbol alertCreatedAt)).outcomes :=
  List.mem_append_right _ (List.mem_singleton.mpr rfl)

lemma not_positionMatched_insert {alertId : AlertId} {symbol : String} {alertCreatedAt : IsoText} {positionId : ℤ}
    (h : ¬ db.PositionMatched positionId) :
    ¬ (db.apply (.insertOutcome alertId symbol alertCreatedAt)).PositionMatched positionId := by
  intro hmatched
  obtain ⟨outcome, hmem, hlink⟩ := hmatched
  rcases List.mem_append.mp hmem with hold | hnew
  · exact h ⟨outcome, hold, hlink⟩
  · rw [List.mem_singleton.mp hnew] at hlink
    cases hlink

lemma importPosition_guarded (hsnapshot : snapshot ∈ db.snapshots) (hposition : position ∈ snapshot.positions) :
    AllGuarded matchWindow db (importPosition snapshot previousIds db position) := by
  rcases importPosition_cases db snapshot previousIds position with
    ⟨_, hwrites⟩ | ⟨hfree, ⟨outcome, hmem, halert, hwrites⟩ | hwrites⟩
  · rw [hwrites]
    trivial
  · rw [hwrites]
    exact ⟨⟨hfree, ⟨snapshot, hsnapshot, hposition⟩, outcome, hmem, rfl, .inr halert⟩, trivial⟩
  · rw [hwrites]
    refine ⟨⟨snapshot, hsnapshot, position, hposition, rfl, rfl, rfl⟩, ?_, trivial⟩
    exact ⟨not_positionMatched_insert hfree, ⟨snapshot, hsnapshot, hposition⟩, _,
      mem_inserted db _ _ _, rfl, .inr rfl⟩

lemma snapshots_after (db : Database) (writes : List Write) (h : snapshot ∈ db.snapshots) :
    snapshot ∈ (after db writes).snapshots :=
  Runs.invariant_of_step (I := fun db => snapshot ∈ db.snapshots)
    (fun db write hdb => snapshots_apply db write hdb) h writes

lemma importPositions_guarded {positions : List Position} (hsnapshot : snapshot ∈ db.snapshots)
    (hpositions : ∀ position ∈ positions, position ∈ snapshot.positions) :
    AllGuarded matchWindow db (importPositions snapshot previousIds db positions) := by
  induction positions generalizing db with
  | nil => trivial
  | cons position rest ih =>
    refine Runs.allowed_append.mpr ⟨importPosition_guarded hsnapshot (hpositions _ List.mem_cons_self), ?_⟩
    apply ih (snapshots_after db _ hsnapshot)
    intro other hother
    exact hpositions other (List.mem_cons_of_mem _ hother)

lemma importNewManualPositions_guarded (hsnapshot : snapshot ∈ db.snapshots) :
    AllGuarded matchWindow db (importNewManualPositions snapshot db) := by
  unfold importNewManualPositions
  cases db.snapshotBefore snapshot.snapshotTs with
  | none => trivial
  | some previous => exact importPositions_guarded hsnapshot fun _ h => h

end Imports

section Whole

variable {settings : Settings} {cycle : Cycle}

lemma refreshClosed_plain (classify : Outcome → ClosedStatus) (db start : Database) :
    Runs.Allowed Database.apply Plain start (refreshClosedOutcomes classify db) := by
  unfold refreshClosedOutcomes
  cases db.latestSnapshot with
  | none => trivial
  | some latest =>
    dsimp only
    generalize db.listOpenOutcomes.filter _ = outcomes
    induction outcomes generalizing start with
    | nil => trivial
    | cons outcome rest ih => exact ⟨trivial, ih _⟩

lemma refreshClosed_guarded (classify : Outcome → ClosedStatus) (db start : Database) :
    AllGuarded matchWindow start (refreshClosedOutcomes classify db) := by
  unfold refreshClosedOutcomes
  cases db.latestSnapshot with
  | none => trivial
  | some latest =>
    dsimp only
    generalize db.listOpenOutcomes.filter _ = outcomes
    induction outcomes generalizing start with
    | nil => trivial
    | cons outcome rest ih => exact ⟨trivial, ih _⟩

def readWrites (settings : Settings) (cycle : Cycle) (db : Database) (positions : List Position) : List Write :=
  .expirePending cycle.cutoff ::
    (snapshotWrites settings cycle (db.apply (.expirePending cycle.cutoff)) positions ++
      refreshClosedOutcomes cycle.classify (after (db.apply (.expirePending cycle.cutoff))
        (snapshotWrites settings cycle (db.apply (.expirePending cycle.cutoff)) positions)))

lemma runCycle_cases (settings : Settings) (cycle : Cycle) (db : Database) :
    runCycle settings cycle db = [.expirePending cycle.cutoff] ∨
      ∃ positions, cycle.portfolio = some positions ∧
        runCycle settings cycle db = readWrites settings cycle db positions := by
  unfold runCycle
  dsimp only
  split_ifs with hidle
  · exact .inl rfl
  · cases hportfolio : cycle.portfolio with
    | none => exact .inl rfl
    | some positions => exact .inr ⟨positions, rfl, rfl⟩

lemma snapshotWrites_guarded (hwell : WellLinked settings.matchWindow db) (positions : List Position) :
    AllGuarded settings.matchWindow db (snapshotWrites settings cycle db positions) := by
  have hinsert : Guarded settings.matchWindow db (.insertSnapshot (cycle.snapshot positions)) := trivial
  have hmatching := allowed_mono (fun _ _ => And.left) (matchOpenPositions_allowed (hwell.apply hinsert))
  refine ⟨hinsert, Runs.allowed_append.mpr ⟨hmatching, ?_⟩⟩
  split_ifs
  · apply importNewManualPositions_guarded
    exact snapshots_after _ _ (List.mem_append_right _ (List.mem_singleton.mpr rfl))
  · trivial

theorem runCycle_guarded (hwell : WellLinked settings.matchWindow db) :
    AllGuarded settings.matchWindow db (runCycle settings cycle db) := by
  rcases runCycle_cases settings cycle db with hidle | ⟨positions, _, hwrites⟩
  · rw [hidle]
    exact ⟨trivial, trivial⟩
  · have hexpire : Guarded settings.matchWindow db (.expirePending cycle.cutoff) := trivial
    rw [hwrites]
    refine ⟨hexpire, Runs.allowed_append.mpr ⟨snapshotWrites_guarded (hwell.apply hexpire) positions, ?_⟩⟩
    exact refreshClosed_guarded _ _ _

theorem actionWrites_guarded (hwell : WellLinked settings.matchWindow db) (action : Action) :
    AllGuarded settings.matchWindow db (actionWrites settings db action) := by
  cases action with
  | alert text symbol createdAt =>
    unfold actionWrites recordAlert
    dsimp only
    split
    · trivial
    · exact ⟨trivial, trivial⟩
  | cycle cycle =>
    unfold actionWrites Cycle.done
    dsimp only
    cases cycle.failsAfter with
    | none => exact runCycle_guarded hwell
    | some k => exact (runCycle_guarded hwell).take k

lemma wellLinked_empty : WellLinked matchWindow {} where
  ids_nodup := List.nodup_nil
  ids_le := by rintro _ ⟨⟩
  pending_free := by rintro _ ⟨⟩
  linked_once := by rintro _ ⟨⟩
  link_sound := by rintro _ ⟨⟩
  recorded_for := by rintro _ ⟨⟩

theorem wellLinked_run (hwell : WellLinked settings.matchWindow db) (actions : List Action) :
    WellLinked settings.matchWindow (Runs.run (step settings) db actions) :=
  Runs.invariant_of_step (fun _ action hdb => hdb.run (actionWrites_guarded hdb action)) hwell actions

end Whole

end AlgoTrader.Ledger
