import AlgoTrader.Ledger.Cycles
import AlgoTrader.Lib.Atomic

/-! A link once made is kept, in every run in which no cycle fails after it recorded the outcome of an
imported position and before it linked it. -/

namespace AlgoTrader.Ledger

open Database AlgoTrader.Utils.Time

variable {matchWindow : ℤ} {db : Database} {write : Write} {writes : List Write}

def KeepsLinks (db : Database) : Write → Prop
  | .markMatched outcomeId _ => ∀ outcome ∈ db.outcomes, outcome.id = outcomeId → outcome.matchedPositionId = none
  | _ => True

lemma Plain.keepsLinks (h : Plain db write) : KeepsLinks db write := by
  cases write with
  | markMatched outcomeId position => exact h
  | _ => trivial

lemma linked_apply (hkeeps : KeepsLinks db write) {id : ℕ} {positionId : ℤ} (h : Linked db id positionId) :
    Linked (db.apply write) id positionId := by
  obtain ⟨outcome, hmem, hid, hlink⟩ := h
  obtain ⟨next, hnext, hbecomes⟩ : ∃ next ∈ (db.apply write).outcomes, Becomes write outcome next := becomes_mem hmem
  refine ⟨next, hnext, hbecomes.id.trans hid, ?_⟩
  rcases hbecomes.link with ⟨hsame, _⟩ | ⟨position, rfl, _⟩
  · exact hsame.trans hlink
  · cases (hkeeps outcome hmem rfl).symm.trans hlink

lemma linked_after (hkeeps : Runs.Allowed Database.apply KeepsLinks db writes) {id : ℕ} {positionId : ℤ}
    (h : Linked db id positionId) : Linked (after db writes) id positionId :=
  Runs.invariant (I := fun db => Linked db id positionId) (fun _ _ hdb hwrite => linked_apply hwrite hdb) h hkeeps

lemma tidy_apply (htidy : Tidy db) (hplain : Plain db write) : Tidy (db.apply write) := by
  intro next hnext positionId hmanual
  rcases mem_apply hnext with ⟨outcome, hmem, hbecomes⟩ | ⟨alertId, symbol, alertCreatedAt, rfl, rfl⟩
  · have hlink := htidy outcome hmem positionId (hbecomes.alertId.symm.trans hmanual)
    rcases hbecomes.link with ⟨hsame, _⟩ | ⟨position, rfl, _⟩
    · exact hsame.trans hlink
    · cases (hplain outcome hmem rfl).symm.trans hlink
  · change alertId = _ at hmanual
    subst hmanual
    exact hplain.elim

lemma tidy_after (htidy : Tidy db) (hplain : Runs.Allowed Database.apply Plain db writes) :
    Tidy (after db writes) :=
  Runs.invariant (fun _ _ hdb hwrite => tidy_apply hdb hwrite) htidy hplain

def RecordsImport : Write → Prop
  | .insertOutcome (.manualEtoro _) _ _ => True
  | _ => False

abbrev EndsMidImport (writes : List Write) : Prop := Atomic.Dangles RecordsImport writes

/-- Writes from a tidy ledger that keep its links and leave it tidy wherever they stop, but in the middle
of an import. -/
structure KeepsTidy (db : Database) (writes : List Write) : Prop
    extends Atomic.Keeps Database.apply RecordsImport Tidy db writes where
  links : Runs.Allowed Database.apply KeepsLinks db writes

lemma KeepsTidy.of_plain (htidy : Tidy db) (hplain : Runs.Allowed Database.apply Plain db writes) :
    KeepsTidy db writes where
  toKeeps := Atomic.Keeps.of_allowed (fun _ _ hdb hwrite => tidy_apply hdb hwrite) htidy hplain
  links := allowed_mono (fun _ _ => Plain.keepsLinks) hplain

lemma KeepsTidy.append {more : List Write} (h : KeepsTidy db writes) (hmore : KeepsTidy (after db writes) more) :
    KeepsTidy db (writes ++ more) where
  toKeeps := h.toKeeps.append hmore.toKeeps
  links := Runs.allowed_append.mpr ⟨h.links, hmore.links⟩

section Imports

variable {snapshot : Snapshot} {previousIds : List ℤ} {position : Position}

lemma mem_recorded {alertId : AlertId} {symbol : String} {alertCreatedAt : IsoText} {outcome : Outcome}
    (hwell : WellLinked matchWindow db)
    (h : outcome ∈ (db.apply (.insertOutcome alertId symbol alertCreatedAt)).outcomes) :
    (outcome ∈ db.outcomes ∧ outcome.id ≠ db.nextId) ∨
      outcome = ⟨db.nextId, alertId, symbol.toUpper, alertCreatedAt, .pendingMatch, none, none⟩ := by
  rcases List.mem_append.mp h with hold | hnew
  · exact .inl ⟨hold, Nat.ne_of_lt (Nat.lt_succ_of_le (hwell.ids_le outcome hold))⟩
  · exact .inr (List.mem_singleton.mp hnew)

lemma tidy_recorded (hwell : WellLinked matchWindow db) (htidy : Tidy db) (position : Position)
    (symbol : String) (alertCreatedAt : IsoText) :
    Tidy (after db [.insertOutcome (.manualEtoro position.positionId) symbol alertCreatedAt,
      .markMatched db.nextId position]) := by
  intro next hnext positionId hmanual
  change next ∈ ((db.apply _).apply (.markMatched db.nextId position)).outcomes at hnext
  rw [outcomes_apply] at hnext
  obtain ⟨outcome, hmem, rfl⟩ := List.mem_map.mp ((List.append_nil _) ▸ hnext)
  rcases mem_recorded hwell hmem with ⟨hold, hne⟩ | rfl
  · rw [rewriteBy_other hne] at hmanual ⊢
    exact htidy outcome hold positionId hmanual
  · have hmarked : rewriteBy (.markMatched db.nextId position)
        ⟨db.nextId, .manualEtoro position.positionId, symbol.toUpper, alertCreatedAt, .pendingMatch, none, none⟩ =
        ⟨db.nextId, .manualEtoro position.positionId, symbol.toUpper, alertCreatedAt, .opened,
          some position.positionId, position.openDatetime⟩ := if_pos rfl
    rw [hmarked] at hmanual ⊢
    exact congrArg some (AlertId.manualEtoro.inj hmanual)

lemma recorded_keepsTidy (hwell : WellLinked matchWindow db) (htidy : Tidy db) (position : Position)
    (symbol : String) (alertCreatedAt : IsoText) :
    KeepsTidy db [.insertOutcome (.manualEtoro position.positionId) symbol alertCreatedAt,
      .markMatched db.nextId position] where
  toKeeps := Atomic.Keeps.pair trivial htidy (tidy_recorded hwell htidy position symbol alertCreatedAt)
  links := by
    refine ⟨trivial, ?_, trivial⟩
    intro outcome hmem hid
    rcases mem_recorded hwell hmem with ⟨_, hne⟩ | rfl
    · exact absurd hid hne
    · rfl

lemma importPosition_keepsTidy (hwell : WellLinked matchWindow db) (htidy : Tidy db) :
    KeepsTidy db (importPosition snapshot previousIds db position) := by
  rcases importPosition_cases db snapshot previousIds position with
    ⟨_, hwrites⟩ | ⟨hfree, ⟨outcome, hmem, halert, _⟩ | hwrites⟩
  · rw [hwrites]
    exact KeepsTidy.of_plain htidy trivial
  · exact absurd ⟨outcome, hmem, htidy outcome hmem _ halert⟩ hfree
  · rw [hwrites]
    exact recorded_keepsTidy hwell htidy position _ _

lemma importPositions_keepsTidy (hwell : WellLinked matchWindow db) (htidy : Tidy db) {positions : List Position}
    (hsnapshot : snapshot ∈ db.snapshots) (hpositions : ∀ position ∈ positions, position ∈ snapshot.positions) :
    KeepsTidy db (importPositions snapshot previousIds db positions) := by
  induction positions generalizing db with
  | nil => exact KeepsTidy.of_plain htidy trivial
  | cons position rest ih =>
    have hfirst : KeepsTidy db (importPosition snapshot previousIds db position) :=
      importPosition_keepsTidy hwell htidy
    refine hfirst.append (ih ?_ hfirst.done (snapshots_after db _ hsnapshot) ?_)
    · exact hwell.run (importPosition_guarded hsnapshot (hpositions position List.mem_cons_self))
    · intro other hother
      exact hpositions other (List.mem_cons_of_mem _ hother)

end Imports

section Whole

variable {settings : Settings}

def matchedWrites (settings : Settings) (db : Database) (snapshot : Snapshot) : List Write :=
  .insertSnapshot snapshot :: matchOpenPositions settings.matchWindow (db.apply (.insertSnapshot snapshot))

lemma snapshotWrites_append (settings : Settings) (cycle : Cycle) (db : Database) (positions : List Position) :
    snapshotWrites settings cycle db positions = matchedWrites settings db (cycle.snapshot positions) ++
      if settings.trackManualPositions then
        importNewManualPositions (cycle.snapshot positions)
          (after db (matchedWrites settings db (cycle.snapshot positions)))
      else [] := rfl

lemma matchedWrites_allowed (hwell : WellLinked settings.matchWindow db) (snapshot : Snapshot) :
    Runs.Allowed Database.apply (fun db write => Guarded settings.matchWindow db write ∧ Plain db write) db
      (matchedWrites settings db snapshot) := by
  have hinsert : Guarded settings.matchWindow db (.insertSnapshot snapshot) := trivial
  exact ⟨⟨hinsert, trivial⟩, matchOpenPositions_allowed (hwell.apply hinsert)⟩

lemma matchedWrites_wellLinked (hwell : WellLinked settings.matchWindow db) (snapshot : Snapshot) :
    WellLinked settings.matchWindow (after db (matchedWrites settings db snapshot)) :=
  hwell.run (allowed_mono (fun _ _ => And.left) (matchedWrites_allowed hwell snapshot))

lemma matchedWrites_keepsTidy (hwell : WellLinked settings.matchWindow db) (htidy : Tidy db)
    (snapshot : Snapshot) : KeepsTidy db (matchedWrites settings db snapshot) :=
  KeepsTidy.of_plain htidy (allowed_mono (fun _ _ => And.right) (matchedWrites_allowed hwell snapshot))

lemma mem_matched (settings : Settings) (db : Database) (snapshot : Snapshot) :
    snapshot ∈ (after db (matchedWrites settings db snapshot)).snapshots := by
  have hinserted : snapshot ∈ (db.apply (.insertSnapshot snapshot)).snapshots :=
    List.mem_append_right _ (List.mem_singleton.mpr rfl)
  exact snapshots_after _ (matchOpenPositions settings.matchWindow _) hinserted

lemma snapshotWrites_keepsTidy (hwell : WellLinked settings.matchWindow db) (htidy : Tidy db) (cycle : Cycle)
    (positions : List Position) : KeepsTidy db (snapshotWrites settings cycle db positions) := by
  have hmatched := matchedWrites_keepsTidy hwell htidy (cycle.snapshot positions)
  rw [snapshotWrites_append]
  refine hmatched.append ?_
  split_ifs
  · unfold importNewManualPositions
    split
    · exact KeepsTidy.of_plain hmatched.done trivial
    · exact importPositions_keepsTidy (matchedWrites_wellLinked hwell _) hmatched.done (mem_matched _ _ _) fun _ h => h
  · exact KeepsTidy.of_plain hmatched.done trivial

lemma tidy_expired (htidy : Tidy db) (cutoff : String) : KeepsTidy db [.expirePending cutoff] :=
  KeepsTidy.of_plain htidy ⟨trivial, trivial⟩

lemma readWrites_keepsTidy (hwell : WellLinked settings.matchWindow db) (htidy : Tidy db) (cycle : Cycle)
    (positions : List Position) : KeepsTidy db (readWrites settings cycle db positions) := by
  have hexpire : Guarded settings.matchWindow db (.expirePending cycle.cutoff) := trivial
  have hfirst := tidy_expired htidy cycle.cutoff
  have hsecond := snapshotWrites_keepsTidy (hwell.apply hexpire) hfirst.done cycle positions
  refine hfirst.append (hsecond.append ?_)
  exact KeepsTidy.of_plain hsecond.done (refreshClosed_plain _ _ _)

theorem runCycle_keepsTidy (hwell : WellLinked settings.matchWindow db) (htidy : Tidy db) (cycle : Cycle) :
    KeepsTidy db (runCycle settings cycle db) := by
  rcases runCycle_cases settings cycle db with hidle | ⟨positions, _, hwrites⟩
  · rw [hidle]
    exact tidy_expired htidy cycle.cutoff
  · rw [hwrites]
    exact readWrites_keepsTidy hwell htidy cycle positions

lemma recordAlert_plain (db : Database) (text symbol : String) (createdAt : IsoText) :
    Runs.Allowed Database.apply Plain db (recordAlert db (.alert text) symbol createdAt) := by
  unfold recordAlert
  split
  · trivial
  · exact ⟨trivial, trivial⟩

/-- The cycle fails after it recorded the outcome of an import and before it linked it. -/
def SplitsImport (settings : Settings) (db : Database) : Action → Prop
  | .alert _ _ _ => False
  | .cycle cycle => ∃ k ∈ cycle.failsAfter, EndsMidImport ((runCycle settings cycle db).take k)

lemma tidy_step (hwell : WellLinked settings.matchWindow db) (htidy : Tidy db) {action : Action}
    (h : ¬ SplitsImport settings db action) : Tidy (step settings db action) := by
  cases action with
  | alert text symbol createdAt => exact tidy_after htidy (recordAlert_plain db text symbol createdAt)
  | cycle cycle =>
    have hcycle := runCycle_keepsTidy hwell htidy cycle
    unfold step actionWrites Cycle.done
    cases hfails : cycle.failsAfter with
    | none =>
      dsimp only
      rw [hfails]
      exact hcycle.done
    | some k =>
      dsimp only
      rw [hfails]
      exact hcycle.stopped k fun hmid => h ⟨k, hfails, hmid⟩

lemma linked_step (hwell : WellLinked settings.matchWindow db) (htidy : Tidy db) (action : Action) {id : ℕ}
    {positionId : ℤ} (h : Linked db id positionId) : Linked (step settings db action) id positionId := by
  cases action with
  | alert text symbol createdAt =>
    exact linked_after (allowed_mono (fun _ _ => Plain.keepsLinks) (recordAlert_plain db text symbol createdAt)) h
  | cycle cycle =>
    have hcycle := (runCycle_keepsTidy hwell htidy cycle).links
    unfold step actionWrites Cycle.done
    cases hfails : cycle.failsAfter with
    | none =>
      dsimp only
      rw [hfails]
      exact linked_after hcycle h
    | some k =>
      dsimp only
      rw [hfails]
      exact linked_after (hcycle.take k) h

abbrev ImportsWhole (settings : Settings) (db : Database) (actions : List Action) : Prop :=
  Runs.Allowed (step settings) (fun db action => ¬ SplitsImport settings db action) db actions

lemma tidy_run (hwell : WellLinked settings.matchWindow db) (htidy : Tidy db) {actions : List Action}
    (h : ImportsWhole settings db actions) : Tidy (Runs.run (step settings) db actions) :=
  (Runs.invariant (I := fun db => WellLinked settings.matchWindow db ∧ Tidy db)
    (fun _ action hdb hwhole =>
      ⟨hdb.1.run (actionWrites_guarded hdb.1 action), tidy_step hdb.1 hdb.2 hwhole⟩) ⟨hwell, htidy⟩ h).2

lemma linked_run (hwell : WellLinked settings.matchWindow db) (htidy : Tidy db) {actions : List Action}
    (h : ImportsWhole settings db actions) {id : ℕ} {positionId : ℤ} (hlinked : Linked db id positionId) :
    Linked (Runs.run (step settings) db actions) id positionId := by
  induction actions generalizing db with
  | nil => exact hlinked
  | cons action rest ih =>
    exact ih (hwell.run (actionWrites_guarded hwell action)) (tidy_step hwell htidy h.1) h.2
      (linked_step hwell htidy action hlinked)

lemma tidy_empty : Tidy {} := by rintro _ ⟨⟩

theorem links_one_to_one (settings : Settings) (earlier later : List Action) :
    (∀ a b positionId, Linked (Runs.run (step settings) {} (earlier ++ later)) a positionId →
      Linked (Runs.run (step settings) {} (earlier ++ later)) b positionId → a = b) ∧
    (∀ a positionId other, Linked (Runs.run (step settings) {} (earlier ++ later)) a positionId →
      Linked (Runs.run (step settings) {} (earlier ++ later)) a other → positionId = other) ∧
    (∀ outcome ∈ (Runs.run (step settings) {} (earlier ++ later)).outcomes, ∀ positionId,
      (outcome.matchedPositionId = some positionId →
        LinkSound settings.matchWindow (Runs.run (step settings) {} (earlier ++ later)) outcome positionId) ∧
      (outcome.alertId = .manualEtoro positionId →
        RecordedFor (Runs.run (step settings) {} (earlier ++ later)) outcome positionId)) ∧
    (ImportsWhole settings {} (earlier ++ later) → ∀ a positionId,
      Linked (Runs.run (step settings) {} earlier) a positionId →
        Linked (Runs.run (step settings) {} (earlier ++ later)) a positionId) := by
  have hwell : WellLinked settings.matchWindow (Runs.run (step settings) {} (earlier ++ later)) :=
    wellLinked_run wellLinked_empty _
  refine ⟨?_, ?_, ?_, ?_⟩
  · rintro a b positionId ⟨x, hx, rfl, hlinkx⟩ ⟨y, hy, rfl, hlinky⟩
    exact hwell.linked_once x hx y hy positionId hlinkx hlinky
  · rintro a positionId other ⟨x, hx, rfl, hlinkx⟩ ⟨y, hy, hid, hlinky⟩
    rw [hwell.eq_of_id hy hx hid] at hlinky
    exact Option.some.inj (hlinkx.symm.trans hlinky)
  · intro outcome hmem positionId
    exact ⟨hwell.link_sound outcome hmem positionId, hwell.recorded_for outcome hmem positionId⟩
  · intro hwhole a positionId hlinked
    obtain ⟨hearlier, hlater⟩ := Runs.allowed_append.mp hwhole
    rw [Runs.run_append]
    exact linked_run (wellLinked_run wellLinked_empty earlier) (tidy_run wellLinked_empty tidy_empty hearlier)
      hlater hlinked

end Whole

section Run

def trackingSettings : Settings := ⟨120 * microsPerMinute, true⟩

def listed (positionId : ℤ) (openDatetime : Option IsoText) : Position := ⟨positionId, 1001, "AAPL", openDatetime⟩

def cycleAt (minute : ℤ) (positions : List Position) (failsAfter : Option ℕ := none) : Action :=
  .cycle ⟨"", some positions, minute * microsPerMinute, "", fun _ => .closedManual, failsAfter⟩

def importRun : List Action := [cycleAt 0 [], cycleAt 10 [listed 5 none]]

-- The broker gives no open time: the imported link has no open time that could lie in a window.
theorem import_without_open_time :
    ∃ outcome ∈ (Runs.run (step trackingSettings) {} importRun).outcomes, outcome.matchedPositionId = some 5 ∧
      ∀ snapshot ∈ (Runs.run (step trackingSettings) {} importRun).snapshots,
        ∀ position ∈ snapshot.positions, position.positionId = 5 →
          ¬ MatchedInWindow trackingSettings.matchWindow outcome position := by
  decide +kernel

theorem links_one_to_one_import :
    Linked (Runs.run (step trackingSettings) {} (importRun ++ [cycleAt 20 [], cycleAt 30 [listed 5 none]])) 1 5 := by
  refine (links_one_to_one trackingSettings importRun [cycleAt 20 [], cycleAt 30 [listed 5 none]]).2.2.2 ?_ 1 5 ?_
  · refine ⟨?_, ?_, ?_, ?_, trivial⟩
    all_goals
      rintro ⟨_, hfails, _⟩
      cases hfails
  · decide +kernel

end Run

end AlgoTrader.Ledger
