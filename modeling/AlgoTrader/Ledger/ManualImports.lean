import AlgoTrader.Ledger.LinksKept

/-! Positions opened by hand: a cycle detects them as those its predecessor's snapshot lacks, and the
snapshot is stored before they are imported. -/

namespace AlgoTrader.Ledger

open Database AlgoTrader.Utils.Time

variable {matchWindow : ℤ} {db : Database} {write : Write} {writes : List Write}

def baselineIds (db : Database) : List ℤ :=
  match db.snapshots with
  | [] => []
  | first :: _ => first.positions.map (·.positionId)

/-- Every position of the latest snapshot was in the baseline or is linked to one outcome. -/
def NoneLost (db : Database) : Prop :=
  ∀ snapshot ∈ db.latestSnapshot, ∀ position ∈ snapshot.positions,
    position.positionId ∈ baselineIds db ∨ ∃! id, Linked db id position.positionId

/-- Manual tracking is on, the clock has not run back since an earlier snapshot, and a cycle that stores
its snapshot goes on to the end of the import, unless there is nothing new in it. -/
def CompletesImport (settings : Settings) (db : Database) : Action → Prop
  | .alert _ _ _ => True
  | .cycle cycle =>
      settings.trackManualPositions = true ∧ (∀ snapshot ∈ db.snapshots, snapshot.snapshotTs < cycle.snapshotTs) ∧
        ∀ k ∈ cycle.failsAfter, ∀ positions ∈ cycle.portfolio, k ≤ 1 ∨
          (snapshotWrites settings cycle (db.apply (.expirePending cycle.cutoff)) positions).length < k ∨
          ∀ previous ∈ db.snapshotBefore cycle.snapshotTs, ∀ position ∈ positions,
            position.positionId ∈ previous.positions.map (·.positionId) ∨ db.PositionMatched position.positionId

structure Accounted (db : Database) : Prop where
  ordered : db.snapshots.Pairwise (·.snapshotTs < ·.snapshotTs)
  known : ∀ snapshot ∈ db.snapshots, ∀ position ∈ snapshot.positions,
    position.positionId ∈ baselineIds db ∨ ∃ id, Linked db id position.positionId

lemma positionMatched_iff {positionId : ℤ} : db.PositionMatched positionId ↔ ∃ id, Linked db id positionId :=
  ⟨fun ⟨outcome, hmem, hlink⟩ => ⟨outcome.id, outcome, hmem, rfl, hlink⟩,
    fun ⟨_, outcome, hmem, _, hlink⟩ => ⟨outcome, hmem, hlink⟩⟩

section Snapshots

def KeepsSnapshots (writes : List Write) : Prop := ∀ write ∈ writes, ∀ snapshot, write ≠ .insertSnapshot snapshot

lemma KeepsSnapshots.snapshots_eq (h : KeepsSnapshots writes) : (after db writes).snapshots = db.snapshots := by
  induction writes generalizing db with
  | nil => rfl
  | cons write rest ih =>
    refine (ih fun other hother => h other (List.mem_cons_of_mem _ hother)).trans ?_
    cases write with
    | insertSnapshot snapshot => exact absurd rfl (h _ List.mem_cons_self snapshot)
    | _ => rfl

lemma KeepsSnapshots.append {more : List Write} (h : KeepsSnapshots writes) (hmore : KeepsSnapshots more) :
    KeepsSnapshots (writes ++ more) := by
  intro write hwrite
  rcases List.mem_append.mp hwrite with hold | hnew
  · exact h write hold
  · exact hmore write hnew

lemma KeepsSnapshots.take (h : KeepsSnapshots writes) (k : ℕ) : KeepsSnapshots (writes.take k) :=
  fun write hwrite => h write (List.mem_of_mem_take hwrite)

lemma matchPending_keepsSnapshots (positions : List Position) (db : Database) (pending : List Outcome) :
    KeepsSnapshots (matchPending matchWindow positions db pending) := by
  induction pending generalizing db with
  | nil => rintro _ ⟨⟩
  | cons outcome rest ih =>
    unfold matchPending
    cases bestPosition matchWindow db outcome positions with
    | none => exact ih db
    | some best =>
      intro write hwrite
      rcases List.mem_cons.mp hwrite with rfl | hrest
      · exact fun _ heq => by cases heq
      · exact ih _ write hrest

lemma matchOpenPositions_keepsSnapshots (db : Database) : KeepsSnapshots (matchOpenPositions matchWindow db) := by
  unfold matchOpenPositions
  split
  · rintro _ ⟨⟩
  · exact matchPending_keepsSnapshots _ _ _

lemma snapshots_matched (settings : Settings) (db : Database) (snapshot : Snapshot) :
    (after db (matchedWrites settings db snapshot)).snapshots = db.snapshots ++ [snapshot] :=
  (matchOpenPositions_keepsSnapshots _).snapshots_eq

lemma recordAlert_keepsSnapshots (db : Database) (alertId : AlertId) (symbol : String) (createdAt : IsoText) :
    KeepsSnapshots (recordAlert db alertId symbol createdAt) := by
  unfold recordAlert
  split
  · rintro _ ⟨⟩
  · intro write hwrite
    rw [List.mem_singleton.mp hwrite]
    exact fun _ heq => by cases heq

lemma importPosition_keepsSnapshots (snapshot : Snapshot) (previousIds : List ℤ) (db : Database)
    (position : Position) : KeepsSnapshots (importPosition snapshot previousIds db position) := by
  rcases importPosition_cases db snapshot previousIds position with
    ⟨_, hwrites⟩ | ⟨_, ⟨outcome, _, _, hwrites⟩ | hwrites⟩ <;> rw [hwrites] <;> intro write hwrite
  · cases hwrite
  · cases List.mem_singleton.mp hwrite
    exact fun _ heq => by cases heq
  · rcases List.mem_cons.mp hwrite with rfl | hsecond
    · exact fun _ heq => by cases heq
    · cases List.mem_singleton.mp hsecond
      exact fun _ heq => by cases heq

lemma importPositions_keepsSnapshots (snapshot : Snapshot) (previousIds : List ℤ) (db : Database)
    (positions : List Position) : KeepsSnapshots (importPositions snapshot previousIds db positions) := by
  induction positions generalizing db with
  | nil => rintro _ ⟨⟩
  | cons position rest ih =>
    exact (importPosition_keepsSnapshots snapshot previousIds db position).append (ih _)

lemma refreshClosed_keepsSnapshots (classify : Outcome → ClosedStatus) (db : Database) :
    KeepsSnapshots (refreshClosedOutcomes classify db) := by
  unfold refreshClosedOutcomes
  split
  · rintro _ ⟨⟩
  · intro write hwrite
    obtain ⟨outcome, _, rfl⟩ := List.mem_map.mp hwrite
    exact fun _ heq => by cases heq

lemma snapshotWrites_eq (settings : Settings) (cycle : Cycle) (db : Database) (positions : List Position) :
    ∃ rest, snapshotWrites settings cycle db positions = .insertSnapshot (cycle.snapshot positions) :: rest ∧
      KeepsSnapshots rest := by
  refine ⟨_, rfl, KeepsSnapshots.append (matchOpenPositions_keepsSnapshots _) ?_⟩
  split_ifs
  · unfold importNewManualPositions
    split
    · rintro _ ⟨⟩
    · exact importPositions_keepsSnapshots _ _ _ _
  · rintro _ ⟨⟩

end Snapshots

section Imports

variable {snapshot : Snapshot} {previousIds : List ℤ}

lemma linked_markMatched {outcome : Outcome} (h : outcome ∈ db.outcomes) (position : Position) :
    Linked (db.apply (.markMatched outcome.id position)) outcome.id position.positionId :=
  ⟨_, List.mem_map_of_mem h, by rw [if_pos rfl], by rw [if_pos rfl]⟩

lemma importPosition_linked (snapshot : Snapshot) (previousIds : List ℤ) (db : Database) (position : Position) :
    position.positionId ∈ previousIds ∨
    ∃ id, Linked (after db (importPosition snapshot previousIds db position)) id position.positionId := by
  rcases importPosition_cases db snapshot previousIds position with
    ⟨hknown, hwrites⟩ | ⟨_, ⟨outcome, hmem, _, hwrites⟩ | hwrites⟩ <;> rw [hwrites]
  · exact hknown.imp_right positionMatched_iff.mp
  · exact .inr ⟨_, linked_markMatched hmem position⟩
  · exact .inr ⟨_, linked_markMatched (mem_inserted db _ _ _) position⟩

lemma importPositions_linked (hwell : WellLinked matchWindow db) (htidy : Tidy db) {positions : List Position}
    (hsnapshot : snapshot ∈ db.snapshots) (hpositions : ∀ position ∈ positions, position ∈ snapshot.positions) :
    ∀ position ∈ positions, position.positionId ∈ previousIds ∨
      ∃ id, Linked (after db (importPositions snapshot previousIds db positions)) id position.positionId := by
  induction positions generalizing db with
  | nil => rintro _ ⟨⟩
  | cons first rest ih =>
    have hfirst : KeepsTidy db (importPosition snapshot previousIds db first) :=
      importPosition_keepsTidy hwell htidy
    have hguarded : AllGuarded matchWindow db (importPosition snapshot previousIds db first) :=
      importPosition_guarded hsnapshot (hpositions first List.mem_cons_self)
    have hwellRest := hwell.run hguarded
    have hsnapshotRest := snapshots_after db (importPosition snapshot previousIds db first) hsnapshot
    have hpositionsRest : ∀ position ∈ rest, position ∈ snapshot.positions :=
      fun position hmem => hpositions position (List.mem_cons_of_mem _ hmem)
    intro position hposition
    unfold importPositions
    dsimp only
    rw [after, Runs.run_append]
    rcases List.mem_cons.mp hposition with rfl | hrest
    · refine (importPosition_linked snapshot previousIds db position).imp_right fun ⟨id, hlinked⟩ => ⟨id, ?_⟩
      exact linked_after (importPositions_keepsTidy hwellRest hfirst.done hsnapshotRest hpositionsRest).links hlinked
    · exact ih hwellRest hfirst.done hsnapshotRest hpositionsRest position hrest

lemma importPositions_nil {positions : List Position}
    (h : ∀ position ∈ positions, position.positionId ∈ previousIds ∨ db.PositionMatched position.positionId) :
    importPositions snapshot previousIds db positions = [] := by
  induction positions with
  | nil => rfl
  | cons first rest ih =>
    have hfirst : importPosition snapshot previousIds db first = [] := if_pos (h first List.mem_cons_self)
    unfold importPositions
    dsimp only
    rw [hfirst]
    exact ih fun position hmem => h position (List.mem_cons_of_mem _ hmem)

end Imports

section Order

variable {snapshots : List Snapshot} {snapshot : Snapshot}

lemma latestOf_isSome (h : snapshots ≠ []) : ∃ latest, latestOf snapshots = some latest := by
  induction snapshots using List.reverseRecOn with
  | nil => exact absurd rfl h
  | append_singleton rest last _ =>
    rw [latestOf_concat]
    cases latestOf rest with
    | none => exact ⟨last, rfl⟩
    | some best =>
      dsimp only
      split_ifs
      · exact ⟨last, rfl⟩
      · exact ⟨best, rfl⟩

lemma filter_before (hordered : ∀ stored ∈ snapshots, stored.snapshotTs < snapshot.snapshotTs) :
    (snapshots ++ [snapshot]).filter (·.snapshotTs < snapshot.snapshotTs) = snapshots := by
  rw [List.filter_append, List.filter_eq_self.mpr fun stored hmem => decide_eq_true (hordered stored hmem)]
  rw [List.filter_singleton]
  simp

lemma baselineIds_concat (hne : db.snapshots ≠ []) {next : Database}
    (hnext : next.snapshots = db.snapshots ++ [snapshot]) : baselineIds next = baselineIds db := by
  unfold baselineIds
  rw [hnext]
  cases hrows : db.snapshots with
  | nil => exact absurd hrows hne
  | cons first rest => rfl

end Order

section Step

variable {settings : Settings} {cycle : Cycle}

lemma snapshotBefore_matched (settings : Settings) (positions : List Position)
    (hordered : ∀ snapshot ∈ db.snapshots, snapshot.snapshotTs < cycle.snapshotTs) :
    (after db (matchedWrites settings db (cycle.snapshot positions))).snapshotBefore cycle.snapshotTs =
      db.snapshotBefore cycle.snapshotTs := by
  have hall : ∀ stored ∈ db.snapshots, stored.snapshotTs < (cycle.snapshot positions).snapshotTs := hordered
  unfold snapshotBefore
  rw [snapshots_matched]
  change latestOf ((db.snapshots ++ [cycle.snapshot positions]).filter
    (·.snapshotTs < (cycle.snapshot positions).snapshotTs)) = _
  rw [filter_before hall, List.filter_eq_self.mpr fun stored hmem => decide_eq_true (hordered stored hmem)]

lemma importNewManualPositions_baseline {snapshot : Snapshot} (h : db.snapshotBefore snapshot.snapshotTs = none) :
    importNewManualPositions snapshot db = [] := by
  unfold importNewManualPositions
  rw [h]

lemma importNewManualPositions_after {snapshot previous : Snapshot}
    (h : db.snapshotBefore snapshot.snapshotTs = some previous) : importNewManualPositions snapshot db =
      importPositions snapshot (previous.positions.map (·.positionId)) db snapshot.positions := by
  unfold importNewManualPositions
  rw [h]

lemma snapshotWrites_linked (hwell : WellLinked settings.matchWindow db) (htidy : Tidy db)
    (htracks : settings.trackManualPositions = true)
    (hordered : ∀ snapshot ∈ db.snapshots, snapshot.snapshotTs < cycle.snapshotTs) (positions : List Position)
    {previous : Snapshot} (hprevious : db.snapshotBefore cycle.snapshotTs = some previous) :
    ∀ position ∈ positions, position.positionId ∈ previous.positions.map (·.positionId) ∨
      ∃ id, Linked (after db (snapshotWrites settings cycle db positions)) id position.positionId := by
  have hbefore := (snapshotBefore_matched settings positions hordered).trans hprevious
  rw [snapshotWrites_append, if_pos htracks, importNewManualPositions_after hbefore, after, Runs.run_append]
  exact importPositions_linked (matchedWrites_wellLinked hwell _) (matchedWrites_keepsTidy hwell htidy _).done
    (mem_matched _ _ _) fun _ h => h

lemma snapshotWrites_known (hwell : WellLinked settings.matchWindow db) (htidy : Tidy db)
    (hordered : ∀ snapshot ∈ db.snapshots, snapshot.snapshotTs < cycle.snapshotTs) {positions : List Position}
    (hknown : ∀ previous ∈ db.snapshotBefore cycle.snapshotTs, ∀ position ∈ positions,
      position.positionId ∈ previous.positions.map (·.positionId) ∨ db.PositionMatched position.positionId) :
    snapshotWrites settings cycle db positions = matchedWrites settings db (cycle.snapshot positions) := by
  have hlinks := (matchedWrites_keepsTidy hwell htidy (cycle.snapshot positions)).links
  suffices hnone : (if settings.trackManualPositions then
      importNewManualPositions (cycle.snapshot positions)
        (after db (matchedWrites settings db (cycle.snapshot positions))) else []) = [] by
    rw [snapshotWrites_append, hnone, List.append_nil]
  split_ifs
  · have hbefore := snapshotBefore_matched settings positions hordered
    cases hprevious : db.snapshotBefore cycle.snapshotTs with
    | none => exact importNewManualPositions_baseline (hbefore.trans hprevious)
    | some previous =>
      rw [importNewManualPositions_after (hbefore.trans hprevious)]
      apply importPositions_nil
      intro position hposition
      apply (hknown previous hprevious position hposition).imp_right
      intro hmatched
      obtain ⟨id, hlinked⟩ := positionMatched_iff.mp hmatched
      exact positionMatched_iff.mpr ⟨id, linked_after hlinks hlinked⟩
  · rfl

lemma Accounted.of_same (h : Accounted db) {next : Database} (hsnapshots : next.snapshots = db.snapshots)
    (hlinks : ∀ id positionId, Linked db id positionId → Linked next id positionId) : Accounted next where
  ordered := by
    rw [hsnapshots]
    exact h.ordered
  known snapshot hmem position hposition := by
    rw [hsnapshots] at hmem
    have hbaseline : baselineIds next = baselineIds db := by rw [baselineIds, hsnapshots, baselineIds]
    rw [hbaseline]
    exact (h.known snapshot hmem position hposition).imp_right fun ⟨id, hlinked⟩ => ⟨id, hlinks _ _ hlinked⟩

lemma Accounted.of_new (h : Accounted db) {next : Database} {snapshot : Snapshot}
    (hsnapshots : next.snapshots = db.snapshots ++ [snapshot])
    (hordered : ∀ stored ∈ db.snapshots, stored.snapshotTs < snapshot.snapshotTs)
    (hlinks : ∀ id positionId, Linked db id positionId → Linked next id positionId)
    (hnew : db.snapshots ≠ [] → ∀ position ∈ snapshot.positions,
      position.positionId ∈ baselineIds db ∨ ∃ id, Linked next id position.positionId) : Accounted next where
  ordered := by
    rw [hsnapshots]
    refine List.pairwise_append.mpr ⟨h.ordered, List.pairwise_singleton _ _, ?_⟩
    intro stored hstored last hlast
    rw [List.mem_singleton.mp hlast]
    exact hordered stored hstored
  known stored hmem position hposition := by
    by_cases hne : db.snapshots = []
    · left
      rw [hsnapshots, hne] at hmem
      rw [List.mem_singleton.mp hmem] at hposition
      rw [baselineIds, hsnapshots, hne]
      exact List.mem_map_of_mem hposition
    · rw [baselineIds_concat hne hsnapshots]
      rw [hsnapshots] at hmem
      rcases List.mem_append.mp hmem with hold | hlast
      · exact (h.known stored hold position hposition).imp_right fun ⟨id, hlinked⟩ => ⟨id, hlinks _ _ hlinked⟩
      · rw [List.mem_singleton.mp hlast] at hposition
        exact hnew hne position hposition

lemma Accounted.of_previous (h : Accounted db) {ts : Timestamp}
    {previous : Snapshot} (hprevious : db.snapshotBefore ts = some previous) {positionId : ℤ}
    (hmem : positionId ∈ previous.positions.map (·.positionId)) :
    positionId ∈ baselineIds db ∨ ∃ id, Linked db id positionId := by
  obtain ⟨position, hposition, rfl⟩ := List.mem_map.mp hmem
  exact h.known previous (List.mem_filter.mp (mem_of_latestOf hprevious)).1 position hposition

lemma snapshots_take (settings : Settings) (cycle : Cycle) (db : Database) (positions : List Position) (m : ℕ) :
    (after db ((readWrites settings cycle db positions).take (m + 2))).snapshots =
      db.snapshots ++ [cycle.snapshot positions] := by
  obtain ⟨rest, hrest, hkeeps⟩ := snapshotWrites_eq settings cycle (db.apply (.expirePending cycle.cutoff)) positions
  unfold readWrites
  rw [hrest]
  exact ((hkeeps.append (refreshClosed_keepsSnapshots _ _)).take m).snapshots_eq

lemma readWrites_plain (hwell : WellLinked settings.matchWindow db) (htidy : Tidy db)
    (hordered : ∀ snapshot ∈ db.snapshots, snapshot.snapshotTs < cycle.snapshotTs) {positions : List Position}
    (hknown : ∀ previous ∈ db.snapshotBefore cycle.snapshotTs, ∀ position ∈ positions,
      position.positionId ∈ previous.positions.map (·.positionId) ∨ db.PositionMatched position.positionId) :
    Runs.Allowed Database.apply Plain db (readWrites settings cycle db positions) := by
  have hexpire : Guarded settings.matchWindow db (.expirePending cycle.cutoff) := trivial
  have hwellExpired := hwell.apply hexpire
  have hfirst := tidy_expired htidy cycle.cutoff
  have hsame : snapshotWrites settings cycle (db.apply (.expirePending cycle.cutoff)) positions =
      matchedWrites settings (db.apply (.expirePending cycle.cutoff)) (cycle.snapshot positions) := by
    apply snapshotWrites_known hwellExpired hfirst.done hordered
    intro previous hprevious position hposition
    apply (hknown previous hprevious position hposition).imp_right
    intro hmatched
    obtain ⟨id, hlinked⟩ := positionMatched_iff.mp hmatched
    exact positionMatched_iff.mpr ⟨id, linked_after hfirst.links hlinked⟩
  refine ⟨trivial, Runs.allowed_append.mpr ⟨?_, refreshClosed_plain _ _ _⟩⟩
  rw [hsame]
  exact allowed_mono (fun _ _ => And.right) (matchedWrites_allowed hwellExpired _)

lemma readWrites_take (positions : List Position) {k : ℕ}
    (hk : (snapshotWrites settings cycle (db.apply (.expirePending cycle.cutoff)) positions).length < k) :
    ∃ rest, (readWrites settings cycle db positions).take k = .expirePending cycle.cutoff ::
        (snapshotWrites settings cycle (db.apply (.expirePending cycle.cutoff)) positions ++ rest) ∧
      ∀ start, Runs.Allowed Database.apply Plain start rest := by
  obtain ⟨m, rfl⟩ := Nat.exists_eq_succ_of_ne_zero (Nat.ne_of_gt (Nat.zero_lt_of_lt hk))
  rw [readWrites, List.take_succ_cons, List.take_append, List.take_of_length_le (Nat.le_of_lt_succ hk)]
  exact ⟨_, rfl, fun start => (refreshClosed_plain cycle.classify _ start).take _⟩

section Taken

variable (hwell : WellLinked settings.matchWindow db) (htidy : Tidy db) (haccounted : Accounted db)
  (hordered : ∀ snapshot ∈ db.snapshots, snapshot.snapshotTs < cycle.snapshotTs)

include hwell htidy

lemma linked_taken (positions : List Position) (k : ℕ) {id : ℕ} {positionId : ℤ} (h : Linked db id positionId) :
    Linked (after db ((readWrites settings cycle db positions).take k)) id positionId :=
  linked_after ((readWrites_keepsTidy hwell htidy cycle positions).links.take k) h

include haccounted hordered

lemma accounted_stored (positions : List Position) (m : ℕ)
    (hcover : ∀ previous ∈ db.snapshotBefore cycle.snapshotTs, ∀ position ∈ positions,
      position.positionId ∈ previous.positions.map (·.positionId) ∨
        ∃ id, Linked (after db ((readWrites settings cycle db positions).take (m + 2))) id position.positionId) :
    Accounted (after db ((readWrites settings cycle db positions).take (m + 2))) := by
  apply haccounted.of_new (snapshots_take settings cycle db positions m) hordered
  · exact fun _ _ => linked_taken hwell htidy positions (m + 2)
  · intro hne position hposition
    obtain ⟨previous, hprevious⟩ := latestOf_isSome hne
    rw [← List.filter_eq_self.mpr fun stored hmem => decide_eq_true (hordered stored hmem)] at hprevious
    rcases hcover previous hprevious position hposition with hold | hlinked
    · refine (haccounted.of_previous hprevious hold).imp_right ?_
      exact fun ⟨id, h⟩ => ⟨id, linked_taken hwell htidy positions (m + 2) h⟩
    · exact .inr hlinked

lemma accounted_imported (htracks : settings.trackManualPositions = true) (positions : List Position) {m : ℕ}
    (hlen : (snapshotWrites settings cycle (db.apply (.expirePending cycle.cutoff)) positions).length < m + 2) :
    Tidy (after db ((readWrites settings cycle db positions).take (m + 2))) ∧
      Accounted (after db ((readWrites settings cycle db positions).take (m + 2))) := by
  have hfirst := tidy_expired htidy cycle.cutoff
  have hexpire : Guarded settings.matchWindow db (.expirePending cycle.cutoff) := trivial
  have hwellExpired := hwell.apply hexpire
  obtain ⟨rest, htake, hplain⟩ := readWrites_take positions hlen
  have hsecond := snapshotWrites_keepsTidy hwellExpired hfirst.done cycle positions
  have hrest := KeepsTidy.of_plain hsecond.done (hplain _)
  have hstate : after db ((readWrites settings cycle db positions).take (m + 2)) =
      after (after (db.apply (.expirePending cycle.cutoff))
        (snapshotWrites settings cycle (db.apply (.expirePending cycle.cutoff)) positions)) rest := by
    rw [htake]
    exact Runs.run_append _ _ _
  refine ⟨hstate ▸ hrest.done, accounted_stored hwell htidy haccounted hordered positions m ?_⟩
  intro previous hprevious position hposition
  rw [hstate]
  exact (snapshotWrites_linked hwellExpired hfirst.done htracks hordered positions hprevious position
    hposition).imp_right fun ⟨id, hlinked⟩ => ⟨id, linked_after hrest.links hlinked⟩

lemma accounted_known {positions : List Position} (m : ℕ)
    (hknown : ∀ previous ∈ db.snapshotBefore cycle.snapshotTs, ∀ position ∈ positions,
      position.positionId ∈ previous.positions.map (·.positionId) ∨ db.PositionMatched position.positionId) :
    Tidy (after db ((readWrites settings cycle db positions).take (m + 2))) ∧
      Accounted (after db ((readWrites settings cycle db positions).take (m + 2))) := by
  refine ⟨tidy_after htidy ((readWrites_plain hwell htidy hordered hknown).take _), ?_⟩
  apply accounted_stored hwell htidy haccounted hordered
  intro previous hprevious position hposition
  apply (hknown previous hprevious position hposition).imp_right
  intro hmatched
  obtain ⟨id, hlinked⟩ := positionMatched_iff.mp hmatched
  exact ⟨id, linked_taken hwell htidy positions (m + 2) hlinked⟩

/-- However far a cycle gets, it leaves every position accounted for, if it stored no snapshot, got to the
end of the import, or had nothing to import. -/
lemma accounted_take (htracks : settings.trackManualPositions = true) (positions : List Position) (k : ℕ)
    (hk : k ≤ 1 ∨ (snapshotWrites settings cycle (db.apply (.expirePending cycle.cutoff)) positions).length < k ∨
      ∀ previous ∈ db.snapshotBefore cycle.snapshotTs, ∀ position ∈ positions,
        position.positionId ∈ previous.positions.map (·.positionId) ∨ db.PositionMatched position.positionId) :
    Tidy (after db ((readWrites settings cycle db positions).take k)) ∧
      Accounted (after db ((readWrites settings cycle db positions).take k)) := by
  match k, hk with
  | 0, _ => exact ⟨htidy, haccounted⟩
  | 1, _ =>
    refine ⟨(tidy_expired htidy cycle.cutoff).done, haccounted.of_same rfl ?_⟩
    exact fun _ _ => linked_taken hwell htidy positions 1
  | m + 2, hk =>
    rcases hk with hsmall | hlen | hknown
    · exact absurd hsmall (by omega)
    · exact accounted_imported hwell htidy haccounted hordered htracks positions hlen
    · exact accounted_known hwell htidy haccounted hordered m hknown

end Taken

lemma done_eq_take (settings : Settings) (cycle : Cycle) (db : Database) :
    ∃ k, cycle.done settings db = (runCycle settings cycle db).take k := by
  unfold Cycle.done
  cases cycle.failsAfter with
  | none => exact ⟨_, List.take_length.symm⟩
  | some k => exact ⟨k, rfl⟩

theorem accounted_step (hwell : WellLinked settings.matchWindow db) (htidy : Tidy db) (haccounted : Accounted db)
    {action : Action} (h : CompletesImport settings db action) :
    Tidy (step settings db action) ∧ Accounted (step settings db action) := by
  cases action with
  | alert text symbol createdAt =>
    have hkeeps := KeepsTidy.of_plain htidy (recordAlert_plain db text symbol createdAt)
    refine ⟨hkeeps.done, haccounted.of_same (KeepsSnapshots.snapshots_eq ?_) ?_⟩
    · exact recordAlert_keepsSnapshots db _ symbol createdAt
    · exact fun id positionId hlinked => linked_after hkeeps.links hlinked
  | cycle cycle =>
    obtain ⟨htracks, hordered, hfails⟩ := h
    rcases runCycle_cases settings cycle db with hidle | ⟨positions, hportfolio, hwrites⟩
    · have hplain : Runs.Allowed Database.apply Plain db [.expirePending cycle.cutoff] := ⟨trivial, trivial⟩
      obtain ⟨k, hk⟩ := done_eq_take settings cycle db
      rw [hidle] at hk
      have hkeeps := KeepsTidy.of_plain htidy (hplain.take k)
      have hsnapshots : KeepsSnapshots ([.expirePending cycle.cutoff].take k) := by
        apply KeepsSnapshots.take
        intro write hwrite
        rw [List.mem_singleton.mp hwrite]
        exact fun _ heq => by cases heq
      change Tidy (after db (cycle.done settings db)) ∧ Accounted (after db (cycle.done settings db))
      rw [hk]
      refine ⟨hkeeps.done, haccounted.of_same hsnapshots.snapshots_eq ?_⟩
      exact fun _ _ hlinked => linked_after hkeeps.links hlinked
    · change Tidy (after db (cycle.done settings db)) ∧ Accounted (after db (cycle.done settings db))
      unfold Cycle.done
      rw [hwrites]
      cases hstop : cycle.failsAfter with
      | none =>
        have hlength : (snapshotWrites settings cycle (db.apply (.expirePending cycle.cutoff)) positions).length <
            (readWrites settings cycle db positions).length := by
          rw [readWrites, List.length_cons, List.length_append]
          omega
        have htaken := accounted_take hwell htidy haccounted hordered htracks positions _ (.inr (.inl hlength))
        rwa [List.take_length] at htaken
      | some k =>
        exact accounted_take hwell htidy haccounted hordered htracks positions k (hfails k hstop positions hportfolio)

lemma noneLost_of_accounted (hwell : WellLinked matchWindow db) (h : Accounted db) : NoneLost db := by
  intro snapshot hsnapshot position hposition
  refine (h.known snapshot (mem_of_latestOf hsnapshot) position hposition).imp_right ?_
  rintro ⟨id, outcome, hmem, rfl, hlink⟩
  refine ⟨outcome.id, ⟨outcome, hmem, rfl, hlink⟩, ?_⟩
  rintro other ⟨next, hnext, rfl, hlinkNext⟩
  exact hwell.linked_once next hnext outcome hmem _ hlinkNext hlink

lemma accounted_empty : Accounted {} where
  ordered := List.Pairwise.nil
  known := by rintro _ ⟨⟩

/-- In every run of alerts and cycles in which each cycle that stores its snapshot goes on to the end of the
import, no position that appears after the baseline is lost, and none is linked twice. -/
theorem manual_positions_kept (settings : Settings) {actions : List Action}
    (h : Runs.Allowed (step settings) (CompletesImport settings) {} actions) :
    Runs.Always (step settings) NoneLost {} actions := by
  refine Runs.always_of_allowed
    (I := fun db => WellLinked settings.matchWindow db ∧ Tidy db ∧ Accounted db) ?_ ?_ ?_ h
  · rintro db action ⟨hwell, htidy, haccounted⟩ hcompletes
    exact ⟨hwell.run (actionWrites_guarded hwell action), accounted_step hwell htidy haccounted hcompletes⟩
  · rintro db ⟨hwell, _, haccounted⟩
    exact noneLost_of_accounted hwell haccounted
  · exact ⟨wellLinked_empty, tidy_empty, accounted_empty⟩

instance (settings : Settings) (db : Database) : ∀ action, Decidable (CompletesImport settings db action)
  | .alert _ _ _ => isTrue trivial
  | .cycle _ => inferInstanceAs (Decidable (_ ∧ _ ∧ ∀ k ∈ _, ∀ positions ∈ _, _ ∨ _ ∨ _))

def openedAt (minute : ℤ) : Option IsoText := some ⟨"", some (minute * microsPerMinute)⟩

-- One cycle fails before it stores its snapshot, one while it scores a closed outcome.
theorem manual_positions_kept_failures : Runs.Always (step trackingSettings) NoneLost {}
    [cycleAt 0 [listed 4 (openedAt 0)], cycleAt 10 [listed 4 (openedAt 0), listed 5 (openedAt 5)] (some 1),
      cycleAt 20 [listed 4 (openedAt 0), listed 5 (openedAt 5)], cycleAt 30 [listed 6 none] (some 4),
      cycleAt 40 [listed 6 none]] :=
  manual_positions_kept trackingSettings (by decide +kernel)

def lostRun : List Action :=
  [cycleAt 0 [], cycleAt 10 [listed 5 (openedAt 5)] (some 2), cycleAt 20 [listed 5 (openedAt 5)]]

-- The second cycle fails right after it stored its snapshot. The third one runs to its end.
theorem manual_position_lost : ¬ NoneLost (Runs.run (step trackingSettings) {} lostRun) := by
  intro h
  have hlatest : (Runs.run (step trackingSettings) {} lostRun).latestSnapshot =
      some ⟨20 * microsPerMinute, "", [listed 5 (openedAt 5)]⟩ := by decide +kernel
  have hbaseline : baselineIds (Runs.run (step trackingSettings) {} lostRun) = [] := by decide +kernel
  have houtcomes : (Runs.run (step trackingSettings) {} lostRun).outcomes = [] := by decide +kernel
  rcases h _ hlatest (listed 5 (openedAt 5)) List.mem_cons_self with hold | ⟨id, ⟨outcome, hmem, _⟩, _⟩
  · rw [hbaseline] at hold
    cases hold
  · rw [houtcomes] at hmem
    cases hmem

end Step

end AlgoTrader.Ledger
