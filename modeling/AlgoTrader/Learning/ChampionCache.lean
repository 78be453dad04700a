import AlgoTrader.Lib.GuardedCache
import Mathlib.Data.List.Sort

/-! The cached champion model (``champion`` and ``_write_model_version`` of ``app/learning/repository.py``) under
several threads of one process, while other processes write the same table. Each access to the table, the cache,
its generation or the clock is one step. -/

namespace AlgoTrader.Learning.ChampionCache

open History

inductive DeploymentMode
  | shadow
  | paper
  | live
  | retired
  deriving DecidableEq, Repr

structure ModelVersion where
  id : String
  status : String := "challenger"
  deploymentMode : DeploymentMode := .shadow
  createdAt : ℕ
  deriving DecidableEq

inductive ModelWrite
  | recordModel (item : ModelVersion)
  | updateModelStatus (modelId status : String) (deploymentMode : DeploymentMode)

def ModelWrite.apply (rows : List ModelVersion) : ModelWrite → List ModelVersion
  | .recordModel item => rows ++ [item]
  | .updateModelStatus modelId status deploymentMode =>
    rows.map fun row => if row.id = modelId then { row with status := status, deploymentMode := deploymentMode } else row

def championRow (rows : List ModelVersion) : Option ModelVersion :=
  ((rows.filter fun row => row.status = "champion" ∧ (row.deploymentMode = .paper ∨ row.deploymentMode = .live)).insertionSort
    (·.createdAt ≥ ·.createdAt)).head?

-- In nanoseconds.
def championTtl : ℕ := 60_000_000_000

/-- How far a thread's call has come. ``floor`` is the last version written by the calls that had returned when
this one began; the program has no such number. -/
inductive Thread
  | idle
  | asked (floor : ℕ) (forceRefresh : Bool)
  | looked (floor : ℕ) (cached : Option (ℕ × Option ModelVersion))
  | missed (floor now : ℕ)
  | counted (floor now generation : ℕ)
  | selected (floor now generation : ℕ) (row : Option ModelVersion)
  | writing (write : ModelWrite)
  | written (version : ℕ)

-- A row ``champion`` returned, with the time its call read off the clock.
structure Answer where
  floor : ℕ
  now : ℕ
  row : Option ModelVersion

inductive CacheAction (n : ℕ)
  | champion (thread : Fin n) (forceRefresh : Bool)
  | writeModelVersion (thread : Fin n) (write : ModelWrite)
  | advance (thread : Fin n) (succeeds : Bool)
  | otherProcess (rows : List ModelVersion)
  | tick (nanoseconds : ℕ)

-- ``completed`` is the last version that a call returned from has written, ``answers`` what was returned.
structure CacheState (n : ℕ) where
  clock : ℕ := 0
  history : List (Version (List ModelVersion))
  cache : Option (ℕ × Option ModelVersion) := none
  generation : ℕ := 0
  completed : ℕ := 0
  threads : Fin n → Thread := fun _ => .idle
  answers : List Answer := []

namespace CacheState

variable {n : ℕ} (s : CacheState n) (thread : Fin n)

def start (rows : List ModelVersion) : CacheState n := { history := [⟨0, rows⟩] }

def rows : List ModelVersion := (s.history.getLast?.map (·.value)).getD []

def goTo (stage : Thread) : CacheState n := { s with threads := Function.update s.threads thread stage }

def commit (rows : List ModelVersion) : CacheState n := { s with history := s.history ++ [⟨s.clock, rows⟩] }

def answer (floor now : ℕ) (row : Option ModelVersion) : CacheState n :=
  { s.goTo thread .idle with answers := s.answers ++ [⟨floor, now, row⟩] }

def store (now generation : ℕ) (row : Option ModelVersion) : CacheState n :=
  if generation = s.generation then { s with cache := some (now, row) } else s

def drop (version : ℕ) : CacheState n :=
  { s with generation := s.generation + 1, cache := none, completed := max s.completed version }

def fresh (cached : Option (ℕ × Option ModelVersion)) : Option (Option ModelVersion) :=
  (cached.filter fun entry => s.clock - entry.1 < championTtl).map (·.2)

def advance (succeeds : Bool) : CacheState n :=
  match s.threads thread with
  | .idle => s
  | .asked floor forceRefresh => s.goTo thread (.looked floor (if forceRefresh then none else s.cache))
  | .looked floor cached =>
    match s.fresh cached with
    | some row => s.answer thread floor s.clock row
    | none => s.goTo thread (.missed floor s.clock)
  | .missed floor now => s.goTo thread (.counted floor now s.generation)
  | .counted floor now generation =>
    if succeeds then s.goTo thread (.selected floor now generation (championRow s.rows)) else s.goTo thread .idle
  | .selected floor now generation row => (s.store now generation row).answer thread floor now row
  | .writing write =>
    if succeeds then (s.commit (write.apply s.rows)).goTo thread (.written s.history.length)
    else s.goTo thread (.written 0)
  | .written version => (s.drop version).goTo thread .idle

def step (s : CacheState n) : CacheAction n → CacheState n
  | .champion thread forceRefresh =>
    match s.threads thread with
    | .idle => s.goTo thread (.asked s.completed forceRefresh)
    | _ => s
  | .writeModelVersion thread write =>
    match s.threads thread with
    | .idle => s.goTo thread (.writing write)
    | _ => s
  | .advance thread succeeds => s.advance thread succeeds
  | .otherProcess rows => s.commit rows
  | .tick nanoseconds => { s with clock := s.clock + nanoseconds }

end CacheState

open CacheState

variable {n : ℕ} {s s' : CacheState n}

/-- No row that is kept or was returned is older than the last write a call had returned from when it was kept,
or when the call that returned it began; and of the writes of others at most those of the lifetime before the
answer are missing from it. -/
structure Fresh (s : CacheState n) : Prop where
  kept : ∀ stamp row, s.cache = some (stamp, row) → ∃ v, At s.history championRow v row ∧ s.completed ≤ v
  returned : ∀ answer ∈ s.answers, ∃ v, At s.history championRow v answer.row ∧ answer.floor ≤ v ∧
    ∀ i version, s.history[i]? = some version → version.since + championTtl ≤ answer.now → i ≤ v

abbrev Shared (n : ℕ) := GuardedCache.State (Fin n) (List ModelVersion) (Option ModelVersion)

def Thread.call : Thread → Option (GuardedCache.Call (Option ModelVersion))
  | .asked floor _ => some (.asked floor)
  | .looked floor cached => some (.looked floor cached)
  | .missed floor now => some (.missed floor now)
  | .counted floor now generation => some (.noted floor now generation)
  | .selected floor now generation row => some (.read floor now generation row)
  | .idle | .writing _ | .written _ => none

def Answer.shared (answer : Answer) : GuardedCache.Answer (Option ModelVersion) :=
  ⟨answer.now, answer.floor, answer.row⟩

namespace CacheState

def shared (s : CacheState n) : Shared n where
  clock := s.clock
  history := s.history
  settled := s.completed
  generation := s.generation
  cache := s.cache
  calls thread := (s.threads thread).call
  answers := s.answers.map Answer.shared

def sharedActions (s : CacheState n) : CacheAction n → List (GuardedCache.Action (Fin n) (List ModelVersion))
  | .champion thread _ =>
    match s.threads thread with
    | .idle => [.ask thread]
    | _ => []
  | .writeModelVersion _ _ => []
  | .advance thread succeeds =>
    match s.threads thread with
    | .idle => []
    | .asked _ forceRefresh => [.look thread forceRefresh]
    | .looked _ _ => [.judge thread]
    | .missed _ _ => [.note thread]
    | .counted _ _ _ => if succeeds then [.read thread] else [.fail thread]
    | .selected _ _ _ _ => [.keep thread]
    | .writing write => if succeeds then [.commit write.apply] else []
    | .written version => [.invalidate version]
  | .otherProcess rows => [.commit fun _ => rows]
  | .tick nanoseconds => [.tick nanoseconds]

end CacheState

lemma shared_goTo (thread : Fin n) (stage : Thread) :
    (s.goTo thread stage).shared = s.shared.goTo thread stage.call := by
  have hcalls : (fun other => (Function.update s.threads thread stage other).call) =
      Function.update (fun other => (s.threads other).call) thread stage.call := by
    funext other
    exact Function.apply_update (fun _ => Thread.call) s.threads thread stage other
  rw [CacheState.shared, CacheState.goTo, hcalls]
  rfl

lemma shared_goTo_of_call {thread : Fin n} {stage : Thread} (h : (s.threads thread).call = stage.call) :
    (s.goTo thread stage).shared = s.shared := by
  rw [shared_goTo, ← h]
  exact GuardedCache.State.goTo_self rfl

lemma shared_answer (thread : Fin n) (floor now : ℕ) (row : Option ModelVersion) :
    (s.answer thread floor now row).shared = (s.shared.answer now floor row).goTo thread none := by
  have hanswer : (s.answer thread floor now row).shared = (s.goTo thread .idle).shared.answer now floor row := by
    rw [CacheState.answer, CacheState.shared, List.map_append]
    rfl
  rw [hanswer, shared_goTo]
  rfl

lemma shared_store (now generation : ℕ) (row : Option ModelVersion) :
    (s.store now generation row).shared = s.shared.store now generation row := by
  rw [CacheState.store, GuardedCache.State.store]
  exact apply_ite CacheState.shared _ _ _

def Written (s : CacheState n) : Prop :=
  ∀ thread version, s.threads thread = .written version → version < s.history.length

namespace Written

lemma mono (h : Written s) (hthreads : s'.threads = s.threads) (hhistory : s.history.length ≤ s'.history.length) :
    Written s' := fun thread version hstage => (h thread version (hthreads ▸ hstage)).trans_le hhistory

lemma goTo (h : Written s) (thread : Fin n) {stage : Thread}
    (hstage : ∀ version, stage = .written version → version < s.history.length) : Written (s.goTo thread stage) := by
  intro other version hother
  change Function.update s.threads thread stage other = _ at hother
  by_cases heq : other = thread
  · rw [heq, Function.update_self] at hother
    exact hstage version hother
  · rw [Function.update_of_ne heq] at hother
    exact h other version hother

lemma advance (h : Written s) (hhistory : 0 < s.history.length) (thread : Fin n) (succeeds : Bool) :
    Written (s.advance thread succeeds) := by
  rw [CacheState.advance]
  split
  · exact h
  · exact h.goTo thread nofun
  · split
    · have hidle : Written (s.goTo thread .idle) := h.goTo thread nofun
      exact hidle.mono rfl le_rfl
    · exact h.goTo thread nofun
  · exact h.goTo thread nofun
  · split_ifs
    · exact h.goTo thread nofun
    · exact h.goTo thread nofun
  · rename_i floor now generation row _
    have hstored : Written (s.store now generation row) := by
      rw [CacheState.store]
      split_ifs
      · exact h.mono rfl le_rfl
      · exact h
    have hidle : Written ((s.store now generation row).goTo thread .idle) := hstored.goTo thread nofun
    exact hidle.mono rfl le_rfl
  · have hlonger (rows : List ModelVersion) : s.history.length < (s.commit rows).history.length := by
      rw [CacheState.commit, List.length_append]
      exact Nat.lt_succ_self _
    split_ifs
    · rename_i write _ _
      have hcommitted : Written (s.commit (write.apply s.rows)) := h.mono rfl (hlonger _).le
      refine hcommitted.goTo thread fun version hversion => ?_
      obtain rfl := Thread.written.inj hversion
      exact hlonger _
    · refine h.goTo thread fun version hversion => ?_
      obtain rfl := Thread.written.inj hversion
      exact hhistory
  · exact (h.mono rfl le_rfl).goTo thread nofun

lemma step (h : Written s) (hhistory : 0 < s.history.length) (action : CacheAction n) : Written (s.step action) := by
  cases action with
  | champion thread forceRefresh =>
    rw [CacheState.step]
    split
    · exact h.goTo thread nofun
    · exact h
  | writeModelVersion thread write =>
    rw [CacheState.step]
    split
    · exact h.goTo thread nofun
    · exact h
  | advance thread succeeds => exact h.advance hhistory thread succeeds
  | otherProcess rows =>
    refine h.mono rfl ?_
    rw [CacheState.step, CacheState.commit, List.length_append]
    exact Nat.le_add_right _ _
  | tick nanoseconds => exact h.mono rfl le_rfl

end Written

abbrev sharedRun (s : Shared n) (actions : List (GuardedCache.Action (Fin n) (List ModelVersion))) : Shared n :=
  Runs.run (GuardedCache.step championTtl championRow) s actions

lemma shared_advance (h : Written s) (thread : Fin n) (succeeds : Bool) :
    (s.advance thread succeeds).shared = sharedRun s.shared (s.sharedActions (.advance thread succeeds)) := by
  rw [CacheState.advance, CacheState.sharedActions]
  cases hstage : s.threads thread with
  | idle => rfl
  | asked floor forceRefresh =>
    have hcall : s.shared.calls thread = some (.asked floor) := congrArg Thread.call hstage
    dsimp only
    rw [shared_goTo, sharedRun, Runs.run_singleton, GuardedCache.step, hcall]
    rfl
  | looked floor cached =>
    have hcall : s.shared.calls thread = some (.looked floor cached) := congrArg Thread.call hstage
    have hfresh : s.shared.fresh championTtl cached = s.fresh cached := rfl
    dsimp only
    rw [sharedRun, Runs.run_singleton, GuardedCache.step, hcall]
    dsimp only
    rw [hfresh]
    cases s.fresh cached with
    | none => exact shared_goTo _ _
    | some row => exact shared_answer _ _ _ _
  | missed floor now =>
    have hcall : s.shared.calls thread = some (.missed floor now) := congrArg Thread.call hstage
    dsimp only
    rw [shared_goTo, sharedRun, Runs.run_singleton, GuardedCache.step, hcall]
    rfl
  | counted floor now generation =>
    have hcall : s.shared.calls thread = some (.noted floor now generation) := congrArg Thread.call hstage
    dsimp only
    split_ifs
    · rw [shared_goTo, sharedRun, Runs.run_singleton, GuardedCache.step, hcall]
      rfl
    · exact shared_goTo _ _
  | selected floor now generation row =>
    have hcall : s.shared.calls thread = some (.read floor now generation row) := congrArg Thread.call hstage
    dsimp only
    rw [shared_answer, shared_store, sharedRun, Runs.run_singleton, GuardedCache.step, hcall]
  | writing write =>
    have hcall (state : CacheState n) (hthreads : state.threads = s.threads) (version : ℕ) :
        (state.threads thread).call = (Thread.written version).call := by
      rw [hthreads, hstage]
      rfl
    dsimp only
    split_ifs
    · exact shared_goTo_of_call (hcall _ rfl _)
    · exact shared_goTo_of_call (hcall _ rfl _)
  | written version =>
    have hversion : version < s.shared.history.length := h thread version hstage
    have hcall : ((s.drop version).threads thread).call = Thread.idle.call := by
      change (s.threads thread).call = _
      rw [hstage]
      rfl
    dsimp only
    rw [shared_goTo_of_call hcall, sharedRun, Runs.run_singleton, GuardedCache.step, if_pos hversion]
    rfl

lemma shared_step (h : Written s) (action : CacheAction n) :
    (s.step action).shared = sharedRun s.shared (s.sharedActions action) := by
  cases action with
  | champion thread forceRefresh =>
    rw [CacheState.step, CacheState.sharedActions]
    cases hstage : s.threads thread with
    | idle =>
      have hcall : s.shared.calls thread = none := congrArg Thread.call hstage
      dsimp only
      rw [shared_goTo, sharedRun, Runs.run_singleton, GuardedCache.step, hcall]
      rfl
    | _ => rfl
  | writeModelVersion thread write =>
    rw [CacheState.step]
    split
    · rename_i hstage
      exact shared_goTo_of_call (by rw [hstage]; rfl)
    · rfl
  | advance thread succeeds => exact shared_advance h thread succeeds
  | otherProcess rows => rfl
  | tick nanoseconds => rfl

structure Refines (rows : List ModelVersion) (s : CacheState n) : Prop where
  written : Written s
  shared : ∃ actions, s.shared = GuardedCache.run championTtl championRow rows actions

namespace Refines

variable {rows : List ModelVersion}

lemma start : Refines rows (CacheState.start rows : CacheState n) := ⟨nofun, [], rfl⟩

lemma sound (h : Refines rows s) : GuardedCache.Sound championTtl championRow s.shared := by
  obtain ⟨actions, hshared⟩ := h.shared
  rw [hshared]
  exact GuardedCache.sound_run championTtl championRow rows actions

lemma step (h : Refines rows s) (action : CacheAction n) : Refines rows (s.step action) := by
  obtain ⟨actions, hshared⟩ := h.shared
  refine ⟨h.written.step ((Nat.zero_le _).trans_lt h.sound.settled) action, actions ++ s.sharedActions action, ?_⟩
  rw [shared_step h.written, hshared]
  exact (Runs.run_append _ _ _).symm

lemma fresh (h : Refines rows s) : Fresh s where
  kept stamp row hcached := by
    obtain ⟨v, hat, hv, _⟩ := (h.sound.cache stamp row hcached).2
    exact ⟨v, hat, hv⟩
  returned answer hanswer := by
    have hseen := (h.sound.answers _ (List.mem_map_of_mem hanswer)).seen
    obtain ⟨v, hat, hv, hreaches⟩ := hseen.reaches
    refine ⟨v, hat, hv, fun i version hversion hold => hreaches i version hversion ?_⟩
    have hpositive : 0 < championTtl := by decide
    change version.since < answer.now - (championTtl - 1)
    omega

end Refines

theorem champion_never_stale (rows : List ModelVersion) (actions : List (CacheAction n)) :
    Runs.Always CacheState.step Fresh (CacheState.start rows) actions := by
  have hall : Runs.Allowed CacheState.step (fun _ _ => True) (CacheState.start rows : CacheState n) actions :=
    Runs.allowed_of_forall fun _ _ => trivial
  exact Runs.always_of_allowed (fun _ action href _ => href.step action) (fun _ href => href.fresh) (Refines.start) hall

-- A row read before a write and stored after it is returned once and not kept.
example : (Runs.run CacheState.step (CacheState.start [])
    [.champion 0 false, .advance 0 true, .advance 0 true, .advance 0 true, .advance 0 true,
      .writeModelVersion 1 (.recordModel ⟨"metamodel_1", "champion", .paper, 1⟩), .advance 1 true, .advance 1 true,
      .advance (0 : Fin 2) true]).cache = none := rfl

end AlgoTrader.Learning.ChampionCache
