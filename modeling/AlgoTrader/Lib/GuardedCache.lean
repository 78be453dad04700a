import AlgoTrader.Lib.History
import AlgoTrader.Lib.Runs
import Mathlib.Logic.Function.Basic
import Mathlib.Order.Lattice

/-! A value read through a cache under interleaved readers and writers. Each entry is stamped with the time its
reader looked, is kept for a while, and is stored only if the generation, which every writer of this process raises
after it has committed, has not changed since the reader noted it. -/

namespace GuardedCache

open History

-- How far a reader has come. ``floor`` is the last version whose writer had returned when it began.
inductive Call (α : Type*)
  | asked (floor : ℕ)
  | looked (floor : ℕ) (cached : Option (ℕ × α))
  | missed (floor now : ℕ)
  | noted (floor now generation : ℕ)
  | read (floor now generation : ℕ) (value : α)

structure Answer (α : Type*) where
  time : ℕ
  floor : ℕ
  value : α

-- ``settled`` is the last version whose writer has returned; the program has no such number.
structure State (ρ V α : Type*) where
  clock : ℕ := 0
  history : List (Version V)
  settled : ℕ := 0
  generation : ℕ := 0
  cache : Option (ℕ × α) := none
  calls : ρ → Option (Call α) := fun _ => none
  answers : List (Answer α) := []

/-- The steps of a reader, which copies the cached entry before it reads the clock and may fail to read the table;
the two steps of a writer, of which another process does only the first. -/
inductive Action (ρ V : Type*)
  | ask (reader : ρ)
  | look (reader : ρ) (anew : Bool)
  | judge (reader : ρ)
  | note (reader : ρ)
  | read (reader : ρ)
  | keep (reader : ρ)
  | fail (reader : ρ)
  | commit (write : V → V)
  | invalidate (version : ℕ)
  | tick (duration : ℕ)

section Definitions

variable {ρ V α : Type*} [DecidableEq ρ] [Inhabited V] (ttl : ℕ) (view : V → α)

def State.table (s : State ρ V α) : V := (s.history.getLast?.map Version.value).getD default

def State.fresh (s : State ρ V α) (cached : Option (ℕ × α)) : Option α :=
  (cached.filter fun entry => s.clock - entry.1 < ttl).map Prod.snd

def State.goTo (s : State ρ V α) (reader : ρ) (call : Option (Call α)) : State ρ V α :=
  { s with calls := Function.update s.calls reader call }

def State.answer (s : State ρ V α) (time floor : ℕ) (value : α) : State ρ V α :=
  { s with answers := s.answers ++ [⟨time, floor, value⟩] }

def State.store (s : State ρ V α) (time noted : ℕ) (value : α) : State ρ V α :=
  if noted = s.generation then { s with cache := some (time, value) } else s

def State.commit (s : State ρ V α) (table : V) : State ρ V α :=
  { s with history := s.history ++ [⟨s.clock, table⟩] }

def State.drop (s : State ρ V α) (version : ℕ) : State ρ V α :=
  { s with generation := s.generation + 1, cache := none, settled := max s.settled version }

def step (s : State ρ V α) : Action ρ V → State ρ V α
  | .ask reader =>
    match s.calls reader with
    | none => s.goTo reader (some (.asked s.settled))
    | some _ => s
  | .look reader anew =>
    match s.calls reader with
    | some (.asked floor) => s.goTo reader (some (.looked floor (if anew then none else s.cache)))
    | _ => s
  | .judge reader =>
    match s.calls reader with
    | some (.looked floor cached) =>
      match s.fresh ttl cached with
      | some value => (s.answer s.clock floor value).goTo reader none
      | none => s.goTo reader (some (.missed floor s.clock))
    | _ => s
  | .note reader =>
    match s.calls reader with
    | some (.missed floor now) => s.goTo reader (some (.noted floor now s.generation))
    | _ => s
  | .read reader =>
    match s.calls reader with
    | some (.noted floor now generation) => s.goTo reader (some (.read floor now generation (view s.table)))
    | _ => s
  | .keep reader =>
    match s.calls reader with
    | some (.read floor now generation value) =>
      ((s.store now generation value).answer now floor value).goTo reader none
    | _ => s
  | .fail reader => s.goTo reader none
  | .commit write => s.commit (write s.table)
  | .invalidate version => if version < s.history.length then s.drop version else s
  | .tick duration => { s with clock := s.clock + duration }

def start (table : V) : State ρ V α := { history := [⟨0, table⟩] }

def run (table : V) (actions : List (Action ρ V)) : State ρ V α := Runs.run (step ttl view) (start table) actions

end Definitions

variable {ρ V α : Type*} {ttl : ℕ} {view : V → α} {s s' : State ρ V α}

lemma State.goTo_self [DecidableEq ρ] {reader : ρ} {call : Option (Call α)} (h : s.calls reader = call) :
    s.goTo reader call = s := by
  rw [State.goTo, ← h, Function.update_eq_self]

def Entry (view : V → α) (s : State ρ V α) (floor : ℕ) (cached : Option (ℕ × α)) : Prop :=
  ∀ stamp value, cached = some (stamp, value) → stamp ≤ s.clock ∧ Seen s.history view floor stamp value

/-- What a reader knows. What it read under the current generation is not older than any version that has settled
by now. -/
def Coherent (view : V → α) (s : State ρ V α) : Call α → Prop
  | .asked floor => floor ≤ s.settled
  | .looked floor cached => floor ≤ s.settled ∧ Entry view s floor cached
  | .missed floor now => floor ≤ s.settled ∧ now ≤ s.clock
  | .noted floor now generation => floor ≤ s.settled ∧ now ≤ s.clock ∧ generation ≤ s.generation
  | .read floor now generation value => floor ≤ s.settled ∧ now ≤ s.clock ∧ generation ≤ s.generation ∧
      Seen s.history view floor now value ∧ (generation = s.generation → Seen s.history view s.settled now value)

structure Answered (ttl : ℕ) (view : V → α) (s : State ρ V α) (answer : Answer α) : Prop where
  time : answer.time ≤ s.clock
  floor : answer.floor ≤ s.settled
  seen : Seen s.history view answer.floor (answer.time - (ttl - 1)) answer.value

structure Sound (ttl : ℕ) (view : V → α) (s : State ρ V α) : Prop where
  settled : s.settled < s.history.length
  cache : Entry view s s.settled s.cache
  calls : ∀ reader call, s.calls reader = some call → Coherent view s call
  answers : ∀ answer ∈ s.answers, Answered ttl view s answer

/-- What a step of anyone leaves of the knowledge of the others: the generation tells when it may be old. -/
structure Grows (s s' : State ρ V α) : Prop where
  clock : s.clock ≤ s'.clock
  generation : s.generation ≤ s'.generation
  settled : s.settled ≤ s'.settled
  same : s'.generation = s.generation → s'.settled = s.settled
  history : ∃ more, s'.history = s.history ++ more ∧ ∀ version ∈ more, s.clock ≤ version.since

namespace Grows

lemma of_history (h : s'.history = s.history) (hclock : s.clock ≤ s'.clock) (hgeneration : s.generation ≤ s'.generation)
    (hsettled : s.settled ≤ s'.settled) (hsame : s'.generation = s.generation → s'.settled = s.settled) :
    Grows s s' := ⟨hclock, hgeneration, hsettled, hsame, [], by rw [h, List.append_nil], by simp⟩

lemma seen (h : Grows s s') {floor time : ℕ} {value : α} (htime : time ≤ s.clock)
    (hseen : Seen s.history view floor time value) : Seen s'.history view floor time value := by
  obtain ⟨more, hhistory, hmore⟩ := h.history
  rw [hhistory]
  exact hseen.append fun version hversion => htime.trans (hmore version hversion)

lemma length (h : Grows s s') : s.history.length ≤ s'.history.length := by
  obtain ⟨more, hhistory, _⟩ := h.history
  rw [hhistory, List.length_append]
  omega

lemma entry (h : Grows s s') {floor : ℕ} {cached : Option (ℕ × α)} (hentry : Entry view s floor cached) :
    Entry view s' floor cached := by
  intro stamp value hcached
  obtain ⟨hstamp, hseen⟩ := hentry stamp value hcached
  exact ⟨hstamp.trans h.clock, h.seen hstamp hseen⟩

lemma coherent (h : Grows s s') {call : Call α} (hcall : Coherent view s call) : Coherent view s' call := by
  cases call with
  | asked floor => exact hcall.trans h.settled
  | looked floor cached => exact ⟨hcall.1.trans h.settled, h.entry hcall.2⟩
  | missed floor now => exact ⟨hcall.1.trans h.settled, hcall.2.trans h.clock⟩
  | noted floor now generation =>
    exact ⟨hcall.1.trans h.settled, hcall.2.1.trans h.clock, hcall.2.2.trans h.generation⟩
  | read floor now generation value =>
    obtain ⟨hfloor, hnow, hgeneration, hseen, hcurrent⟩ := hcall
    refine ⟨hfloor.trans h.settled, hnow.trans h.clock, hgeneration.trans h.generation, h.seen hnow hseen,
      fun heq => ?_⟩
    have hsame : s'.generation = s.generation := le_antisymm (heq ▸ hgeneration) h.generation
    rw [h.same hsame]
    exact h.seen hnow (hcurrent (heq.trans hsame))

lemma answered (h : Grows s s') {answer : Answer α} (hanswer : Answered ttl view s answer) :
    Answered ttl view s' answer where
  time := hanswer.time.trans h.clock
  floor := hanswer.floor.trans h.settled
  seen := h.seen ((Nat.sub_le _ _).trans hanswer.time) hanswer.seen

end Grows

namespace Sound

lemma start (ttl : ℕ) (view : V → α) (table : V) : Sound ttl view (start table : State ρ V α) where
  settled := Nat.zero_lt_one
  cache := fun _ _ h => nomatch h
  calls := fun _ _ h => nomatch h
  answers := fun _ h => absurd h List.not_mem_nil

lemma grow (h : Sound ttl view s) (hgrows : Grows s s') (hsettled : s'.settled < s'.history.length)
    (hcache : Entry view s' s'.settled s'.cache) (hcalls : s'.calls = s.calls) (hanswers : s'.answers = s.answers) :
    Sound ttl view s' where
  settled := hsettled
  cache := hcache
  calls reader call hcall := hgrows.coherent (h.calls reader call (hcalls ▸ hcall))
  answers answer hanswer := hgrows.answered (h.answers answer (hanswers ▸ hanswer))

lemma answer (h : Sound ttl view s) {time floor : ℕ} {value : α} (hanswer : Answered ttl view s ⟨time, floor, value⟩) :
    Sound ttl view (s.answer time floor value) := by
  have hgrows : Grows s (s.answer time floor value) := .of_history rfl le_rfl le_rfl le_rfl fun _ => rfl
  refine ⟨h.settled, hgrows.entry h.cache, fun reader call hcall => hgrows.coherent (h.calls reader call hcall),
    fun answer hmem => hgrows.answered ?_⟩
  rcases List.mem_append.mp hmem with hearlier | hlast
  · exact h.answers answer hearlier
  · rw [List.mem_singleton.mp hlast]
    exact hanswer

/-- What the generation is for: a value is kept only if no writer has returned since it was read. -/
lemma store (h : Sound ttl view s) {floor now generation : ℕ} {value : α}
    (hread : Coherent view s (.read floor now generation value)) :
    Sound ttl view (s.store now generation value) ∧ Grows s (s.store now generation value) := by
  rw [State.store]
  split_ifs with hgeneration
  · obtain ⟨_, hnow, _, _, hcurrent⟩ := hread
    have hgrows : Grows s { s with cache := some (now, value) } := .of_history rfl le_rfl le_rfl le_rfl fun _ => rfl
    refine ⟨h.grow hgrows h.settled ?_ rfl rfl, hgrows⟩
    intro stamp kept hkept
    obtain ⟨rfl, rfl⟩ := Prod.mk.inj (Option.some.inj hkept)
    exact ⟨hnow, hcurrent hgeneration⟩
  · exact ⟨h, .of_history rfl le_rfl le_rfl le_rfl fun _ => rfl⟩

/-- Raising the generation cuts off every reader that has noted it, so that none can store what it read. -/
lemma drop (h : Sound ttl view s) {version : ℕ} (hversion : version < s.history.length) :
    Sound ttl view (s.drop version) := by
  have hgrows : Grows s (s.drop version) :=
    .of_history rfl le_rfl (Nat.le_succ _) (le_max_left _ _) fun heq => absurd heq (Nat.succ_ne_self _)
  exact h.grow hgrows (max_lt h.settled hversion) (fun _ _ hnone => nomatch hnone) rfl rfl

lemma commit (h : Sound ttl view s) (table : V) : Sound ttl view (s.commit table) := by
  have hgrows : Grows s (s.commit table) :=
    ⟨le_rfl, le_rfl, le_rfl, fun _ => rfl, [⟨s.clock, table⟩], rfl, fun version hversion => by
      rw [List.mem_singleton.mp hversion]⟩
  exact h.grow hgrows (h.settled.trans_le hgrows.length) (hgrows.entry h.cache) rfl rfl

lemma tick (h : Sound ttl view s) (duration : ℕ) : Sound ttl view { s with clock := s.clock + duration } := by
  have hgrows : Grows s { s with clock := s.clock + duration } :=
    .of_history rfl (Nat.le_add_right _ _) le_rfl le_rfl fun _ => rfl
  exact h.grow hgrows h.settled (hgrows.entry h.cache) rfl rfl

lemma goTo [DecidableEq ρ] (h : Sound ttl view s) (reader : ρ) {call : Option (Call α)}
    (hcall : ∀ c, call = some c → Coherent view s c) : Sound ttl view (s.goTo reader call) := by
  have hgrows : Grows s (s.goTo reader call) := .of_history rfl le_rfl le_rfl le_rfl fun _ => rfl
  refine ⟨h.settled, hgrows.entry h.cache, fun other c hc => hgrows.coherent ?_,
    fun answer hanswer => hgrows.answered (h.answers answer hanswer)⟩
  rw [State.goTo] at hc
  dsimp only at hc
  by_cases hother : other = reader
  · rw [hother, Function.update_self] at hc
    exact hcall c hc
  · rw [Function.update_of_ne hother] at hc
    exact h.calls other c hc

variable [Inhabited V]

lemma seen_table {β : Type*} (h : Sound ttl view s) {floor time : ℕ} (hfloor : floor ≤ s.settled)
    (other : V → β) : Seen s.history other floor time (other s.table) := by
  obtain ⟨version, hlast⟩ : ∃ version, s.history.getLast? = some version := by
    refine Option.isSome_iff_exists.mp (List.getLast?_isSome.mpr fun hnil => ?_)
    have hsettled := h.settled
    rw [hnil] at hsettled
    exact absurd hsettled (Nat.not_lt_zero _)
  rw [State.table, hlast]
  exact seen_last hlast (hfloor.trans_lt h.settled)

variable [DecidableEq ρ]

lemma look (h : Sound ttl view s) (reader : ρ) (anew : Bool) : Sound ttl view (step ttl view s (.look reader anew)) := by
  rw [GuardedCache.step]
  split
  · rename_i floor hcall
    have hfloor : floor ≤ s.settled := h.calls reader _ hcall
    refine h.goTo reader fun call hsome => ?_
    obtain rfl := Option.some.inj hsome
    refine ⟨hfloor, fun stamp value hcached => ?_⟩
    split_ifs at hcached
    obtain ⟨hstamp, hseen⟩ := h.cache stamp value hcached
    exact ⟨hstamp, hseen.anti hfloor le_rfl⟩
  · exact h

lemma judge (h : Sound ttl view s) (reader : ρ) : Sound ttl view (step ttl view s (.judge reader)) := by
  rw [GuardedCache.step]
  split
  · rename_i floor cached hcall
    obtain ⟨hfloor, hentry⟩ := h.calls reader _ hcall
    cases hfresh : s.fresh ttl cached with
    | none =>
      refine h.goTo reader fun call hsome => ?_
      obtain rfl := Option.some.inj hsome
      exact ⟨hfloor, le_rfl⟩
    | some value =>
      obtain ⟨⟨stamp, kept⟩, hfilter, rfl⟩ := Option.map_eq_some_iff.mp hfresh
      obtain ⟨hcached, hage⟩ := Option.filter_eq_some_iff.mp hfilter
      obtain ⟨hstamp, hseen⟩ := hentry stamp kept hcached
      have hage : s.clock - stamp < ttl := of_decide_eq_true hage
      have hlate : s.clock - (ttl - 1) ≤ stamp := by omega
      exact (h.answer ⟨le_rfl, hfloor, hseen.anti le_rfl hlate⟩).goTo reader fun _ hnone => nomatch hnone
  · exact h

lemma keep (h : Sound ttl view s) (reader : ρ) : Sound ttl view (step ttl view s (.keep reader)) := by
  rw [GuardedCache.step]
  split
  · rename_i floor now generation value hcall
    have hread := h.calls reader _ hcall
    obtain ⟨hstored, hgrows⟩ := h.store hread
    obtain ⟨hfloor, hnow, _, hseen, _⟩ := hread
    refine (hstored.answer (hgrows.answered ⟨hnow, hfloor, ?_⟩)).goTo reader fun _ hnone => nomatch hnone
    exact hseen.anti le_rfl (Nat.sub_le _ _)
  · exact h

lemma step (h : Sound ttl view s) (action : Action ρ V) : Sound ttl view (step ttl view s action) := by
  cases action with
  | ask reader =>
    rw [GuardedCache.step]
    split
    · refine h.goTo reader fun call hsome => ?_
      obtain rfl := Option.some.inj hsome
      exact le_rfl
    · exact h
  | look reader anew => exact h.look reader anew
  | judge reader => exact h.judge reader
  | note reader =>
    rw [GuardedCache.step]
    split
    · rename_i floor now hcall
      obtain ⟨hfloor, hnow⟩ := h.calls reader _ hcall
      refine h.goTo reader fun call hsome => ?_
      obtain rfl := Option.some.inj hsome
      exact ⟨hfloor, hnow, le_rfl⟩
    · exact h
  | read reader =>
    rw [GuardedCache.step]
    split
    · rename_i floor now generation hcall
      obtain ⟨hfloor, hnow, hgeneration⟩ := h.calls reader _ hcall
      refine h.goTo reader fun call hsome => ?_
      obtain rfl := Option.some.inj hsome
      exact ⟨hfloor, hnow, hgeneration, h.seen_table hfloor view, fun _ => h.seen_table le_rfl view⟩
    · exact h
  | keep reader => exact h.keep reader
  | fail reader => exact h.goTo reader fun _ hnone => nomatch hnone
  | commit write => exact h.commit _
  | invalidate version =>
    rw [GuardedCache.step]
    split_ifs with hversion
    · exact h.drop hversion
    · exact h
  | tick duration => exact h.tick duration

end Sound

lemma mem_answers_store {answer : Answer α} (h : answer ∈ s.answers) (time noted : ℕ) (value : α) :
    answer ∈ (s.store time noted value).answers := by
  rw [State.store]
  split_ifs
  · exact h
  · exact h

variable [Inhabited V] [DecidableEq ρ]

/-- Under every interleaving, what a reader is answered shows every write whose writer had returned when it
began, and every other write that is older than the time an entry is kept. -/
theorem sound_run (ttl : ℕ) (view : V → α) (table : V) (actions : List (Action ρ V)) :
    Sound ttl view (run ttl view table actions : State ρ V α) :=
  Runs.invariant_of_step (fun _ action h => h.step action) (.start ttl view table) actions

lemma mem_answers_step {answer : Answer α} (h : answer ∈ s.answers) (action : Action ρ V) :
    answer ∈ (step ttl view s action).answers := by
  unfold step
  cases action with
  | ask reader => dsimp only; split <;> exact h
  | look reader anew => dsimp only; split <;> exact h
  | judge reader =>
    dsimp only
    split
    · split
      · exact List.mem_append_left _ h
      · exact h
    · exact h
  | note reader => dsimp only; split <;> exact h
  | read reader => dsimp only; split <;> exact h
  | keep reader =>
    dsimp only
    split
    · exact List.mem_append_left _ (mem_answers_store h _ _ _)
    · exact h
  | fail reader => exact h
  | commit write => exact h
  | invalidate version => dsimp only; split_ifs <;> exact h
  | tick duration => exact h

lemma mem_answers_run {answer : Answer α} {table : V} {actions : List (Action ρ V)}
    (h : answer ∈ (run ttl view table actions).answers) (later : List (Action ρ V)) :
    answer ∈ (run ttl view table (actions ++ later)).answers := by
  rw [run, Runs.run_append]
  exact Runs.invariant_of_step (I := fun s : State ρ V α => answer ∈ s.answers)
    (fun _ action hmem => mem_answers_step hmem action) h later

end GuardedCache
