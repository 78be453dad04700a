import AlgoTrader.Automation.SchedulerWorker

/-! One run of a job at a time over any interleaving of loop threads, job threads and restarts: what one
job goes through, and the worker as one such job at each position. -/

namespace AlgoTrader.Automation.Scheduler

namespace JobState

variable {js : JobState} {grace now clock : ℤ} {run e : ℕ}

lemma runs_launch_self :
    (js.launch now clock).runs js.started = { tick := now, startedAt := clock, active := true } :=
  Function.update_self _ _ _

lemma runs_launch (he : e < js.started) : (js.launch now clock).runs e = js.runs e :=
  Function.update_of_ne (Nat.ne_of_lt he) _ _

lemma tick_finish : ((js.finish run).runs e).tick = (js.runs e).tick := by
  by_cases he : e = run <;> simp [finish, he]

lemma startedAt_finish : ((js.finish run).runs e).startedAt = (js.runs e).startedAt := by
  by_cases he : e = run <;> simp [finish, he]

lemma abandonedAt_finish : ((js.finish run).runs e).abandonedAt = (js.runs e).abandonedAt := by
  by_cases he : e = run <;> simp [finish, he]

lemma active_of_finish (h : ((js.finish run).runs e).active = true) : (js.runs e).active = true := by
  by_cases he : e = run
  · simp [finish, he] at h
  · simpa [finish, he] using h

lemma tick_abandon : ((js.abandon grace now clock run).runs e).tick = (js.runs e).tick := by
  by_cases he : e = run <;> simp [abandon, he]

lemma startedAt_abandon : ((js.abandon grace now clock run).runs e).startedAt = (js.runs e).startedAt := by
  by_cases he : e = run <;> simp [abandon, he]

lemma active_abandon : ((js.abandon grace now clock run).runs e).active = (js.runs e).active := by
  by_cases he : e = run <;> simp [abandon, he]

lemma abandonedAt_abandon_self : ((js.abandon grace now clock run).runs run).abandonedAt = some clock := by
  simp [abandon]

lemma abandonedAt_abandon (he : e ≠ run) :
    ((js.abandon grace now clock run).runs e).abandonedAt = (js.runs e).abandonedAt := by
  simp [abandon, he]

end JobState

/-- The state of one job while at most one loop thread is at it. ``call`` is that thread's cycle, and the
execution it waits for once it has begun one. -/
structure JobInv (interval : ℕ) (grace : ℤ) (clock : ℤ) (call : Option (ℤ × Option ℕ))
    (js : JobState) : Prop where
  now_le : ∀ now run, call = some (now, run) → now ≤ clock
  started_le : ∀ e < js.started, (js.runs e).startedAt ≤ clock
  called : ∀ now e, call = some (now, some e) → e + 1 = js.started ∧ (js.runs e).tick = now
  settled : ∀ e < js.started, (∀ now, call ≠ some (now, some e)) →
    ∃ last, js.lastRunAt = some last ∧ (js.runs e).tick ≤ last
  left : ∀ e < js.started, (js.runs e).active = true → (∀ now, call ≠ some (now, some e)) →
    ∃ since, (js.runs e).abandonedAt = some since ∧ (js.overrun = some (e, since) ∨ since + grace ≤ clock)
  picked : ∀ now, call = some (now, none) → ∀ e < js.started, (js.runs e).tick + interval ≤ now ∧
    ((js.runs e).active = true → ∃ since, (js.runs e).abandonedAt = some since ∧ since + grace ≤ clock)
  spaced : ∀ e e', e < e' → e' < js.started → (js.runs e).tick + interval ≤ (js.runs e').tick
  apart : ∀ e e', e < e' → e' < js.started → (js.runs e).active = true → (js.runs e').active = true →
    ∃ since, (js.runs e).abandonedAt = some since ∧ since + grace ≤ (js.runs e').startedAt

namespace JobInv

open JobState (runs_launch runs_launch_self tick_finish startedAt_finish abandonedAt_finish active_of_finish
  tick_abandon startedAt_abandon active_abandon abandonedAt_abandon_self abandonedAt_abandon)

variable {interval : ℕ} {grace : ℤ} {clock now : ℤ} {call : Option (ℤ × Option ℕ)} {js : JobState}

lemma fresh : JobInv interval grace clock none {} := by
  constructor <;> simp

lemma pass (h : JobInv interval grace clock call js) (micros : ℕ) :
    JobInv interval grace (clock + micros) call js := by
  constructor
  · intro now run hcall
    have hnow := h.now_le now run hcall
    omega
  · intro e he
    have hstarted := h.started_le e he
    omega
  · exact h.called
  · exact h.settled
  · intro e he hactive hout
    obtain ⟨since, hsince, hoverrun | hgrace⟩ := h.left e he hactive hout
    · exact ⟨since, hsince, .inl hoverrun⟩
    · exact ⟨since, hsince, .inr (by omega)⟩
  · intro now hcall e he
    obtain ⟨htick, hactive⟩ := h.picked now hcall e he
    refine ⟨htick, fun ha => ?_⟩
    obtain ⟨since, hsince, hgrace⟩ := hactive ha
    exact ⟨since, hsince, by omega⟩
  · exact h.spaced
  · exact h.apart

lemma pick (h : JobInv interval grace clock none js) (hnow : now ≤ clock) (hdue : js.isDue interval now = true)
    (hprevious : js.previousRunAlive grace now = false) :
    JobInv interval grace clock (some (now, none)) js.forgetOverrun := by
  have hgone : ∀ e < js.started, (js.runs e).active = true →
      ∃ since, (js.runs e).abandonedAt = some since ∧ since + grace ≤ clock := by
    intro e he hactive
    obtain ⟨since, hsince, hoverrun | hgrace⟩ := h.left e he hactive (by simp)
    · simp only [JobState.previousRunAlive, hoverrun, Option.any_some, hactive, Bool.true_and,
        decide_eq_false_iff_not, not_lt] at hprevious
      exact ⟨since, hsince, by omega⟩
    · exact ⟨since, hsince, hgrace⟩
  constructor
  · intro now' run hcall
    cases hcall
    exact hnow
  · exact h.started_le
  · intro now' e hcall
    cases hcall
  · intro e he _
    exact h.settled e he (by simp)
  · intro e he hactive _
    obtain ⟨since, hsince, hgrace⟩ := hgone e he hactive
    exact ⟨since, hsince, .inr hgrace⟩
  · intro now' hcall e he
    cases hcall
    obtain ⟨last, hlast, htick⟩ := h.settled e he (by simp)
    simp only [JobState.isDue, hlast, Option.all_some, decide_eq_true_eq] at hdue
    refine ⟨?_, hgone e he⟩
    change (js.runs e).tick + interval ≤ now
    omega
  · exact h.spaced
  · exact h.apart

lemma drop (h : JobInv interval grace clock (some (now, none)) js) : JobInv interval grace clock none js := by
  constructor
  · intro now' run hcall
    cases hcall
  · exact h.started_le
  · intro now' e hcall
    cases hcall
  · intro e he _
    exact h.settled e he (by simp)
  · intro e he hactive _
    exact h.left e he hactive (by simp)
  · intro now' hcall
    cases hcall
  · exact h.spaced
  · exact h.apart

lemma launch (h : JobInv interval grace clock (some (now, none)) js) :
    JobInv interval grace clock (some (now, some js.started)) (js.launch now clock) := by
  have hcases (e : ℕ) (he : e < (js.launch now clock).started) : e < js.started ∨ e = js.started :=
    Nat.lt_succ_iff_lt_or_eq.mp he
  constructor
  · intro now' run hcall
    cases hcall
    exact h.now_le now none rfl
  · intro e he
    rcases hcases e he with hold | rfl
    · rw [runs_launch hold]
      exact h.started_le e hold
    · rw [runs_launch_self]
  · intro now' e hcall
    cases hcall
    rw [runs_launch_self]
    exact ⟨rfl, rfl⟩
  · intro e he hout
    rcases hcases e he with hold | rfl
    · rw [runs_launch hold]
      exact h.settled e hold (by simp)
    · exact absurd rfl (hout now)
  · intro e he hactive hout
    rcases hcases e he with hold | rfl
    · rw [runs_launch hold] at hactive ⊢
      exact h.left e hold hactive (by simp)
    · exact absurd rfl (hout now)
  · intro now' hcall
    cases hcall
  · intro e e' hlt he'
    rcases hcases e' he' with hold | rfl
    · rw [runs_launch hold, runs_launch (Nat.lt_trans hlt hold)]
      exact h.spaced e e' hlt hold
    · rw [runs_launch_self, runs_launch hlt]
      exact (h.picked now rfl e hlt).1
  · intro e e' hlt he' hactive hactive'
    rcases hcases e' he' with hold | rfl
    · rw [runs_launch (Nat.lt_trans hlt hold)] at hactive ⊢
      rw [runs_launch hold] at hactive' ⊢
      exact h.apart e e' hlt hold hactive hactive'
    · rw [runs_launch hlt] at hactive ⊢
      rw [runs_launch_self]
      exact (h.picked now rfl e hlt).2 hactive

lemma finish (h : JobInv interval grace clock call js) (run : ℕ) :
    JobInv interval grace clock call (js.finish run) := by
  constructor
  · exact h.now_le
  · intro e he
    rw [startedAt_finish]
    exact h.started_le e he
  · intro now e hcall
    rw [tick_finish]
    exact h.called now e hcall
  · intro e he hout
    rw [tick_finish]
    exact h.settled e he hout
  · intro e he ha hout
    rw [abandonedAt_finish]
    exact h.left e he (active_of_finish ha) hout
  · intro now hcall e he
    rw [tick_finish, abandonedAt_finish]
    exact ⟨(h.picked now hcall e he).1, fun ha => (h.picked now hcall e he).2 (active_of_finish ha)⟩
  · intro e e' hlt he'
    rw [tick_finish, tick_finish]
    exact h.spaced e e' hlt he'
  · intro e e' hlt he' ha ha'
    rw [abandonedAt_finish, startedAt_finish]
    exact h.apart e e' hlt he' (active_of_finish ha) (active_of_finish ha')

lemma tick_le_of_called {run e : ℕ} (h : JobInv interval grace clock (some (now, some run)) js)
    (he : e < js.started) : (js.runs e).tick ≤ now := by
  obtain ⟨hlast, htick⟩ := h.called now run rfl
  rcases Nat.lt_or_eq_of_le (Nat.lt_succ_iff.mp (hlast ▸ he)) with hlt | rfl
  · have hspaced := h.spaced e run hlt (by omega)
    omega
  · omega

lemma settle {run : ℕ} (h : JobInv interval grace clock (some (now, some run)) js)
    (hover : (js.runs run).active = false) : JobInv interval grace clock none (js.settle now) := by
  constructor
  · intro now' e hcall
    cases hcall
  · exact h.started_le
  · intro now' e hcall
    cases hcall
  · intro e he _
    exact ⟨now, rfl, h.tick_le_of_called he⟩
  · intro e he hactive _
    refine h.left e he hactive ?_
    rintro now' ⟨⟩
    cases hactive.symm.trans hover
  · intro now' hcall
    cases hcall
  · exact h.spaced
  · exact h.apart

lemma abandon {run : ℕ} (h : JobInv interval grace clock (some (now, some run)) js)
    (hrunning : (js.runs run).active = true) :
    JobInv interval grace clock none (js.abandon grace now clock run) := by
  have hlast := (h.called now run rfl).1
  constructor
  · intro now' e hcall
    cases hcall
  · intro e he
    rw [startedAt_abandon]
    exact h.started_le e he
  · intro now' e hcall
    cases hcall
  · intro e he _
    rw [tick_abandon]
    exact ⟨now, rfl, h.tick_le_of_called he⟩
  · intro e he ha _
    rw [active_abandon] at ha
    by_cases hrun : e = run
    · subst hrun
      refine ⟨clock, abandonedAt_abandon_self, ?_⟩
      by_cases hgrace : 0 < grace
      · exact .inl (if_pos hgrace)
      · exact .inr (by omega)
    · have hle : e < js.started := he
      obtain ⟨since, hsince, hgrace⟩ := h.apart e run (by omega) (by omega) ha hrunning
      have hstarted := h.started_le run (by omega)
      rw [abandonedAt_abandon hrun]
      exact ⟨since, hsince, .inr (by omega)⟩
  · intro now' hcall
    cases hcall
  · intro e e' hlt he'
    rw [tick_abandon, tick_abandon]
    exact h.spaced e e' hlt he'
  · intro e e' hlt he' ha ha'
    rw [active_abandon] at ha ha'
    have hle : e' < js.started := he'
    rw [abandonedAt_abandon (by omega), startedAt_abandon]
    exact h.apart e e' hlt he' ha ha'

end JobInv

def Stage.onJob (position : ℕ) : Stage → Option (ℤ × Option ℕ)
  | .picked now p => if p = position then some (now, none) else none
  | .calling now p run => if p = position then some (now, some run) else none
  | _ => none

def Stage.tick : Stage → Option ℤ
  | .ticking now _ => some now
  | .picked now _ => some now
  | .calling now _ _ => some now
  | _ => none

namespace Worker

variable (s : Settings) (w : Worker)

def intervalAt (position : ℕ) : ℕ := s.jobs[position]?.elim 0 ScheduledJob.interval

/-- No two executions of a job run at once, unless the earlier one overran its timeout and was left alone
for the grace; and an execution begins no earlier than the interval after one that came back before it. -/
structure Single : Prop where
  apart : ∀ position e e', e < e' → e' < (w.jobs position).started →
    ((w.jobs position).runs e).active = true → ((w.jobs position).runs e').active = true →
      ∃ since, ((w.jobs position).runs e).abandonedAt = some since ∧
        since + s.overlapGrace ≤ ((w.jobs position).runs e').startedAt
  spaced : ∀ position e e' count, e < e' → e' < (w.jobs position).started →
    ((w.jobs position).runs e).finishedBefore = some count → count ≤ e' →
      ((w.jobs position).runs e).tick + intervalAt s position ≤ ((w.jobs position).runs e').tick

/-- A loop thread picks a job only while no other one has picked it or is still inside its call. -/
def Clear (w : Worker) : Event → Prop
  | .advance loop => ∀ now position, w.loops loop = .ticking now position → w.picks s now position = true →
      ∀ other, (w.loops other).onJob position = none
  | _ => True

def Lone (loops : ℕ → Stage) (position : ℕ) : Option (ℤ × Option ℕ) → Prop
  | none => ∀ loop, (loops loop).onJob position = none
  | some call =>
      ∃ loop, (loops loop).onJob position = some call ∧ ∀ other ≠ loop, (loops other).onJob position = none

structure Inv : Prop where
  born : ∀ loop, w.loops loop ≠ .ended → loop ≤ w.generation
  tick_le : ∀ loop now, (w.loops loop).tick = some now → now ≤ w.clock
  jobs : ∀ position, ∃ call, Lone w.loops position call ∧
    JobInv (intervalAt s position) s.overlapGrace w.clock call (w.jobs position)

variable {s w} {loops : ℕ → Stage} {loop position : ℕ} {stage : Stage} {call : Option (ℤ × Option ℕ)}

lemma Lone.frame (h : Lone loops position call) (hsame : stage.onJob position = (loops loop).onJob position) :
    Lone (Function.update loops loop stage) position call := by
  have hall (other : ℕ) :
      (Function.update loops loop stage other).onJob position = (loops other).onJob position := by
    by_cases hother : other = loop
    · rw [hother, Function.update_self, hsame]
    · rw [Function.update_of_ne hother]
  cases call with
  | none =>
    intro other
    rw [hall]
    exact h other
  | some call =>
    obtain ⟨owner, howner, hothers⟩ := h
    refine ⟨owner, (hall owner).trans howner, ?_⟩
    intro other hne
    rw [hall]
    exact hothers other hne

lemma Lone.move (hothers : ∀ other ≠ loop, (loops other).onJob position = none) :
    Lone (Function.update loops loop stage) position (stage.onJob position) := by
  cases hat : stage.onJob position with
  | none =>
    intro other
    by_cases hother : other = loop
    · rw [hother, Function.update_self, hat]
    · rw [Function.update_of_ne hother]
      exact hothers other hother
  | some call =>
    refine ⟨loop, ?_, ?_⟩
    · rw [Function.update_self, hat]
    · intro other hother
      rw [Function.update_of_ne hother]
      exact hothers other hother

lemma Lone.owner {here : ℤ × Option ℕ} (h : Lone loops position call)
    (hloop : (loops loop).onJob position = some here) :
    call = some here ∧ ∀ other ≠ loop, (loops other).onJob position = none := by
  cases call with
  | none => cases (h loop).symm.trans hloop
  | some call =>
    obtain ⟨owner, howner, hothers⟩ := h
    have hsame : loop = owner := by
      by_contra hne
      cases (hothers loop hne).symm.trans hloop
    subst hsame
    exact ⟨howner.symm.trans hloop, hothers⟩

lemma Lone.eq_none (h : Lone loops position call) (hfree : ∀ loop, (loops loop).onJob position = none) :
    call = none := by
  cases call with
  | none => rfl
  | some call =>
    obtain ⟨owner, howner, _⟩ := h
    cases (hfree owner).symm.trans howner

lemma picks_spec {now : ℤ} (h : w.picks s now position = true) :
    (w.jobs position).isDue (intervalAt s position) now = true ∧
      (w.jobs position).previousRunAlive s.overlapGrace now = false := by
  rw [picks] at h
  rw [intervalAt]
  cases hjob : s.jobs[position]? with
  | none =>
    rw [hjob] at h
    cases h
  | some job =>
    rw [hjob, Option.any_some, Bool.and_eq_true, Bool.not_eq_true'] at h
    exact h

lemma Inv.single (hinv : Inv s w) : Single s w where
  apart position e e' hlt he' ha ha' := by
    obtain ⟨call, _, hjob⟩ := hinv.jobs position
    exact hjob.apart e e' hlt he' ha ha'
  spaced position e e' count hlt he' _ _ := by
    obtain ⟨call, _, hjob⟩ := hinv.jobs position
    exact hjob.spaced e e' hlt he'

lemma born_update {generation : ℕ} (h : ∀ other, loops other ≠ .ended → other ≤ generation)
    (hborn : loop ≤ generation) :
    ∀ other, Function.update loops loop stage other ≠ .ended → other ≤ generation := by
  intro other hne
  by_cases hother : other = loop
  · exact hother ▸ hborn
  · rw [Function.update_of_ne hother] at hne
    exact h other hne

lemma Inv.setLoop (hinv : Inv s w) (hborn : loop ≤ w.generation)
    (hsame : ∀ position, stage.onJob position = (w.loops loop).onJob position)
    (htick : ∀ now, stage.tick = some now → now ≤ w.clock) : Inv s (w.setLoop loop stage) where
  born := born_update hinv.born hborn
  tick_le other now h := by
    change (Function.update w.loops loop stage other).tick = some now at h
    by_cases hother : other = loop
    · rw [hother, Function.update_self] at h
      exact htick now h
    · rw [Function.update_of_ne hother] at h
      exact hinv.tick_le other now h
  jobs position := by
    obtain ⟨call, hat, hjob⟩ := hinv.jobs position
    exact ⟨call, hat.frame (hsame position), hjob⟩

lemma Inv.setJob (hinv : Inv s w) {js : JobState} (hborn : loop ≤ w.generation)
    (hothers : ∀ other ≠ loop, (w.loops other).onJob position = none)
    (hstage : ∀ other ≠ position, stage.onJob other = (w.loops loop).onJob other)
    (htick : ∀ now, stage.tick = some now → now ≤ w.clock)
    (hjob : JobInv (intervalAt s position) s.overlapGrace w.clock (stage.onJob position) js) :
    Inv s ((w.setJob position js).setLoop loop stage) where
  born := born_update hinv.born hborn
  tick_le other now h := by
    change (Function.update w.loops loop stage other).tick = some now at h
    by_cases hother : other = loop
    · rw [hother, Function.update_self] at h
      exact htick now h
    · rw [Function.update_of_ne hother] at h
      exact hinv.tick_le other now h
  jobs other := by
    by_cases hother : other = position
    · subst hother
      refine ⟨stage.onJob other, Lone.move hothers, ?_⟩
      change JobInv _ _ _ _ (Function.update w.jobs other js other)
      rw [Function.update_self]
      exact hjob
    · obtain ⟨call, hat, hold⟩ := hinv.jobs other
      refine ⟨call, hat.frame (hstage other hother), ?_⟩
      change JobInv _ _ _ _ (Function.update w.jobs position js other)
      rw [Function.update_of_ne hother]
      exact hold

lemma onJob_ending (ending : Ending) (now : ℤ) (p position : ℕ) : (ending.stage now p).onJob position = none := by
  cases ending <;> rfl

lemma tick_ending {ending : Ending} {now now' : ℤ} {p : ℕ} (h : (ending.stage now p).tick = some now') :
    now' = now := by
  cases ending with
  | next => exact (Option.some.inj h).symm
  | abort => cases h
  | die => cases h

lemma Inv.spawn (hinv : Inv s w) : Inv s w.spawn := by
  have hnew : w.loops (w.generation + 1) = .ended := by
    by_contra hne
    have hborn := hinv.born (w.generation + 1) hne
    omega
  constructor
  · intro other hne
    change Function.update w.loops (w.generation + 1) .starting other ≠ .ended at hne
    change other ≤ w.generation + 1
    by_cases hother : other = w.generation + 1
    · omega
    · rw [Function.update_of_ne hother] at hne
      have hborn := hinv.born other hne
      omega
  · intro other now h
    change (Function.update w.loops (w.generation + 1) .starting other).tick = some now at h
    by_cases hother : other = w.generation + 1
    · rw [hother, Function.update_self] at h
      cases h
    · rw [Function.update_of_ne hother] at h
      exact hinv.tick_le other now h
  · intro position
    obtain ⟨call, hlone, hjob⟩ := hinv.jobs position
    refine ⟨call, hlone.frame ?_, hjob⟩
    rw [hnew]
    rfl

lemma Inv.beat (hinv : Inv s w) : Inv s w.beat := ⟨hinv.born, hinv.tick_le, hinv.jobs⟩

lemma Inv.drop {now : ℤ} (hinv : Inv s w) (hstage : w.loops loop = .picked now position)
    (hnone : ∀ other, stage.onJob other = none) (htick : stage.tick = none) : Inv s (w.setLoop loop stage) := by
  have hat : (w.loops loop).onJob position = some (now, none) := by rw [hstage]; exact if_pos rfl
  obtain ⟨call, hlone, hjob⟩ := hinv.jobs position
  obtain ⟨rfl, hothers⟩ := hlone.owner hat
  have hset : w.setLoop loop stage = (w.setJob position (w.jobs position)).setLoop loop stage := by
    rw [Worker.setJob, Function.update_eq_self]
  rw [hset]
  apply hinv.setJob (hinv.born loop (by rw [hstage]; simp)) hothers
  · intro other hother
    rw [hstage, hnone]
    exact (if_neg (Ne.symm hother)).symm
  · intro now' h
    cases htick.symm.trans h
  · rw [hnone]
    exact hjob.drop

lemma Inv.leave (hinv : Inv s w) (dies : Bool) : Inv s (w.setLoop loop ((w.loops loop).leave dies)) := by
  cases hstage : w.loops loop with
  | picked now position =>
    cases dies <;> exact hinv.drop hstage (fun _ => rfl) rfl
  | ended =>
    have hset : w.setLoop loop (Stage.ended.leave dies) = w := by
      rw [Worker.setLoop, Stage.leave, ← hstage, Function.update_eq_self]
    rw [hset]
    exact hinv
  | calling now position run =>
    have hset : w.setLoop loop ((Stage.calling now position run).leave dies) = w := by
      rw [Worker.setLoop, Stage.leave, ← hstage, Function.update_eq_self]
    rw [hset]
    exact hinv
  | starting =>
    have hborn := hinv.born loop (by rw [hstage]; simp)
    cases dies <;> exact hinv.setLoop hborn (fun _ => by rw [hstage]; rfl) (fun _ h => by cases h)
  | waiting =>
    have hborn := hinv.born loop (by rw [hstage]; simp)
    cases dies <;> exact hinv.setLoop hborn (fun _ => by rw [hstage]; rfl) (fun _ h => by cases h)
  | ticking now position =>
    have hborn := hinv.born loop (by rw [hstage]; simp)
    cases dies <;> exact hinv.setLoop hborn (fun _ => by rw [hstage]; rfl) (fun _ h => by cases h)

lemma Inv.consider {now : ℤ} (hinv : Inv s w) (hstage : w.loops loop = .ticking now position)
    (hclear : w.picks s now position = true → ∀ other, (w.loops other).onJob position = none) :
    Inv s (w.consider s loop now position) := by
  have hborn := hinv.born loop (by rw [hstage]; simp)
  have hnow := hinv.tick_le loop now (by rw [hstage]; rfl)
  rw [Worker.consider]
  split_ifs with hlength hpicks
  · exact hinv.beat.setLoop hborn (fun _ => by rw [Worker.beat, hstage]; rfl) (fun _ h => by cases h)
  · have hfree := hclear hpicks
    obtain ⟨call, hlone, hjob⟩ := hinv.jobs position
    obtain rfl := hlone.eq_none hfree
    obtain ⟨hdue, hprevious⟩ := picks_spec hpicks
    apply hinv.setJob hborn (fun other _ => hfree other)
    · intro other hother
      rw [hstage]
      exact if_neg (Ne.symm hother)
    · intro now' h
      cases h
      exact hnow
    · have hpicked : (Stage.picked now position).onJob position = some (now, none) := if_pos rfl
      rw [hpicked]
      exact hjob.pick hnow hdue hprevious
  · apply hinv.setLoop hborn
    · intro other
      rw [hstage]
      rfl
    · intro now' h
      cases h
      exact hnow

lemma Inv.advance (hinv : Inv s w) (hclear : w.Clear s (.advance loop)) : Inv s (w.advance s loop) := by
  rw [Worker.advance]
  cases hstage : w.loops loop with
  | starting =>
    have hborn := hinv.born loop (by rw [hstage]; simp)
    exact hinv.beat.setLoop hborn (fun _ => by rw [Worker.beat, hstage]; rfl) (fun _ h => by cases h)
  | waiting =>
    have hborn := hinv.born loop (by rw [hstage]; simp)
    dsimp only
    split_ifs
    · exact hinv.setLoop hborn (fun _ => by rw [hstage]; rfl) (fun _ h => by cases h)
    · exact hinv.setLoop hborn (fun _ => by rw [hstage]; rfl) (fun _ h => by cases h; exact Int.le_refl _)
  | ticking now position => exact hinv.consider hstage (hclear now position hstage)
  | picked now position =>
    have hat : (w.loops loop).onJob position = some (now, none) := by rw [hstage]; exact if_pos rfl
    obtain ⟨call, hlone, hjob⟩ := hinv.jobs position
    obtain ⟨rfl, hothers⟩ := hlone.owner hat
    have hborn := hinv.born loop (by rw [hstage]; simp)
    apply hinv.beat.setJob hborn hothers
    · intro other hother
      rw [Worker.beat, hstage]
      exact (if_neg (Ne.symm hother)).trans (if_neg (Ne.symm hother)).symm
    · intro now' h
      cases h
      exact hjob.now_le now none rfl
    · have hcalling : (Stage.calling now position (w.jobs position).started).onJob position =
          some (now, some (w.jobs position).started) := if_pos rfl
      rw [hcalling]
      exact hjob.launch
  | calling now position run => exact hinv
  | ended => exact hinv

lemma Inv.settle (hinv : Inv s w) (ending : Ending) : Inv s (w.settle loop ending) := by
  rw [Worker.settle]
  cases hstage : w.loops loop with
  | calling now position run =>
    have hat : (w.loops loop).onJob position = some (now, some run) := by rw [hstage]; exact if_pos rfl
    obtain ⟨call, hlone, hjob⟩ := hinv.jobs position
    obtain ⟨rfl, hothers⟩ := hlone.owner hat
    by_cases hactive : ((w.jobs position).runs run).active = true
    · simp only [hactive, if_true]
      exact hinv
    · simp only [hactive]
      apply hinv.setJob (hinv.born loop (by rw [hstage]; simp)) hothers
      · intro other hother
        rw [hstage, onJob_ending]
        exact (if_neg (Ne.symm hother)).symm
      · intro now' h
        rw [tick_ending h]
        exact hjob.now_le now _ rfl
      · rw [onJob_ending]
        exact hjob.settle (Bool.eq_false_iff.mpr hactive)
  | _ => exact hinv

lemma Inv.timeout (hinv : Inv s w) (ending : Ending) : Inv s (w.timeout s loop ending) := by
  rw [Worker.timeout]
  cases hstage : w.loops loop with
  | calling now position run =>
    have hat : (w.loops loop).onJob position = some (now, some run) := by rw [hstage]; exact if_pos rfl
    obtain ⟨call, hlone, hjob⟩ := hinv.jobs position
    obtain ⟨rfl, hothers⟩ := hlone.owner hat
    dsimp only
    split_ifs with hover
    · apply hinv.setJob (hinv.born loop (by rw [hstage]; simp)) hothers
      · intro other hother
        rw [hstage, onJob_ending]
        exact (if_neg (Ne.symm hother)).symm
      · intro now' h
        rw [tick_ending h]
        exact hjob.now_le now _ rfl
      · rw [onJob_ending]
        exact hjob.abandon hover.1
    · exact hinv
  | _ => exact hinv

lemma inv_step (w : Worker) (event : Event) (hinv : Inv s w) (hclear : w.Clear s event) :
    Inv s (w.step s event) := by
  cases event with
  | pass micros =>
    constructor
    · exact hinv.born
    · intro loop now h
      have hle := hinv.tick_le loop now h
      change now ≤ w.clock + micros
      omega
    · intro position
      obtain ⟨call, hlone, hjob⟩ := hinv.jobs position
      exact ⟨call, hlone, hjob.pass micros⟩
  | start =>
    rw [step]
    split_ifs
    · exact hinv
    · exact Inv.spawn ⟨hinv.born, hinv.tick_le, hinv.jobs⟩
  | stop => exact ⟨hinv.born, hinv.tick_le, hinv.jobs⟩
  | ensureAlive =>
    rw [step, ensureAlive]
    split_ifs
    · exact hinv
    · exact hinv
    · exact hinv.spawn
  | advance loop => exact hinv.advance hclear
  | finish position run =>
    rw [step]
    split_ifs
    · refine ⟨hinv.born, hinv.tick_le, ?_⟩
      intro other
      obtain ⟨call, hlone, hjob⟩ := hinv.jobs other
      refine ⟨call, hlone, ?_⟩
      change JobInv _ _ _ _ (Function.update w.jobs position _ other)
      by_cases hother : other = position
      · subst hother
        rw [Function.update_self]
        exact hjob.finish run
      · rw [Function.update_of_ne hother]
        exact hjob
    · exact hinv
  | settle loop ending => exact hinv.settle ending
  | timeout loop ending => exact hinv.timeout ending
  | leave loop dies => exact hinv.leave dies

lemma inv_fresh (clock : ℤ) : Inv s { clock := clock } := by
  constructor
  · intro loop hne
    exact absurd rfl hne
  · intro loop now h
    cases h
  · intro position
    exact ⟨none, fun _ => rfl, JobInv.fresh⟩

/-- Over any interleaving of loop threads, job threads, restarts and late finishes: where no loop thread
picks a job that another one has picked or is still in, no job runs twice at once within the grace, and
none begins again before its interval. -/
theorem jobs_run_singly (s : Settings) (clock : ℤ) (events : List Event)
    (h : Runs.Allowed (step s) (Clear s) { clock := clock } events) :
    Runs.Always (step s) (Single s) { clock := clock } events :=
  Runs.always_of_allowed (I := Inv s) inv_step (fun _ => Inv.single) (inv_fresh clock) h

def cadence : Settings := { jobs := [{ name := "workflow_cadence", interval := 60000000 }] }

def cycle (loop : ℕ) : List Event := [.advance loop, .advance loop, .advance loop, .advance loop]

-- A loop thread dies after a job, and the one that takes its place runs the job again.
def revived : List Event :=
  .start :: cycle 1 ++ [.finish 0 0, .settle 1 .die, .pass 60000000, .ensureAlive] ++ cycle 2

theorem jobs_run_singly_revived : Runs.Always (step cadence) (Single cadence) { clock := 0 } revived := by
  apply jobs_run_singly cadence 0 revived
  refine ⟨trivial, ?_, ?_, ?_, ?_, trivial, trivial, trivial, trivial, ?_, ?_, ?_, ?_, trivial⟩
  · rintro now position ⟨⟩
  · rintro now position ⟨⟩
  · rintro now position ⟨⟩ _ other
    by_cases hother : other = 1
    · rw [hother]
      rfl
    · simp [step, Worker.advance, Worker.alive, Worker.spawn, Worker.setLoop, Worker.beat, hother, Stage.onJob]
  · rintro now position ⟨⟩
  · rintro now position ⟨⟩
  · rintro now position ⟨⟩
  · rintro now position ⟨⟩ _ other
    by_cases hother : other = 1 ∨ other = 2
    · rcases hother with rfl | rfl <;> rfl
    · obtain ⟨hone, htwo⟩ := not_or.mp hother
      have hfirst {loops : ℕ → Stage} {stage : Stage} (h : loops other = .ended) :
          Function.update loops 1 stage other = .ended := (Function.update_of_ne hone _ _).trans h
      have hsecond {loops : ℕ → Stage} {stage : Stage} (h : loops other = .ended) :
          Function.update loops 2 stage other = .ended := (Function.update_of_ne htwo _ _).trans h
      have hended : (Runs.run (step cadence) { clock := 0 } (revived.take 11)).loops other = .ended :=
        hsecond (hsecond (hsecond (hfirst (hfirst (hfirst (hfirst (hfirst (hfirst rfl))))))))
      exact congrArg (Stage.onJob 0) hended
  · rintro now position ⟨⟩

-- The job hangs on its loop thread, which is replaced, and the replacement runs the job beside it.
def hung : List Event := .start :: cycle 1 ++ [.pass 301000000, .ensureAlive] ++ cycle 2

-- The replacement's run is over when the first one comes back, and ten seconds later the job runs again.
def lateFinish : List Event :=
  hung ++ [.finish 0 1, .settle 2 .next, .pass 10000000, .finish 0 0, .settle 1 .next] ++ cycle 2

theorem hung_job_runs_twice :
    (¬ Runs.Always (step cadence) (Single cadence) { clock := 0 } hung) ∧
      ¬ Runs.Always (step cadence) (Single cadence) { clock := 0 } lateFinish := by
  constructor
  · intro h
    obtain ⟨since, hsince, _⟩ := h.last.apart 0 0 1 (by decide +kernel) (by decide +kernel) (by decide +kernel)
      (by decide +kernel)
    cases hsince
  · intro h
    have hspaced := h.last.spaced 0 1 2 2 (by decide +kernel) (by decide +kernel) (by decide +kernel)
      (by decide +kernel)
    revert hspaced
    decide +kernel

end Worker

end AlgoTrader.Automation.Scheduler
