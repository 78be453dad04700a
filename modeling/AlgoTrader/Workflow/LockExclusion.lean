import AlgoTrader.Workflow.CadenceBudget

/-! Exclusion of the workflow lock over any interleaving of its runs' steps, where each write of a run
finds the lock as that run read it. -/

namespace AlgoTrader.Workflow.CadenceBudget

open AlgoTrader.Utils.Time

def Event.actor : Event → Option ℕ
  | .pass _ => none
  | .read run | .check run | .stamp run | .write run | .readBack run _ | .clear run | .crash run => some run

namespace State

variable (wait : ℤ) (w : State)

/-- No two runs hold the lock with stamps that are not stale, and no release cleared another run's lock. -/
structure Exclusive : Prop where
  one : ∀ r r' stamp stamp', (w.runs r).held = some stamp → (w.runs r').held = some stamp' →
    w.fresh wait stamp → w.fresh wait stamp' → r = r'
  unstolen : w.stolen = false

/-- No run takes a stamp that another one has, and no other write falls between what a run read and the
write it makes of it. -/
def Undisturbed (w : State) : Event → Prop
  | .stamp _ => ∀ r, (w.runs r).stamp ≠ some w.clock
  | .write run => ∀ seen stamp, w.runs run = .stamped seen stamp → w.stored = seen
  | .clear run => ∀ stamp seen, w.runs run = .releasing stamp seen → seen.any (keeps stamp) = false →
      w.stored = seen.getD (.stamp stamp)
  | _ => True

structure Inv : Prop where
  fresh_owner : ∀ r stamp, (w.runs r).held = some stamp → w.fresh wait stamp → w.owner = some r
  owner_stored : ∀ r stamp, (w.runs r).held = some stamp → w.owner = some r → w.stored = .stamp stamp
  passed_stale : ∀ r seen startedAt, (w.runs r).passed = some seen → lockTime false seen = some startedAt →
    ¬ w.fresh wait startedAt
  stamps_differ : ∀ r r' stamp, (w.runs r).stamp = some stamp → (w.runs r').stamp = some stamp → r = r'
  unstolen : w.stolen = false

variable {wait w} {run : ℕ} {stage : Stage}

lemma set_self : (w.set run stage).runs run = stage := Function.update_self _ _ _

lemma set_ne {r : ℕ} (h : r ≠ run) : (w.set run stage).runs r = w.runs r := Function.update_of_ne h _ _

lemma stamp_of_held {stage : Stage} {stamp : Timestamp} (h : stage.held = some stamp) :
    stage.stamp = some stamp := by
  cases stage <;> first | exact h | cases h

lemma Inv.exclusive (hinv : Inv wait w) : Exclusive wait w where
  one r r' stamp stamp' hheld hheld' hfresh hfresh' := by
    have howner := hinv.fresh_owner r stamp hheld hfresh
    have howner' := hinv.fresh_owner r' stamp' hheld' hfresh'
    exact Option.some.inj (howner.symm.trans howner')
  unstolen := hinv.unstolen

lemma Inv.pass (hinv : Inv wait w) (micros : ℕ) : Inv wait { w with clock := w.clock + micros } := by
  have hback (stamp : Timestamp) (h : ({ w with clock := w.clock + micros } : State).fresh wait stamp) :
      w.fresh wait stamp := by
    exact (Int.sub_le_sub_right (le_add_wait w.clock micros) stamp).trans_lt h
  constructor
  · intro r stamp hheld hfresh
    exact hinv.fresh_owner r stamp hheld (hback stamp hfresh)
  · exact hinv.owner_stored
  · intro r seen startedAt hpassed htime hfresh
    exact hinv.passed_stale r seen startedAt hpassed htime (hback startedAt hfresh)
  · exact hinv.stamps_differ
  · exact hinv.unstolen

lemma Inv.set (hinv : Inv wait w) (hheld : ∀ stamp, stage.held = some stamp → (w.runs run).held = some stamp)
    (hpassed : ∀ seen startedAt, stage.passed = some seen → lockTime false seen = some startedAt →
      ¬ w.fresh wait startedAt)
    (hstamp : ∀ r stamp, r ≠ run → stage.stamp = some stamp → (w.runs r).stamp ≠ some stamp) :
    Inv wait (w.set run stage) := by
  have hheldOld (r : ℕ) (stamp : Timestamp) (h : ((w.set run stage).runs r).held = some stamp) :
      (w.runs r).held = some stamp := by
    by_cases hr : r = run
    · subst hr
      rw [set_self] at h
      exact hheld stamp h
    · rwa [set_ne hr] at h
  constructor
  · intro r stamp h hfresh
    exact hinv.fresh_owner r stamp (hheldOld r stamp h) hfresh
  · intro r stamp h howner
    exact hinv.owner_stored r stamp (hheldOld r stamp h) howner
  · intro r seen startedAt h htime
    by_cases hr : r = run
    · subst hr
      rw [set_self] at h
      exact hpassed seen startedAt h htime
    · rw [set_ne hr] at h
      exact hinv.passed_stale r seen startedAt h htime
  · intro r r' stamp h h'
    by_cases hr : r = run
    · by_cases hr' : r' = run
      · exact hr.trans hr'.symm
      · subst hr
        rw [set_self] at h
        rw [set_ne hr'] at h'
        exact absurd h' (hstamp r' stamp hr' h)
    · by_cases hr' : r' = run
      · subst hr'
        rw [set_self] at h'
        rw [set_ne hr] at h
        exact absurd h (hstamp r stamp hr h')
      · rw [set_ne hr] at h
        rw [set_ne hr'] at h'
        exact hinv.stamps_differ r r' stamp h h'
  · exact hinv.unstolen

lemma Inv.setEnded (hinv : Inv wait w) : Inv wait (w.set run .ended) := by
  apply hinv.set
  · intro stamp h
    cases h
  · intro seen startedAt h
    cases h
  · intro r stamp _ h
    cases h

lemma stamp_set (hstamp : stage.stamp = (w.runs run).stamp) (r : ℕ) :
    ((w.set run stage).runs r).stamp = (w.runs r).stamp := by
  by_cases hr : r = run
  · rw [hr, set_self, hstamp]
  · rw [set_ne hr]

lemma Inv.setSame (hinv : Inv wait w) (hstamp : stage.stamp = (w.runs run).stamp)
    (hheld : ∀ stamp, stage.held = some stamp → (w.runs run).held = some stamp)
    (hpassed : ∀ seen startedAt, stage.passed = some seen → lockTime false seen = some startedAt →
      ¬ w.fresh wait startedAt) : Inv wait (w.set run stage) := by
  apply hinv.set hheld hpassed
  intro r stamp hr h h'
  rw [hstamp] at h
  exact hr (hinv.stamps_differ r run stamp h' h)

lemma Inv.check (hinv : Inv wait w) : Inv wait (w.check wait run) := by
  rw [State.check]
  cases hstage : w.runs run with
  | read seen =>
    apply hinv.set
    · intro stamp h
      split_ifs at h <;> cases h
    · intro seen' startedAt h htime hfresh
      split_ifs at h with hany
      · cases h
      · obtain rfl : seen = seen' := Option.some.inj h
        refine hany ?_
        rw [htime]
        exact decide_eq_true hfresh
    · intro r stamp _ h
      split_ifs at h <;> cases h
  | _ => exact hinv

/-- The stamp goes over the value that passed the check: whoever held the lock is stale. -/
lemma Inv.write (hinv : Inv wait w) (hsame : w.Undisturbed (.write run)) : Inv wait (w.write run) := by
  rw [State.write]
  cases hstage : w.runs run with
  | stamped seen stamp =>
    have hseen : w.stored = seen := hsame seen stamp hstage
    have hstale : ∀ r other, (w.runs r).held = some other → ¬ w.fresh wait other := by
      intro r other hheld hfresh
      have hstored := hinv.owner_stored r other hheld (hinv.fresh_owner r other hheld hfresh)
      have hpassed : (w.runs run).passed = some w.stored := by rw [hstage, hseen]; rfl
      have htime : lockTime false w.stored = some other := by rw [hstored]; rfl
      exact hinv.passed_stale run w.stored other hpassed htime hfresh
    have hstamp : (Stage.holding stamp).stamp = (w.runs run).stamp := by rw [hstage]; rfl
    constructor
    · intro r other hheld hfresh
      by_cases hr : r = run
      · exact congrArg some hr.symm
      · change ((w.set run (.holding stamp)).runs r).held = some other at hheld
        rw [set_ne hr] at hheld
        exact absurd hfresh (hstale r other hheld)
    · intro r other hheld howner
      obtain rfl : run = r := Option.some.inj howner
      change ((w.set run (.holding stamp)).runs run).held = some other at hheld
      rw [set_self] at hheld
      exact congrArg LockText.stamp (Option.some.inj hheld)
    · intro r passed startedAt hpassed htime
      change ((w.set run (.holding stamp)).runs r).passed = some passed at hpassed
      by_cases hr : r = run
      · rw [hr, set_self] at hpassed
        cases hpassed
      · rw [set_ne hr] at hpassed
        exact hinv.passed_stale r passed startedAt hpassed htime
    · intro r r' other h h'
      have hold := (stamp_set hstamp r).symm.trans h
      have hold' := (stamp_set hstamp r').symm.trans h'
      exact hinv.stamps_differ r r' other hold hold'
    · exact hinv.unstolen
  | _ => exact hinv

/-- A release that goes on to clear finds its own stamp, or one that is nobody's. -/
lemma Inv.not_another (hinv : Inv wait w) {stamp : Timestamp} {seen : Option LockText}
    (hstage : w.runs run = .releasing stamp seen) (hclears : seen.any (keeps stamp) = false)
    (hsame : w.stored = seen.getD (.stamp stamp)) {owner : ℕ} {other : Timestamp}
    (howner : w.owner = some owner) (hheld : (w.runs owner).held = some other) : owner = run := by
  have hstored := hinv.owner_stored owner other hheld howner
  have hown : other = stamp := by
    cases seen with
    | none => exact LockText.stamp.inj (hstored.symm.trans hsame)
    | some current =>
      obtain rfl : current = .stamp other := hsame.symm.trans hstored
      by_contra hne
      have hkeeps : keeps stamp (.stamp other) = true := by simp [keeps, lockTime, hne]
      cases hclears.symm.trans hkeeps
  have hstamp : (w.runs run).stamp = some stamp := by rw [hstage]; rfl
  exact hinv.stamps_differ owner run stamp (stamp_of_held (hown ▸ hheld)) hstamp

lemma Inv.clear (hinv : Inv wait w) (hsame : w.Undisturbed (.clear run)) : Inv wait (w.clear run) := by
  rw [State.clear]
  cases hstage : w.runs run with
  | releasing stamp seen =>
    have hended : Inv wait (w.set run .ended) := hinv.setEnded
    by_cases hkeeps : seen.any (keeps stamp) = true
    · simp only [hkeeps, if_true]
      exact hended
    · have hclears := Bool.eq_false_iff.mpr hkeeps
      have hanother {owner : ℕ} {other : Timestamp} (howner : w.owner = some owner)
          (hheld : (w.runs owner).held = some other) : owner = run :=
        hinv.not_another hstage hclears (hsame stamp seen hstage hclears) howner hheld
      simp only [hclears]
      constructor
      · intro r other hheld hfresh
        change ((w.set run .ended).runs r).held = some other at hheld
        by_cases hr : r = run
        · rw [hr, set_self] at hheld
          cases hheld
        · rw [set_ne hr] at hheld
          exact absurd (hanother (hinv.fresh_owner r other hheld hfresh) hheld) hr
      · intro r other _ howner
        cases howner
      · exact hended.passed_stale
      · exact hended.stamps_differ
      · refine Bool.or_eq_false_iff.mpr ⟨hinv.unstolen, ?_⟩
        cases howner : w.owner with
        | none => rfl
        | some owner =>
          cases hheld : (w.runs owner).held with
          | none => simp [hheld]
          | some other => simp [hanother howner hheld]
  | _ => exact hinv

lemma inv_step (w : State) (event : Event) (hinv : Inv wait w) (hsame : w.Undisturbed event) :
    Inv wait (w.step wait event) := by
  cases event with
  | pass micros => exact hinv.pass micros
  | read run =>
    rw [step]
    split_ifs
    · apply hinv.set
      · intro stamp h
        cases h
      · intro seen startedAt h
        cases h
      · intro r stamp _ h
        cases h
    · exact hinv
  | check run => exact hinv.check
  | stamp run =>
    rw [step]
    cases hstage : w.runs run with
    | free seen =>
      apply hinv.set
      · intro stamp h
        cases h
      · intro seen' startedAt h
        have hpassed : (w.runs run).passed = some seen' := by rw [hstage]; exact h
        exact hinv.passed_stale run seen' startedAt hpassed
      · intro r stamp _ h
        exact Option.some.inj h ▸ hsame r
    | _ => exact hinv
  | write run => exact hinv.write hsame
  | readBack run ok =>
    rw [step]
    cases hstage : w.runs run with
    | holding stamp =>
      apply hinv.setSame
      · rw [hstage]
        rfl
      · intro other h
        rw [hstage]
        exact h
      · intro seen startedAt h
        cases h
    | _ => exact hinv
  | clear run => exact hinv.clear hsame
  | crash run => exact hinv.setEnded

lemma runs_step {r : ℕ} {event : Event} (h : event.actor ≠ some r) : (w.step wait event).runs r = w.runs r := by
  have hne {run : ℕ} (hactor : event.actor = some run) : r ≠ run := fun hr => h (hr ▸ hactor)
  cases event with
  | pass micros => rfl
  | read run =>
    rw [step]
    split_ifs
    · exact set_ne (hne rfl)
    · rfl
  | check run =>
    rw [step, State.check]
    split
    · exact set_ne (hne rfl)
    · rfl
  | stamp run =>
    rw [step]
    split
    · exact set_ne (hne rfl)
    · rfl
  | write run =>
    rw [step, State.write]
    split
    · exact set_ne (hne rfl)
    · rfl
  | readBack run ok =>
    rw [step]
    split
    · exact set_ne (hne rfl)
    · rfl
  | clear run =>
    rw [step, State.clear]
    split
    · split_ifs <;> exact set_ne (hne rfl)
    · rfl
  | crash run => exact set_ne (hne rfl)

lemma runs_run {r : ℕ} {events : List Event} (h : ∀ event ∈ events, event.actor ≠ some r) :
    (Runs.run (step wait) w events).runs r = w.runs r := by
  induction events generalizing w with
  | nil => rfl
  | cons event rest ih =>
    have hrest := ih (w := step wait w event) fun other hother => h other (List.mem_cons_of_mem _ hother)
    exact hrest.trans (runs_step (h event List.mem_cons_self))

lemma inv_start (clock : Timestamp) (stored : LockText) : Inv wait (start clock stored) := by
  constructor <;> simp [start, Stage.held, Stage.passed, Stage.stamp]

/-- Any number of runs, interleaved in any way, from any stored text: where each write of a run finds the
lock as that run read it and no two runs take one stamp, at most one run holds a lock that is not stale,
and no release clears the lock of another run. -/
theorem lock_exclusive (settings : LockSettings) (task : String) (clock : Timestamp) (stored : LockText)
    (events : List Event)
    (h : Runs.Allowed (step (staleAfter settings task)) Undisturbed (start clock stored) events) :
    Runs.Always (step (staleAfter settings task)) (Exclusive (staleAfter settings task)) (start clock stored)
      events :=
  Runs.always_of_allowed (I := Inv (staleAfter settings task)) inv_step (fun _ => Inv.exclusive)
    (inv_start clock stored) h

def acquisition (run : ℕ) : List Event := [.read run, .check run, .stamp run, .write run]

-- A run whose process died, and another one that takes the lock over and releases it.
def takeover : List Event :=
  acquisition 0 ++ [.crash 0, .pass 2700000000] ++ acquisition 1 ++ [.readBack 1 true, .clear 1]

theorem lock_exclusive_takeover :
    Runs.Always (step (staleAfter {} "swing_scan")) (Exclusive (staleAfter {} "swing_scan")) (start 0 .empty)
      takeover := by
  apply lock_exclusive {} "swing_scan" 0 .empty takeover
  refine ⟨trivial, trivial, ?_, ?_, trivial, trivial, trivial, trivial, ?_, ?_, trivial, ?_, trivial⟩
  · intro r h
    by_cases hr : r = 0
    · subst hr
      cases h
    · have hidle : (Runs.run (step (staleAfter {} "swing_scan")) (start 0 .empty) [.read 0, .check 0]).runs r =
          .idle := runs_run (by simp [Event.actor, Ne.symm hr])
      cases (congrArg Stage.stamp hidle).symm.trans h
  · intro seen stamp h
    cases h
    rfl
  · intro r h
    by_cases hr : r = 0 ∨ r = 1
    · rcases hr with rfl | rfl <;> cases h
    · obtain ⟨hr0, hr1⟩ := not_or.mp hr
      have hidle : (Runs.run (step (staleAfter {} "swing_scan")) (start 0 .empty) (takeover.take 8)).runs r =
          .idle := runs_run (by simp [takeover, acquisition, Event.actor, Ne.symm hr0, Ne.symm hr1])
      cases (congrArg Stage.stamp hidle).symm.trans h
  · intro seen stamp h
    cases h
    rfl
  · intro stamp seen h _
    cases h
    rfl

-- Two runs read the lock before either writes it.
def readTogether : List Event :=
  [.read 0, .read 1, .check 0, .check 1, .stamp 0, .pass 1, .stamp 1, .write 0, .write 1]

-- A run reads its stale stamp back, another one takes the lock over, and then the first one clears it.
def lateRelease : List Event :=
  acquisition 0 ++ [.pass 2700000000, .readBack 0 true] ++ acquisition 1 ++ [.clear 0]

theorem lock_taken_twice :
    (¬ Runs.Always (step (staleAfter {} "swing_scan")) (Exclusive (staleAfter {} "swing_scan"))
      (start 0 .empty) readTogether) ∧
    ¬ Runs.Always (step (staleAfter {} "swing_scan")) (Exclusive (staleAfter {} "swing_scan"))
      (start 0 .empty) lateRelease := by
  constructor
  · intro h
    have hsame := h.last.one 0 1 0 1 rfl rfl (by decide +kernel) (by decide +kernel)
    cases hsame
  · intro h
    have hstolen : (Runs.run (step (staleAfter {} "swing_scan")) (start 0 .empty) lateRelease).stolen = true := by
      decide +kernel
    cases hstolen.symm.trans h.last.unstolen

end State

end AlgoTrader.Workflow.CadenceBudget
