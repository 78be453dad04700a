import Mathlib.Data.List.Basic

/-! Runs of a deterministic machine under a condition on each step, which may look at the state
the step starts from. -/

namespace Runs

variable {State Action : Type*} (step : State → Action → State)
variable (allowed : State → Action → Prop)

def run (s : State) (actions : List Action) : State := actions.foldl step s

def Allowed : State → List Action → Prop
  | _, [] => True
  | s, action :: rest => allowed s action ∧ Allowed (step s action) rest

instance Allowed.decidable [∀ s action, Decidable (allowed s action)] :
    ∀ s actions, Decidable (Allowed step allowed s actions)
  | _, [] => isTrue trivial
  | s, action :: rest =>
    have := Allowed.decidable (step s action) rest
    inferInstanceAs (Decidable (_ ∧ _))

def Always (holds : State → Prop) : State → List Action → Prop
  | s, [] => holds s
  | s, action :: rest => holds s ∧ Always holds (step s action) rest

variable {step allowed}

lemma run_singleton (s : State) (action : Action) : run step s [action] = step s action := rfl

lemma run_append (s : State) (earlier later : List Action) :
    run step s (earlier ++ later) = run step (run step s earlier) later := List.foldl_append

lemma allowed_append {s : State} {earlier later : List Action} :
    Allowed step allowed s (earlier ++ later) ↔
      Allowed step allowed s earlier ∧ Allowed step allowed (run step s earlier) later := by
  induction earlier generalizing s with
  | nil => exact ⟨fun h => ⟨trivial, h⟩, And.right⟩
  | cons action rest ih =>
    change (_ ∧ Allowed step allowed _ (rest ++ later)) ↔ _
    rw [ih]
    exact and_assoc.symm

lemma Allowed.take {s : State} {actions : List Action} (h : Allowed step allowed s actions) (k : ℕ) :
    Allowed step allowed s (actions.take k) := by
  rw [← List.take_append_drop k actions] at h
  exact (allowed_append.mp h).1

lemma allowed_of_forall {holds : Action → Prop} {s : State} {actions : List Action}
    (h : ∀ action ∈ actions, holds action) : Allowed step (fun _ action => holds action) s actions := by
  induction actions generalizing s with
  | nil => trivial
  | cons action rest ih =>
    exact ⟨h action List.mem_cons_self, ih fun other hother => h other (List.mem_cons_of_mem _ hother)⟩

lemma allowed_congr {allowed' : State → Action → Prop} (h : ∀ s action, allowed s action ↔ allowed' s action)
    {s : State} {actions : List Action} : Allowed step allowed s actions ↔ Allowed step allowed' s actions := by
  induction actions generalizing s with
  | nil => exact Iff.rfl
  | cons action rest ih => exact and_congr (h s action) ih

lemma allowed_of_invariant {I : State → Prop} {allowed' : State → Action → Prop}
    (hstep : ∀ s action, I s → allowed s action → I (step s action))
    (hallowed : ∀ s action, I s → allowed s action → allowed' s action) {s : State} (hstart : I s)
    {actions : List Action} (hall : Allowed step allowed s actions) : Allowed step allowed' s actions := by
  induction actions generalizing s with
  | nil => trivial
  | cons action rest ih => exact ⟨hallowed s action hstart hall.1, ih (hstep s action hstart hall.1) hall.2⟩

theorem invariant {I : State → Prop}
    (hstep : ∀ s action, I s → allowed s action → I (step s action)) {s : State}
    (hstart : I s) {actions : List Action} (hall : Allowed step allowed s actions) :
    I (run step s actions) := by
  induction actions generalizing s with
  | nil => exact hstart
  | cons action rest ih => exact ih (hstep s action hstart hall.1) hall.2

theorem invariant_of_step {I : State → Prop} (hstep : ∀ s action, I s → I (step s action))
    {s : State} (hstart : I s) (actions : List Action) : I (run step s actions) := by
  induction actions generalizing s with
  | nil => exact hstart
  | cons action rest ih => exact ih (hstep s action hstart)

lemma Always.last {holds : State → Prop} {s : State} {actions : List Action}
    (h : Always step holds s actions) : holds (run step s actions) := by
  induction actions generalizing s with
  | nil => exact h
  | cons action rest ih => exact ih h.2

theorem always_of_allowed {I holds : State → Prop}
    (hstep : ∀ s action, I s → allowed s action → I (step s action)) (hholds : ∀ s, I s → holds s) {s : State}
    (hs : I s) {actions : List Action} (hall : Allowed step allowed s actions) : Always step holds s actions := by
  induction actions generalizing s with
  | nil => exact hholds s hs
  | cons action rest ih => exact ⟨hholds s hs, ih (hstep s action hs hall.1) hall.2⟩

/-- A property that a step keeps exactly when it is allowed holds in every state of a run exactly
when every step of the run is. -/
theorem always_iff_allowed {I holds : State → Prop}
    (hinv : ∀ s action, I s → I (step s action))
    (hstep : ∀ s action, I s → holds s → (holds (step s action) ↔ allowed s action)) {s : State}
    (hs : I s) (hstart : holds s) (actions : List Action) :
    Always step holds s actions ↔ Allowed step allowed s actions := by
  induction actions generalizing s with
  | nil => exact ⟨fun _ => trivial, fun _ => hstart⟩
  | cons action rest ih =>
    constructor
    · rintro ⟨_, hrest⟩
      have hnext : holds (step s action) := by
        cases rest with
        | nil => exact hrest
        | cons next rest => exact hrest.1
      exact ⟨(hstep s action hs hstart).mp hnext, (ih (hinv s action hs) hnext).mp hrest⟩
    · rintro ⟨hallowed, hrest⟩
      have hnext := (hstep s action hs hstart).mpr hallowed
      exact ⟨hstart, (ih (hinv s action hs) hnext).mpr hrest⟩

theorem always_iff_of_step {holds : State → Prop}
    (hstep : ∀ s action, holds s → (holds (step s action) ↔ allowed s action)) {s : State} (hstart : holds s)
    (actions : List Action) : Always step holds s actions ↔ Allowed step allowed s actions := by
  have hinv (s : State) (action : Action) (_ : True) : True := trivial
  exact always_iff_allowed (I := fun _ => True) hinv (fun s action _ => hstep s action) trivial hstart actions

theorem allowed_of_run {holds : State → Prop} (hback : ∀ s action, holds (step s action) → holds s)
    (hstep : ∀ s action, holds (step s action) → allowed s action) {s : State} {actions : List Action}
    (h : holds (run step s actions)) : holds s ∧ Allowed step allowed s actions := by
  induction actions generalizing s with
  | nil => exact ⟨h, trivial⟩
  | cons action rest ih =>
    obtain ⟨hnext, hrest⟩ := ih h
    exact ⟨hback s action hnext, hstep s action hnext, hrest⟩

end Runs
