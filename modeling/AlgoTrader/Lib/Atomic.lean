import AlgoTrader.Lib.Runs

/-! Procedures as lists of writes that may stop anywhere. Some writes are dangling: another one has to
follow before the state is good again. -/

namespace Atomic

variable {State Write : Type*} (apply : State → Write → State) (dangling : Write → Prop)

def Dangles (writes : List Write) : Prop := ∃ write ∈ writes.getLast?, dangling write

/-- The writes leave a good state when they are done, and wherever they stop but after a dangling one. -/
structure Keeps (Good : State → Prop) (s : State) (writes : List Write) : Prop where
  done : Good (Runs.run apply s writes)
  stopped : ∀ k, ¬ Dangles dangling (writes.take k) → Good (Runs.run apply s (writes.take k))

variable {apply dangling} {Good : State → Prop} {s : State} {writes more : List Write}

lemma Keeps.nil (h : Good s) : Keeps apply dangling Good s [] where
  done := h
  stopped k _ := by
    rw [List.take_nil]
    exact h

lemma Keeps.of_allowed {allowed : State → Write → Prop}
    (hstep : ∀ s write, Good s → allowed s write → Good (apply s write)) (h : Good s)
    (hall : Runs.Allowed apply allowed s writes) : Keeps apply dangling Good s writes where
  done := Runs.invariant hstep h hall
  stopped k _ := Runs.invariant hstep h (hall.take k)

lemma Keeps.single {write : Write} (h : Good s) (hdone : Good (apply s write)) :
    Keeps apply dangling Good s [write] where
  done := hdone
  stopped k _ := by
    match k with
    | 0 => exact h
    | k + 1 =>
      rw [List.take_of_length_le (Nat.le_add_left 1 k)]
      exact hdone

lemma Keeps.pair {first second : Write} (hdangling : dangling first) (h : Good s)
    (hdone : Good (apply (apply s first) second)) : Keeps apply dangling Good s [first, second] where
  done := hdone
  stopped k hstop := by
    match k with
    | 0 => exact h
    | 1 => exact absurd ⟨first, rfl, hdangling⟩ hstop
    | k + 2 =>
      rw [List.take_of_length_le (Nat.le_add_left 2 k)]
      exact hdone

lemma Keeps.append (h : Keeps apply dangling Good s writes)
    (hmore : Keeps apply dangling Good (Runs.run apply s writes) more) :
    Keeps apply dangling Good s (writes ++ more) where
  done := by
    rw [Runs.run_append]
    exact hmore.done
  stopped k hstop := by
    rw [List.take_append] at hstop ⊢
    by_cases hk : k ≤ writes.length
    · have hnil : more.take (k - writes.length) = [] := by
        rw [Nat.sub_eq_zero_of_le hk]
        rfl
      rw [hnil, List.append_nil] at hstop ⊢
      exact h.stopped k hstop
    · rw [List.take_of_length_le (Nat.le_of_not_le hk)] at hstop ⊢
      rw [Runs.run_append]
      cases hrest : more.take (k - writes.length) with
      | nil => exact h.done
      | cons first rest =>
        rw [← hrest]
        apply hmore.stopped
        intro hmid
        obtain ⟨write, hlast, hdangling⟩ := hmid
        refine hstop ⟨write, ?_, hdangling⟩
        rw [List.getLast?_append_of_ne_nil _ (by rw [hrest]; exact List.cons_ne_nil _ _)]
        exact hlast

end Atomic
