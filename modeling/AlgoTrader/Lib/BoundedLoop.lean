import Mathlib.Tactic.Common

/-! A counted loop whose body may fail, and the rules for reasoning about it: what a
finished loop says about its earlier rounds, the invariant rule, and two loops run side
by side. -/

namespace BoundedLoop

universe u

variable {σ ε : Type*}

@[simp] lemma bind_eq_ok {α β : Type u} (x : Except ε α) (f : α → Except ε β) (b : β) :
    (x >>= f) = .ok b ↔ ∃ a, x = .ok a ∧ f a = .ok b := by
  cases x <;> simp [bind, Except.bind]

lemma ok_bind {α β : Type u} (a : α) (f : α → Except ε β) : (Except.ok a >>= f) = f a := rfl

@[simp] lemma pure_eq_ok {α : Type u} (a b : α) : (pure a : Except ε α) = .ok b ↔ a = b := by
  simp [pure, Except.pure]

lemma exists_ok_of_any {α : Type*} {x : Except ε α} {p : α → Bool} (h : x.toOption.any p = true) :
    ∃ a, x = .ok a ∧ p a = true := by
  cases x with
  | error e => simp [Except.toOption] at h
  | ok a => exact ⟨a, rfl, by simpa [Except.toOption] using h⟩

lemma mapM_mem {α : Type*} {β : Type u} {f : α → Except ε β} {l : List α} {bs : List β} (h : l.mapM f = .ok bs)
    {b : β} (hb : b ∈ bs) : ∃ a ∈ l, f a = .ok b := by
  induction l generalizing bs with
  | nil =>
    rw [List.mapM_nil, pure_eq_ok] at h
    simp [← h] at hb
  | cons a l ih =>
    simp only [List.mapM_cons, bind_eq_ok, pure_eq_ok] at h
    obtain ⟨first, hfirst, rest, hrest, rfl⟩ := h
    rcases List.mem_cons.mp hb with rfl | hb
    · exact ⟨a, by simp, hfirst⟩
    · obtain ⟨a', ha', hround⟩ := ih hrest hb
      exact ⟨a', List.mem_cons_of_mem a ha', hround⟩

lemma mapError_ok {ε' : Type*} {α : Type u} {f : ε → ε'} {x : Except ε α} {a : α} (h : x.mapError f = .ok a) :
    x = .ok a := by
  cases x with
  | error e => cases h
  | ok a' => exact congrArg Except.ok (Except.ok.inj h)

def iterate (body : ℕ → σ → Except ε σ) (init : σ) : ℕ → Except ε σ
  | 0 => .ok init
  | n + 1 => iterate body init n >>= body n

variable {body body' : ℕ → σ → Except ε σ} {init s : σ} {n m : ℕ}

lemma iterate_zero_ok (h : iterate body init 0 = .ok s) : init = s := by
  simpa [iterate] using h

lemma iterate_succ_ok :
    iterate body init (n + 1) = .ok s ↔ ∃ t, iterate body init n = .ok t ∧ body n t = .ok s := by
  simp only [iterate, bind_eq_ok]

lemma iterate_le_ok (h : iterate body init n = .ok s) (hm : m ≤ n) :
    ∃ t, iterate body init m = .ok t := by
  induction n generalizing s with
  | zero =>
    obtain rfl := Nat.le_zero.mp hm
    exact ⟨s, h⟩
  | succ n ih =>
    rcases Nat.le_or_eq_of_le_succ hm with hle | rfl
    · obtain ⟨t, ht, _⟩ := iterate_succ_ok.mp h
      exact ih ht hle
    · exact ⟨s, h⟩

lemma iterate_lt_ok (h : iterate body init n = .ok s) (hm : m < n) :
    ∃ t u, iterate body init m = .ok t ∧ body m t = .ok u ∧ iterate body init (m + 1) = .ok u := by
  obtain ⟨u, hu⟩ := iterate_le_ok h (Nat.succ_le_of_lt hm)
  obtain ⟨t, ht, hb⟩ := iterate_succ_ok.mp hu
  exact ⟨t, u, ht, hb, hu⟩

theorem invariant {P : ℕ → σ → Prop} (h0 : P 0 init)
    (hstep : ∀ i t u, i < n → iterate body init i = .ok t → P i t → body i t = .ok u → P (i + 1) u)
    (h : iterate body init n = .ok s) : P n s := by
  induction n generalizing s with
  | zero => exact iterate_zero_ok h ▸ h0
  | succ n ih =>
    obtain ⟨t, ht, hb⟩ := iterate_succ_ok.mp h
    have hP : P n t := ih (fun i a b hi => hstep i a b (Nat.lt_succ_of_lt hi)) ht
    exact hstep n t s (Nat.lt_succ_self n) ht hP hb

theorem invariant_from {P : ℕ → σ → Prop} {t : σ} (hm : m ≤ n) (ht : iterate body init m = .ok t)
    (h0 : P m t)
    (hstep : ∀ i t u, m ≤ i → i < n → iterate body init i = .ok t → P i t → body i t = .ok u →
      P (i + 1) u)
    (h : iterate body init n = .ok s) : P n s := by
  refine invariant (P := fun i u => m ≤ i → P i u) ?_ ?_ h hm
  · intro hm0
    obtain rfl := Nat.le_zero.mp hm0
    exact iterate_zero_ok ht ▸ h0
  · intro i a b hi ha ih hb hle
    rcases Nat.le_or_eq_of_le_succ hle with hmi | rfl
    · exact hstep i a b hmi hi ha (ih hmi) hb
    · have hb' := iterate_succ_ok.mpr ⟨a, ha, hb⟩
      rw [ht] at hb'
      exact Except.ok.inj hb' ▸ h0

theorem iterate_congr (h : ∀ i < n, ∀ t, body i t = body' i t) :
    iterate body init n = iterate body' init n := by
  induction n with
  | zero => rfl
  | succ n ih =>
    have hn : body n = body' n := funext (h n (Nat.lt_succ_self n))
    rw [iterate, iterate, ih (fun i hi => h i (Nat.lt_succ_of_lt hi)), hn]

theorem iterate_map {σ τ : Type u} {body : ℕ → σ → Except ε σ} {body' : ℕ → τ → Except ε τ} {f : σ → τ}
    (h : ∀ i s, (body i s).map f = body' i (f s)) (init : σ) (n : ℕ) :
    (iterate body init n).map f = iterate body' (f init) n := by
  induction n with
  | zero => rfl
  | succ n ih =>
    rw [iterate, iterate, ← ih]
    cases iterate body init n with
    | error e => rfl
    | ok s => exact h n s

lemma iterate_add (body : ℕ → σ → Except ε σ) (init : σ) (m n : ℕ) : iterate body init (m + n) =
    iterate body init m >>= fun s => iterate (fun i => body (m + i)) s n := by
  induction n with
  | zero =>
    rw [Nat.add_zero]
    cases iterate body init m <;> rfl
  | succ n ih =>
    rw [← Nat.add_assoc, iterate, ih]
    cases iterate body init m <;> rfl

end BoundedLoop
