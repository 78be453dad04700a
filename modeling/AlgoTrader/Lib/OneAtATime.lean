import Mathlib.Data.List.Basic

/-! Taking offers one at a time. An offer may appear at each tick; it is taken when nothing
taken before still occupies the desk, and occupies it until the tick its own `freeAt` gives,
or for good. -/

namespace OneAtATime

variable {α : Type*} (freeAt : α → Option ℕ) (offer : ℕ → Option α)

structure Desk (α : Type*) where
  free : Option ℕ
  taken : List α

def Desk.empty : Desk α := ⟨some 0, []⟩

def Desk.isFree (d : Desk α) (tick : ℕ) : Bool := d.free.any (· ≤ tick)

def step (tick : ℕ) (d : Desk α) : Desk α :=
  if d.isFree tick then
    match offer tick with
    | some a => ⟨freeAt a, d.taken ++ [a]⟩
    | none => d
  else d

def run : ℕ → Desk α
  | 0 => Desk.empty
  | n + 1 => step freeAt offer n (run n)

variable {freeAt offer} {d : Desk α} {tick n : ℕ} {a : α}

lemma length_le_one_of_pairwise {R : α → α → Prop} {l : List α} (h : l.Pairwise R)
    (hR : ∀ a ∈ l, ∀ b ∈ l, ¬ R a b) : l.length ≤ 1 := by
  cases h with
  | nil => exact Nat.zero_le 1
  | @cons a rest ha _ =>
    cases rest with
    | nil => exact Nat.le_refl 1
    | cons b rest =>
      have hb : b ∈ a :: b :: rest := List.mem_cons_of_mem a List.mem_cons_self
      exact absurd (ha b List.mem_cons_self) (hR a List.mem_cons_self b hb)

lemma step_busy (h : d.isFree tick = false) : step freeAt offer tick d = d := by
  simp [step, h]

lemma step_idle (h : offer tick = none) : step freeAt offer tick d = d := by
  rw [step, h]
  split_ifs <;> rfl

lemma step_take (h : d.isFree tick = true) (ha : offer tick = some a) :
    step freeAt offer tick d = ⟨freeAt a, d.taken ++ [a]⟩ := by
  simp [step, h, ha]

lemma isFree_mono {m : ℕ} (h : d.isFree tick = true) (hle : tick ≤ m) : d.isFree m = true := by
  rw [Desk.isFree] at *
  cases hfree : d.free with
  | none => simp [hfree] at h
  | some k =>
    simp only [hfree, Option.any_some, decide_eq_true_eq] at h ⊢
    omega

end OneAtATime
