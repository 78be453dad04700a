import Mathlib.Algebra.BigOperators.Intervals
import Mathlib.Data.List.Nodup
import Mathlib.Data.Nat.Periodic
import Mathlib.Tactic.Linarith
import Mathlib.Tactic.Ring

/-! A table that is refreshed in slices. Each round forgets the entries of one slot and then refreshes
unknown entries, in listing order, as far as its budget goes. -/

structure RollingRefresh (α : Type*) where
  slot : α → ℕ
  slices : ℕ
  budget : ℕ
  entries : List α

namespace RollingRefresh

open Finset

variable {α : Type*} (plan : RollingRefresh α) (n : ℕ) (known : α → Bool)

def due (a : α) : Bool := plan.slot a % plan.slices = n % plan.slices

def kept (a : α) : Bool := known a && !plan.due n a

def unknown (l : List α) : List α := l.filter fun a => !known a

def refreshed (l : List α) : List α := (unknown known l).take plan.budget

section Rounds

variable [DecidableEq α]

def round (a : α) : Bool := plan.kept n known a || decide (a ∈ plan.refreshed (plan.kept n known) plan.entries)

def rounds : ℕ → α → Bool
  | 0 => known
  | k + 1 => plan.round (n + k + 1) (rounds k)

end Rounds

variable {plan n known} {before after : List α} {x : α}

lemma unknown_append (first second : List α) :
    unknown known (first ++ second) = unknown known first ++ unknown known second := List.filter_append ..

lemma unknown_split (hentries : plan.entries = before ++ x :: after) (hx : known x = false) :
    unknown known plan.entries = unknown known before ++ x :: unknown known after := by
  rw [hentries, unknown_append]
  congr 1
  exact List.filter_cons_of_pos (by rw [hx]; rfl)

lemma mem_refreshed (hentries : plan.entries = before ++ x :: after) (hx : known x = false)
    (h : (unknown known before).length < plan.budget) : x ∈ plan.refreshed known plan.entries := by
  obtain ⟨m, hm⟩ := Nat.exists_eq_add_one_of_ne_zero (Nat.sub_ne_zero_of_lt h)
  rw [refreshed, unknown_split hentries hx, List.take_append, hm]
  exact List.mem_append_right _ List.mem_cons_self

lemma refreshed_eq (hentries : plan.entries = before ++ x :: after) (hx : known x = false)
    (h : plan.budget ≤ (unknown known before).length) :
    plan.refreshed known plan.entries = plan.refreshed known before := by
  rw [refreshed, unknown_split hentries hx, List.take_append_of_le_length h]
  rfl

lemma notMem_before (hentries : plan.entries = before ++ x :: after) (hnodup : plan.entries.Nodup) : x ∉ before :=
  fun hx => (List.nodup_append.mp (hentries ▸ hnodup)).2.2 x hx x List.mem_cons_self rfl

lemma unknown_kept_le (l : List α) :
    (unknown (plan.kept n known) l).length ≤ (unknown known l).length + (l.filter (plan.due n)).length := by
  induction l with
  | nil => exact le_refl 0
  | cons a rest ih =>
    simp only [unknown, kept, List.filter_cons] at ih ⊢
    cases known a <;> cases plan.due n a <;> simp at ih ⊢ <;> omega

lemma filter_notMem_take [DecidableEq α] {l : List α} (h : l.Nodup) (k : ℕ) :
    l.filter (fun a => !decide (a ∈ l.take k)) = l.drop k := by
  have htaken : (l.take k).filter (fun a => !decide (a ∈ l.take k)) = [] := by
    apply List.filter_eq_nil_iff.mpr
    intro a ha
    simpa using ha
  have hdropped : (l.drop k).filter (fun a => !decide (a ∈ l.take k)) = l.drop k := by
    apply List.filter_eq_self.mpr
    intro a ha
    have hnot : a ∉ l.take k := fun htake => List.disjoint_take_drop h (le_refl k) htake ha
    simpa using hnot
  calc l.filter (fun a => !decide (a ∈ l.take k))
      = (l.take k ++ l.drop k).filter (fun a => !decide (a ∈ l.take k)) := by rw [List.take_append_drop]
    _ = l.drop k := by rw [List.filter_append, htaken, hdropped, List.nil_append]

section Round

variable [DecidableEq α]

lemma rounds_add (k j : ℕ) :
    plan.rounds n known (k + j) = plan.rounds (n + k) (plan.rounds n known k) j := by
  induction j with
  | zero => rfl
  | succ j ih =>
    change plan.round (n + (k + j) + 1) (plan.rounds n known (k + j)) = plan.round _ _
    rw [ih, ← Nat.add_assoc]

lemma round_eq_false (h : plan.round n known x = false) :
    plan.kept n known x = false ∧ x ∉ plan.refreshed (plan.kept n known) plan.entries := by
  obtain ⟨hkept, hnot⟩ := Bool.or_eq_false_iff.mp h
  exact ⟨hkept, of_decide_eq_false hnot⟩

lemma budget_le_unknown (hentries : plan.entries = before ++ x :: after) (h : plan.round n known x = false) :
    plan.budget ≤ (unknown (plan.kept n known) before).length := by
  obtain ⟨hkept, hnot⟩ := round_eq_false h
  by_contra hlt
  exact hnot (mem_refreshed hentries hkept (not_le.mp hlt))

/-- What a round knows of an entry: it was kept, or it is among the unknown ones within the budget. -/
lemma round_iff (hentries : plan.entries = before ++ x :: after) (hnodup : plan.entries.Nodup) :
    plan.round n known x = true ↔
      plan.kept n known x = true ∨ (unknown (plan.kept n known) before).length < plan.budget := by
  constructor
  · intro h
    by_contra hnot
    obtain ⟨hkept, hbudget⟩ := not_or.mp hnot
    rcases Bool.or_eq_true_iff.mp h with hin | hrefreshed
    · exact hkept hin
    · rw [refreshed_eq hentries (Bool.eq_false_of_not_eq_true hkept) (not_lt.mp hbudget)] at hrefreshed
      have hmem := List.mem_of_mem_take (of_decide_eq_true hrefreshed)
      exact notMem_before hentries hnodup (List.mem_of_mem_filter hmem)
  · rintro (hkept | hbudget)
    · exact Bool.or_eq_true_iff.mpr (Or.inl hkept)
    · by_contra hnot
      exact absurd hbudget (not_lt.mpr (budget_le_unknown hentries (Bool.eq_false_of_not_eq_true hnot)))

lemma unknown_round (hnodup : before.Nodup)
    (hrefreshed : plan.refreshed (plan.kept n known) plan.entries = plan.refreshed (plan.kept n known) before) :
    unknown (plan.round n known) before = (unknown (plan.kept n known) before).drop plan.budget := by
  have hnodup' : (unknown (plan.kept n known) before).Nodup := hnodup.filter _
  rw [← filter_notMem_take hnodup', ← refreshed, ← hrefreshed]
  refine Eq.trans ?_ List.filter_filter.symm
  apply List.filter_congr
  intro a _
  rw [round, Bool.not_or, Bool.and_comm]

lemma unknown_round_le (hentries : plan.entries = before ++ x :: after) (hnodup : plan.entries.Nodup)
    (h : plan.round n known x = false) :
    (unknown (plan.round n known) before).length + plan.budget ≤
      (unknown known before).length + (before.filter (plan.due n)).length := by
  have hbudget := budget_le_unknown hentries h
  have hbefore : before.Nodup := (List.nodup_append.mp (hentries ▸ hnodup)).1
  have hspent := refreshed_eq hentries (round_eq_false h).1 hbudget
  have hdue : (unknown (plan.kept n known) before).length ≤
      (unknown known before).length + (before.filter (plan.due n)).length := unknown_kept_le before
  rw [unknown_round hbefore hspent, List.length_drop]
  omega

end Round

section Cycle

lemma sum_due_one (hslices : 0 < plan.slices) (n : ℕ) (a : α) :
    ∑ i ∈ range plan.slices, (if plan.due (n + i + 1) a then 1 else 0) = 1 := by
  let hits (m : ℕ) : Prop := plan.slot a % plan.slices = m % plan.slices
  have hperiodic : Function.Periodic hits plan.slices := fun m => by
    change (_ = (m + plan.slices) % plan.slices) = _
    rw [Nat.add_mod_right]
  have hcount : plan.slices.count hits = 1 := by
    rw [Nat.count_eq_card_filter_range, card_eq_one]
    refine ⟨plan.slot a % plan.slices, ?_⟩
    ext m
    rw [mem_filter, mem_range, mem_singleton]
    constructor
    · rintro ⟨hm, hhit⟩
      exact (hhit.trans (Nat.mod_eq_of_lt hm)).symm
    · rintro rfl
      exact ⟨Nat.mod_lt _ hslices, (Nat.mod_mod _ _).symm⟩
  calc ∑ i ∈ range plan.slices, (if plan.due (n + i + 1) a then 1 else 0)
      = ∑ m ∈ Ico (n + 1) (n + 1 + plan.slices), (if hits m then 1 else 0) := by
        rw [sum_Ico_eq_sum_range, Nat.add_sub_cancel_left]
        refine sum_congr rfl fun i _ => ?_
        rw [Nat.add_right_comm n i 1]
        simp [due, hits]
    _ = 1 := by rw [← card_filter, Nat.filter_Ico_card_eq_of_periodic _ _ _ hperiodic, hcount]

lemma exists_due (hslices : 0 < plan.slices) (n : ℕ) (a : α) :
    ∃ i < plan.slices, plan.due (n + i + 1) a = true := by
  by_contra hnone
  push Not at hnone
  have hzero : ∑ i ∈ range plan.slices, (if plan.due (n + i + 1) a then 1 else 0) = 0 := by
    refine sum_eq_zero fun i hi => if_neg (hnone i (mem_range.mp hi))
  exact absurd (hzero.symm.trans (sum_due_one hslices n a)) zero_ne_one

lemma sum_due_cycle (hslices : 0 < plan.slices) (n : ℕ) (l : List α) :
    ∑ i ∈ range plan.slices, (l.filter (plan.due (n + i + 1))).length = l.length := by
  induction l with
  | nil => exact sum_const_zero
  | cons a rest ih =>
    have hcons (i : ℕ) : ((a :: rest).filter (plan.due (n + i + 1))).length =
        (rest.filter (plan.due (n + i + 1))).length + if plan.due (n + i + 1) a then 1 else 0 := by
      rw [List.filter_cons]
      split_ifs <;> rfl
    simp only [hcons]
    rw [sum_add_distrib, ih, sum_due_one hslices]
    rfl

lemma sum_due_cycles (hslices : 0 < plan.slices) (n m : ℕ) (l : List α) :
    ∑ i ∈ range (m * plan.slices), (l.filter (plan.due (n + i + 1))).length = m * l.length := by
  induction m with
  | zero => rw [zero_mul, zero_mul, range_zero, sum_empty]
  | succ m ih =>
    have hcycle := sum_due_cycle hslices (n + m * plan.slices) l
    simp only [Nat.add_assoc n] at hcycle ih ⊢
    rw [Nat.succ_mul, sum_range_add, ih, hcycle, Nat.succ_mul]

end Cycle

section Reached

variable [DecidableEq α]

/-- While an entry stays unknown, every round takes a budget off the unknown entries before it, and the
slots that fall due put them back. -/
lemma unknown_rounds_le (hentries : plan.entries = before ++ x :: after) (hnodup : plan.entries.Nodup)
    {k : ℕ} (h : ∀ i < k, plan.rounds n known (i + 1) x = false) :
    (unknown (plan.rounds n known k) before).length + k * plan.budget ≤
      (unknown known before).length +
        ∑ i ∈ range k, (before.filter (plan.due (n + i + 1))).length := by
  induction k with
  | zero =>
    rw [zero_mul, range_zero, sum_empty]
    exact le_refl _
  | succ k ih =>
    have hprevious := ih fun i hi => h i (Nat.lt_succ_of_lt hi)
    have hround := unknown_round_le hentries hnodup (h k (Nat.lt_succ_self k))
    rw [sum_range_succ, Nat.succ_mul]
    change (unknown (plan.round _ _) before).length + _ ≤ _
    omega

/-- An entry with less than a cycle's budget of entries before it is refreshed within as many cycles
as there are entries before it, and one more. -/
theorem reached (n : ℕ) (known : α → Bool) (hentries : plan.entries = before ++ x :: after)
    (hnodup : plan.entries.Nodup) (hslices : 0 < plan.slices) (hfit : before.length < plan.slices * plan.budget) :
    ∃ i < (before.length + 1) * plan.slices, plan.rounds n known (i + 1) x = true := by
  by_contra hnone
  push Not at hnone
  have hunknown (i : ℕ) (hi : i < (before.length + 1) * plan.slices) : plan.rounds n known (i + 1) x = false :=
    Bool.eq_false_of_not_eq_true (hnone i hi)
  have hle := unknown_rounds_le hentries hnodup hunknown
  have hstart : (unknown known before).length ≤ before.length := List.length_filter_le _ _
  have hspent : (before.length + 1) * (before.length + 1) ≤ (before.length + 1) * (plan.slices * plan.budget) :=
    Nat.mul_le_mul_left _ hfit
  rw [sum_due_cycles hslices, Nat.mul_assoc] at hle
  rw [Nat.mul_succ (before.length + 1) before.length] at hspent
  omega

end Reached

section Starved

variable [DecidableEq α]

lemma mem_refreshed_card (l : List α) : (plan.refreshed known l).toFinset.card ≤ plan.budget :=
  (List.toFinset_card_le _).trans (List.length_take_le _ _)

lemma known_cover (plan : RollingRefresh α) (n : ℕ) (known : α → Bool) (k : ℕ) :
    ∃ W : Finset α, W.card ≤ k * plan.budget ∧ ∀ a, plan.rounds n known k a = true →
      a ∈ W ∨ known a = true ∧ ∀ i < k, plan.due (n + i + 1) a = false := by
  induction k with
  | zero =>
    refine ⟨∅, Nat.zero_le _, ?_⟩
    intro a ha
    exact Or.inr ⟨ha, fun i hi => absurd hi (Nat.not_lt_zero i)⟩
  | succ k ih =>
    obtain ⟨W, hcard, hcover⟩ := ih
    let fresh := plan.refreshed (plan.kept (n + k + 1) (plan.rounds n known k)) plan.entries
    refine ⟨W ∪ fresh.toFinset, ?_, ?_⟩
    · have hfresh : fresh.toFinset.card ≤ plan.budget := mem_refreshed_card plan.entries
      have hunion := card_union_le W fresh.toFinset
      rw [Nat.succ_mul]
      omega
    · intro a ha
      rcases Bool.or_eq_true_iff.mp ha with hkept | hfresh
      · obtain ⟨hknown, hdue⟩ := Bool.and_eq_true_iff.mp hkept
        rcases hcover a hknown with hold | ⟨hstart, hnot⟩
        · exact Or.inl (mem_union_left _ hold)
        · refine Or.inr ⟨hstart, fun i hi => ?_⟩
          rcases Nat.lt_succ_iff_lt_or_eq.mp hi with hi | rfl
          · exact hnot i hi
          · rwa [Bool.not_eq_true'] at hdue
      · exact Or.inl (mem_union_right _ (List.mem_toFinset.mpr (of_decide_eq_true hfresh)))

lemma kept_cover (hslices : 0 < plan.slices) (n k : ℕ) : ∃ W : Finset α,
    W.card ≤ (plan.slices - 1) * plan.budget ∧
      ∀ a, plan.kept (n + k + 1) (plan.rounds n (fun _ => false) k) a = true → a ∈ W := by
  by_cases hk : k < plan.slices
  · obtain ⟨W, hcard, hcover⟩ := known_cover plan n (fun _ => false) k
    refine ⟨W, hcard.trans (Nat.mul_le_mul_right _ (Nat.le_sub_one_of_lt hk)), ?_⟩
    intro a ha
    rcases hcover a (Bool.and_eq_true_iff.mp ha).1 with hin | ⟨hnever, -⟩
    · exact hin
    · exact absurd hnever Bool.false_ne_true
  · obtain ⟨j, rfl⟩ : ∃ j, k = j + (plan.slices - 1) := ⟨k - (plan.slices - 1), by omega⟩
    rw [rounds_add]
    obtain ⟨W, hcard, hcover⟩ := known_cover plan (n + j) (plan.rounds n (fun _ => false) j) (plan.slices - 1)
    refine ⟨W, hcard, ?_⟩
    intro a ha
    obtain ⟨hknown, hdue⟩ := Bool.and_eq_true_iff.mp ha
    rcases hcover a hknown with hin | ⟨-, hnot⟩
    · exact hin
    · obtain ⟨i, hi, hhit⟩ := exists_due hslices (n + j) a
      rcases Nat.lt_or_ge i (plan.slices - 1) with hlt | hge
      · exact absurd ((hnot i hlt).symm.trans hhit) Bool.false_ne_true
      · obtain rfl : i = plan.slices - 1 := by omega
        rw [← Nat.add_assoc, hhit] at hdue
        exact absurd hdue Bool.false_ne_true

lemma length_le_of_kept {W : Finset α} {l : List α} (hnodup : l.Nodup) (h : ∀ a, known a = true → a ∈ W) :
    l.length ≤ W.card + (unknown known l).length := by
  have hknown : (l.filter known).length ≤ W.card := by
    rw [← List.toFinset_card_of_nodup (hnodup.filter known)]
    refine card_le_card fun a ha => ?_
    exact h a (List.mem_filter.mp (List.mem_toFinset.mp ha)).2
  have hsplit := List.length_eq_length_filter_add (l := l) known
  rw [unknown]
  omega

/-- An entry with at least a cycle's budget of entries before it is never refreshed once the table has
been emptied. -/
theorem starved (hentries : plan.entries = before ++ x :: after) (hnodup : plan.entries.Nodup)
    (hslices : 0 < plan.slices) (hfull : plan.slices * plan.budget ≤ before.length) (n k : ℕ) :
    plan.rounds n (fun _ => false) k x = false := by
  induction k with
  | zero => rfl
  | succ k ih =>
    obtain ⟨W, hcard, hcover⟩ := kept_cover hslices n k
    have hbefore : before.Nodup := (List.nodup_append.mp (hentries ▸ hnodup)).1
    have hkept : plan.kept (n + k + 1) (plan.rounds n (fun _ => false) k) x = false := by
      rw [kept, ih]
      rfl
    have hbudget : plan.budget ≤
        (unknown (plan.kept (n + k + 1) (plan.rounds n (fun _ => false) k)) before).length := by
      have hcount := length_le_of_kept hbefore hcover
      obtain ⟨m, hm⟩ := Nat.exists_eq_add_one_of_ne_zero hslices.ne'
      rw [hm, Nat.add_sub_cancel] at hcard
      rw [hm, Nat.succ_mul] at hfull
      omega
    apply Bool.eq_false_of_not_eq_true
    intro hround
    rcases (round_iff hentries hnodup).mp hround with hin | hspent
    · rw [hkept] at hin
      exact absurd hin Bool.false_ne_true
    · exact absurd hbudget (not_le.mpr hspent)

end Starved

end RollingRefresh
