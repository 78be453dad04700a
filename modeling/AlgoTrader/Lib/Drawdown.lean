import Mathlib.Algebra.BigOperators.Group.List.Basic
import Mathlib.Algebra.Order.Group.Defs
import Mathlib.Data.List.Induction
import Mathlib.Order.Bounds.Basic
import Mathlib.Tactic.Abel

/-! Falls from the highest value so far: the worst of a series of values, and of the running total of a
series of gains, with the longest spell that a total stays below its peak. -/

namespace Drawdown

section Marks

variable {α β : Type*}

structure Mark (α β : Type*) where
  peak : α
  worst : β
  deriving DecidableEq

def seen (start : α) (values : List α) : Set α := {v | v = start ∨ v ∈ values}

variable [LinearOrder α] {fall : α → α → β} {values : List α} {value : α}

def falls (fall : α → α → β) (start : α) (values : List α) : Set β :=
  {d | ∃ before value after peak, values = before ++ value :: after ∧
    IsGreatest (seen start (before ++ [value])) peak ∧ d = fall peak value}

lemma falls_concat {start peak : α} (hpeak : IsGreatest (seen start (values ++ [value])) peak) :
    falls fall start (values ++ [value]) = insert (fall peak value) (falls fall start values) := by
  ext d
  constructor
  · rintro ⟨before, v, after, top, hsplit, htop, rfl⟩
    rcases List.eq_nil_or_concat after with rfl | ⟨rest, last, rfl⟩
    · obtain ⟨rfl, hv⟩ := List.append_inj' hsplit rfl
      obtain rfl := (List.cons.inj hv).1
      exact Or.inl (by rw [htop.unique hpeak])
    · rw [List.concat_eq_append, ← List.cons_append, ← List.append_assoc] at hsplit
      exact Or.inr ⟨before, v, rest, top, (List.append_inj' hsplit rfl).1, htop, rfl⟩
  · rintro (rfl | ⟨before, v, after, top, rfl, htop, rfl⟩)
    · exact ⟨values, value, [], peak, rfl, hpeak, rfl⟩
    · exact ⟨before, v, after ++ [value], top, by rw [List.append_assoc, List.cons_append], htop, rfl⟩

variable [LinearOrder β] {mark : Mark α β}

def Mark.see (fall : α → α → β) (mark : Mark α β) (value : α) : Mark α β where
  peak := max mark.peak value
  worst := max mark.worst (fall (max mark.peak value) value)

def Mark.seeAll (fall : α → α → β) (mark : Mark α β) (values : List α) : Mark α β := values.foldl (Mark.see fall) mark

@[simp] lemma Mark.seeAll_concat :
    mark.seeAll fall (values ++ [value]) = (mark.seeAll fall values).see fall value := List.foldl_append

lemma Mark.isGreatest_peak : IsGreatest (seen mark.peak values) (mark.seeAll fall values).peak := by
  induction values using List.reverseRecOn with
  | nil => exact ⟨Or.inl rfl, fun v hv => (hv.resolve_right List.not_mem_nil).le⟩
  | append_singleton values value ih =>
    rw [Mark.seeAll_concat, Mark.see]
    dsimp only
    constructor
    · rcases max_choice (mark.seeAll fall values).peak value with hmax | hmax
      · rw [hmax]
        exact ih.1.imp_right (List.mem_append_left _)
      · rw [hmax]
        exact Or.inr (List.mem_append_right _ (List.mem_singleton_self value))
    · rintro v (rfl | hv)
      · exact (ih.2 (Or.inl rfl)).trans (le_max_left _ _)
      · rcases List.mem_append.mp hv with hearlier | hlast
        · exact (ih.2 (Or.inr hearlier)).trans (le_max_left _ _)
        · exact (List.mem_singleton.mp hlast).le.trans (le_max_right _ _)

theorem Mark.isGreatest_worst :
    IsGreatest (insert mark.worst (falls fall mark.peak values)) (mark.seeAll fall values).worst := by
  induction values using List.reverseRecOn with
  | nil =>
    refine ⟨Or.inl rfl, ?_⟩
    rintro d (rfl | ⟨before, v, after, -, h, -⟩)
    · exact le_rfl
    · exact absurd h.symm (List.append_ne_nil_of_right_ne_nil before (List.cons_ne_nil _ _))
  | append_singleton values value ih =>
    have hpeak : IsGreatest (seen mark.peak (values ++ [value])) (max (mark.seeAll fall values).peak value) := by
      have h : IsGreatest _ (mark.seeAll fall (values ++ [value])).peak := mark.isGreatest_peak
      rwa [Mark.seeAll_concat] at h
    rw [falls_concat hpeak, Set.insert_comm, Mark.seeAll_concat, Mark.see]
    dsimp only
    rw [max_comm (mark.seeAll fall values).worst]
    exact ih.insert _

end Marks

section Gains

variable {α : Type*} [AddCommGroup α]

def totals (gains : List α) : Set α := {total | ∃ earlier, earlier <+: gains ∧ total = earlier.sum}

def losses (gains : List α) : Set α := {loss | ∃ stretch, stretch <:+: gains ∧ loss = -stretch.sum}

lemma totals_concat (gains : List α) (gain : α) :
    totals (gains ++ [gain]) = insert (gains ++ [gain]).sum (totals gains) := by
  ext total
  simp only [totals, Set.mem_insert_iff, Set.mem_ofPred_eq, List.prefix_concat_iff]
  constructor
  · rintro ⟨earlier, rfl | hearlier, rfl⟩
    · exact Or.inl rfl
    · exact Or.inr ⟨earlier, hearlier, rfl⟩
  · rintro (rfl | ⟨earlier, hearlier, rfl⟩)
    · exact ⟨_, Or.inl rfl, rfl⟩
    · exact ⟨earlier, Or.inr hearlier, rfl⟩

lemma sum_of_append {before stretch gains : List α} (h : before ++ stretch = gains) :
    -stretch.sum = before.sum - gains.sum := by
  rw [← h, List.sum_append]
  abel

lemma mem_losses_concat {gains : List α} {gain loss : α} : loss ∈ losses (gains ++ [gain]) ↔
    loss ∈ losses gains ∨ ∃ total ∈ totals (gains ++ [gain]), loss = total - (gains ++ [gain]).sum := by
  constructor
  · rintro ⟨stretch, hstretch, rfl⟩
    rcases List.infix_concat_iff.mp hstretch with ⟨before, hsplit⟩ | hearlier
    · exact Or.inr ⟨before.sum, ⟨before, ⟨stretch, hsplit⟩, rfl⟩, sum_of_append hsplit⟩
    · exact Or.inl ⟨stretch, hearlier, rfl⟩
  · rintro (⟨stretch, hearlier, rfl⟩ | ⟨-, ⟨before, ⟨stretch, hsplit⟩, rfl⟩, rfl⟩)
    · exact ⟨stretch, List.infix_concat_iff.mpr (Or.inr hearlier), rfl⟩
    · exact ⟨stretch, List.infix_concat_iff.mpr (Or.inl ⟨before, hsplit⟩), (sum_of_append hsplit).symm⟩

variable [LinearOrder α]

structure Curve (α : Type*) where
  equity : α
  mark : Mark α α

def Curve.start : Curve α := ⟨0, 0, 0⟩

def Curve.add (curve : Curve α) (gain : α) : Curve α :=
  ⟨curve.equity + gain, curve.mark.see (· - ·) (curve.equity + gain)⟩

def Curve.of (gains : List α) : Curve α := gains.foldl Curve.add .start

@[simp] lemma Curve.of_concat (gains : List α) (gain : α) : Curve.of (gains ++ [gain]) = (Curve.of gains).add gain :=
  List.foldl_append

structure Curve.Tracks (curve : Curve α) (gains : List α) : Prop where
  equity : curve.equity = gains.sum
  peak : IsGreatest (totals gains) curve.mark.peak
  worst : IsGreatest (losses gains) curve.mark.worst

lemma Curve.tracks_start : (Curve.start : Curve α).Tracks [] where
  equity := rfl
  peak := ⟨⟨[], List.prefix_refl _, rfl⟩, by
    rintro total ⟨earlier, hearlier, rfl⟩
    rw [List.prefix_nil.mp hearlier]
    exact le_rfl⟩
  worst := ⟨⟨[], List.infix_refl _, neg_zero.symm⟩, by
    rintro loss ⟨stretch, hstretch, rfl⟩
    rw [List.infix_nil.mp hstretch, List.sum_nil, neg_zero]
    exact le_rfl⟩

variable [IsOrderedAddMonoid α] {curve : Curve α} {gains : List α}

lemma Curve.Tracks.add (h : curve.Tracks gains) (gain : α) : (curve.add gain).Tracks (gains ++ [gain]) := by
  have hequity : curve.equity + gain = (gains ++ [gain]).sum := by
    rw [h.equity, List.sum_append, List.sum_singleton]
  have hpeak : IsGreatest (totals (gains ++ [gain])) (max curve.mark.peak (curve.equity + gain)) := by
    rw [totals_concat, hequity, max_comm]
    exact h.peak.insert _
  refine ⟨hequity, hpeak, ?_, ?_⟩
  · rcases max_choice curve.mark.worst
        (max curve.mark.peak (curve.equity + gain) - (curve.equity + gain)) with hmax | hmax
    · exact mem_losses_concat.mpr (Or.inl (by rw [Curve.add, Mark.see, hmax]; exact h.worst.1))
    · refine mem_losses_concat.mpr (Or.inr ⟨_, hpeak.1, ?_⟩)
      rw [Curve.add, Mark.see, hmax, hequity]
  · intro loss hloss
    rcases mem_losses_concat.mp hloss with hearlier | ⟨total, htotal, rfl⟩
    · exact (h.worst.2 hearlier).trans (le_max_left _ _)
    · rw [← hequity]
      exact (sub_le_sub_right (hpeak.2 htotal) _).trans (le_max_right _ _)

theorem Curve.tracks_of (gains : List α) : (Curve.of gains).Tracks gains := by
  induction gains using List.reverseRecOn with
  | nil => exact Curve.tracks_start
  | append_singleton gains gain ih =>
    rw [Curve.of_concat]
    exact ih.add gain

end Gains

section Spells

variable {α : Type*} [AddCommGroup α] [LinearOrder α]

def Below (gains : List α) : Prop := ∃ earlier, earlier <+: gains ∧ gains.sum < earlier.sum

/-- The series ends with so many gains after each of which its total is below its peak. -/
def Spell (gains : List α) (length : ℕ) : Prop :=
  ∃ before stretch, gains = before ++ stretch ∧ stretch.length = length ∧
    ∀ part, part <+: stretch → part ≠ [] → Below (before ++ part)

variable {gains : List α} {gain : α} {length : ℕ}

lemma spell_zero (gains : List α) : Spell gains 0 :=
  ⟨gains, [], (List.append_nil _).symm, rfl, fun _ hpart hne => absurd (List.prefix_nil.mp hpart) hne⟩

lemma spell_concat_iff : Spell (gains ++ [gain]) length ↔
    length = 0 ∨ Below (gains ++ [gain]) ∧ ∃ shorter, length = shorter + 1 ∧ Spell gains shorter := by
  constructor
  · rintro ⟨before, stretch, hsplit, rfl, hbelow⟩
    rcases List.eq_nil_or_concat stretch with rfl | ⟨rest, last, rfl⟩
    · exact Or.inl rfl
    · rw [List.concat_eq_append] at hsplit hbelow ⊢
      have hwhole := hbelow _ List.prefix_rfl (List.append_ne_nil_of_right_ne_nil rest (List.cons_ne_nil _ _))
      rw [← hsplit] at hwhole
      rw [← List.append_assoc] at hsplit
      refine Or.inr ⟨hwhole, rest.length, List.length_append, before, rest, (List.append_inj' hsplit rfl).1, rfl, ?_⟩
      exact fun part hpart => hbelow part (hpart.trans (List.prefix_append _ _))
  · rintro (rfl | ⟨hwhole, -, rfl, before, stretch, rfl, rfl, hbelow⟩)
    · exact spell_zero _
    · refine ⟨before, stretch ++ [gain], List.append_assoc _ _ _, List.length_append, fun part hpart hne => ?_⟩
      rcases List.prefix_concat_iff.mp hpart with rfl | hearlier
      · rwa [← List.append_assoc]
      · exact hbelow part hearlier hne

structure Spells where
  current : ℕ
  longest : ℕ
  deriving DecidableEq

def Spells.count (spells : Spells) (below : Prop) [Decidable below] : Spells :=
  if below then ⟨spells.current + 1, max spells.longest (spells.current + 1)⟩ else ⟨0, spells.longest⟩

structure Spells.Tracks (spells : Spells) (gains : List α) : Prop where
  current : IsGreatest {length | Spell gains length} spells.current
  longest : IsGreatest {length | ∃ part, part <+: gains ∧ Spell part length} spells.longest

lemma Spells.tracks_start : Spells.Tracks ⟨0, 0⟩ ([] : List α) := by
  have hnone (length : ℕ) (h : Spell ([] : List α) length) : length ≤ 0 := by
    obtain ⟨before, stretch, hsplit, rfl, -⟩ := h
    rw [(List.append_eq_nil_iff.mp hsplit.symm).2]
    exact le_rfl
  refine ⟨⟨spell_zero _, hnone⟩, ⟨[], List.prefix_rfl, spell_zero _⟩, ?_⟩
  rintro length ⟨part, hpart, hspell⟩
  rw [List.prefix_nil.mp hpart] at hspell
  exact hnone length hspell

variable {spells : Spells}

lemma Spells.Tracks.count (h : spells.Tracks gains) (below : Prop) [Decidable below]
    (hbelow : below ↔ Below (gains ++ [gain])) : (spells.count below).Tracks (gains ++ [gain]) := by
  have hcurrent : IsGreatest {length | Spell (gains ++ [gain]) length} (spells.count below).current := by
    rw [Spells.count]
    split_ifs with hb
    · refine ⟨spell_concat_iff.mpr (Or.inr ⟨hbelow.mp hb, spells.current, rfl, h.current.1⟩), fun length hlength => ?_⟩
      rcases spell_concat_iff.mp hlength with rfl | ⟨-, shorter, rfl, hshorter⟩
      · exact Nat.zero_le _
      · exact Nat.succ_le_succ (h.current.2 hshorter)
    · refine ⟨spell_zero _, fun length hlength => ?_⟩
      rcases spell_concat_iff.mp hlength with rfl | ⟨hwhole, -⟩
      · exact le_rfl
      · exact absurd (hbelow.mpr hwhole) hb
  have hlongest : (spells.count below).longest = max spells.longest (spells.count below).current := by
    rw [Spells.count]
    split_ifs
    · rfl
    · exact (Nat.max_zero _).symm
  refine ⟨hcurrent, ?_⟩
  rw [hlongest]
  constructor
  · rcases max_choice spells.longest (spells.count below).current with hmax | hmax
    · obtain ⟨part, hpart, hspell⟩ := h.longest.1
      rw [hmax]
      exact ⟨part, hpart.trans (List.prefix_append _ _), hspell⟩
    · rw [hmax]
      exact ⟨_, List.prefix_rfl, hcurrent.1⟩
  · rintro length ⟨part, hpart, hspell⟩
    rcases List.prefix_concat_iff.mp hpart with rfl | hearlier
    · exact (hcurrent.2 hspell).trans (le_max_right _ _)
    · exact (h.longest.2 ⟨part, hearlier, hspell⟩).trans (le_max_left _ _)

variable {curve : Curve α}

lemma Curve.Tracks.below_iff (h : curve.Tracks gains) (gain : α) :
    curve.equity + gain < curve.mark.peak ↔ Below (gains ++ [gain]) := by
  have hsum : curve.equity + gain = (gains ++ [gain]).sum := by rw [h.equity, List.sum_append, List.sum_singleton]
  rw [hsum]
  constructor
  · intro hlt
    obtain ⟨earlier, hearlier, hpeak⟩ := h.peak.1
    exact ⟨earlier, hearlier.trans (List.prefix_append _ _), hpeak ▸ hlt⟩
  · rintro ⟨earlier, hearlier, hlt⟩
    rcases List.prefix_concat_iff.mp hearlier with rfl | hpart
    · exact absurd hlt (lt_irrefl _)
    · exact hlt.trans_le (h.peak.2 ⟨earlier, hpart, rfl⟩)

end Spells

end Drawdown
