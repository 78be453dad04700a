import Mathlib.Data.List.Perm.Basic
import Mathlib.Data.List.Nodup
import Mathlib.Logic.Function.Basic
import Mathlib.Logic.Relation

/-! A log with many writers, each of which may queue its records and write them later. -/

namespace WriteBehind

variable {α ω : Type*} [DecidableEq ω] (owner : α → ω)

/-- ``recorded`` is in the order of the calls, ``lost`` what a writer gave up. -/
structure Log (α ω : Type*) where
  written : List α
  queue : ω → List α
  recorded : List α
  lost : List α

def own (w : ω) (records : List α) : List α := records.filter fun a => owner a = w

inductive Move (w : ω) : Log α ω → Log α ω → Prop
  | queue {l : Log α ω} (a : α) (hown : owner a = w) (hfresh : a ∉ l.recorded) :
      Move w l { l with queue := Function.update l.queue w (l.queue w ++ [a]), recorded := l.recorded ++ [a] }
  | append {l : Log α ω} (a : α) (hown : owner a = w) (hfresh : a ∉ l.recorded) (hempty : l.queue w = []) :
      Move w l { l with written := l.written ++ [a], recorded := l.recorded ++ [a] }
  | write {l : Log α ω} :
      Move w l { l with written := l.written ++ l.queue w, queue := Function.update l.queue w [] }
  | lose {l : Log α ω} :
      Move w l { l with queue := Function.update l.queue w [], lost := l.lost ++ l.queue w }

section Own

variable {owner} {w u : ω} {a : α} {records : List α}

lemma mem_own : a ∈ own owner w records ↔ a ∈ records ∧ owner a = w := by
  rw [own, List.mem_filter, decide_eq_true_eq]

lemma own_append (records more : List α) : own owner w (records ++ more) = own owner w records ++ own owner w more :=
  List.filter_append _ _

lemma own_eq_self (h : ∀ a ∈ records, owner a = w) : own owner w records = records :=
  List.filter_eq_self.mpr fun a ha => decide_eq_true (h a ha)

lemma own_eq_nil (h : ∀ a ∈ records, owner a = u) (hne : w ≠ u) : own owner w records = [] := by
  refine List.filter_eq_nil_iff.mpr fun a ha heq => hne ?_
  exact (of_decide_eq_true heq).symm.trans (h a ha)

lemma own_filter (p : α → Bool) : own owner w (records.filter p) = (own owner w records).filter p := by
  rw [own, own, List.filter_comm]

end Own

variable [DecidableEq α]

def Log.kept (l : Log α ω) : List α := l.recorded.filter fun a => a ∉ l.lost

omit [DecidableEq ω] in
lemma kept_congr {l l' : Log α ω} (hrecorded : l'.recorded = l.recorded) (hlost : l'.lost = l.lost) :
    l'.kept = l.kept := by
  rw [Log.kept, Log.kept, hrecorded, hlost]

structure Inv (l : Log α ω) : Prop where
  kept : ∀ w, own owner w l.kept = own owner w l.written ++ l.queue w
  owned : ∀ w, ∀ a ∈ l.queue w, owner a = w
  distinct : l.recorded.Nodup
  known : ∀ a ∈ l.lost, a ∈ l.recorded

section Inv

variable {owner} {l l' : Log α ω} {w u : ω} {a : α}

lemma Inv.kept_append (h : Inv owner l) (hfresh : a ∉ l.recorded) :
    (l.recorded ++ [a]).filter (fun b => b ∉ l.lost) = l.kept ++ [a] := by
  have hnew : a ∉ l.lost := fun hlost => hfresh (h.known a hlost)
  rw [List.filter_append, Log.kept, List.filter_singleton]
  simp [hnew]

lemma Inv.distinct_append (h : Inv owner l) (hfresh : a ∉ l.recorded) : (l.recorded ++ [a]).Nodup := by
  refine List.nodup_append.mpr ⟨h.distinct, List.nodup_singleton a, ?_⟩
  rintro b hb _ hmem rfl
  exact hfresh (List.mem_singleton.mp hmem ▸ hb)

lemma Inv.kept_nodup (h : Inv owner l) : l.kept.Nodup := h.distinct.filter _

lemma Inv.queue_kept (h : Inv owner l) (ha : a ∈ l.queue w) : a ∈ l.kept := by
  have hmem : a ∈ own owner w l.kept := h.kept w ▸ List.mem_append_right _ ha
  exact (mem_own.mp hmem).1

lemma Inv.written_kept (h : Inv owner l) (ha : a ∈ l.written) : a ∈ l.kept := by
  have hmem : a ∈ own owner (owner a) l.kept :=
    h.kept (owner a) ▸ List.mem_append_left _ (mem_own.mpr ⟨ha, rfl⟩)
  exact (mem_own.mp hmem).1

lemma Inv.not_written (h : Inv owner l) (ha : a ∈ l.queue w) : a ∉ l.written := by
  intro hwritten
  have hnodup : (own owner w l.written ++ l.queue w).Nodup := h.kept w ▸ h.kept_nodup.filter _
  exact (List.nodup_append.mp hnodup).2.2 a (mem_own.mpr ⟨hwritten, h.owned w a ha⟩) a ha rfl

lemma Inv.queue (h : Inv owner l) (hown : owner a = w) (hfresh : a ∉ l.recorded) :
    Inv owner { l with queue := Function.update l.queue w (l.queue w ++ [a]), recorded := l.recorded ++ [a] } := by
  have hsingle : ∀ b ∈ [a], owner b = w := by simpa using hown
  refine ⟨fun u => ?_, fun u b hb => ?_, h.distinct_append hfresh, fun b hb => List.mem_append_left _ (h.known b hb)⟩
  · rw [Log.kept]
    dsimp only
    rw [h.kept_append hfresh, own_append, h.kept]
    by_cases hu : u = w
    · subst hu
      rw [Function.update_self, own_eq_self hsingle, List.append_assoc]
    · rw [Function.update_of_ne hu, own_eq_nil hsingle hu, List.append_nil]
  · dsimp only at hb
    by_cases hu : u = w
    · subst hu
      rw [Function.update_self, List.mem_append] at hb
      rcases hb with hb | hb
      · exact h.owned u b hb
      · exact hsingle b hb
    · rw [Function.update_of_ne hu] at hb
      exact h.owned u b hb

lemma Inv.append (h : Inv owner l) (hown : owner a = w) (hfresh : a ∉ l.recorded) (hempty : l.queue w = []) :
    Inv owner { l with written := l.written ++ [a], recorded := l.recorded ++ [a] } := by
  have hsingle : ∀ b ∈ [a], owner b = w := by simpa using hown
  refine ⟨fun u => ?_, h.owned, h.distinct_append hfresh, fun b hb => List.mem_append_left _ (h.known b hb)⟩
  rw [Log.kept]
  dsimp only
  rw [h.kept_append hfresh, own_append, own_append, h.kept]
  by_cases hu : u = w
  · subst hu
    rw [hempty, List.append_nil, List.append_nil]
  · rw [own_eq_nil hsingle hu, List.append_nil, List.append_nil]

lemma Inv.owned_emptied (h : Inv owner l) (u : ω) (hb : a ∈ Function.update l.queue w [] u) : owner a = u := by
  by_cases hu : u = w
  · subst hu
    simp at hb
  · rw [Function.update_of_ne hu] at hb
    exact h.owned u a hb

lemma Inv.write (h : Inv owner l) :
    Inv owner { l with written := l.written ++ l.queue w, queue := Function.update l.queue w [] } := by
  refine ⟨fun u => ?_, fun u b hb => h.owned_emptied u hb, h.distinct, h.known⟩
  dsimp only
  rw [own_append]
  by_cases hu : u = w
  · subst hu
    rw [Function.update_self, own_eq_self (h.owned u), List.append_nil]
    exact h.kept u
  · rw [Function.update_of_ne hu, own_eq_nil (h.owned w) hu, List.append_nil]
    exact h.kept u

lemma Inv.lose (h : Inv owner l) :
    Inv owner { l with queue := Function.update l.queue w [], lost := l.lost ++ l.queue w } := by
  refine ⟨fun u => ?_, fun u b hb => h.owned_emptied u hb, h.distinct, ?_⟩
  · have hkept : l.recorded.filter (fun b => b ∉ l.lost ++ l.queue w) = l.kept.filter fun b => b ∉ l.queue w := by
      rw [Log.kept, List.filter_filter]
      refine List.filter_congr fun b _ => ?_
      simp [Bool.and_comm]
    have hwritten : (own owner u l.written).filter (fun b => b ∉ l.queue w) = own owner u l.written := by
      refine List.filter_eq_self.mpr fun b hb => decide_eq_true fun hqueue => ?_
      exact h.not_written hqueue (mem_own.mp hb).1
    rw [Log.kept]
    dsimp only
    rw [hkept, own_filter, h.kept, List.filter_append, hwritten]
    by_cases hu : u = w
    · subst hu
      rw [Function.update_self]
      refine congrArg _ (List.filter_eq_nil_iff.mpr fun b hb => ?_)
      simpa using hb
    · rw [Function.update_of_ne hu]
      refine congrArg _ (List.filter_eq_self.mpr fun b hb => decide_eq_true fun hqueue => hu ?_)
      exact (h.owned u b hb).symm.trans (h.owned w b hqueue)
  · intro b hb
    rcases List.mem_append.mp hb with hb | hb
    · exact h.known b hb
    · exact (List.mem_filter.mp (h.queue_kept hb)).1

lemma Inv.move (h : Inv owner l) (hmove : Move owner w l l') : Inv owner l' := by
  cases hmove with
  | queue a hown hfresh => exact h.queue hown hfresh
  | append a hown hfresh hempty => exact h.append hown hfresh hempty
  | write => exact h.write
  | lose => exact h.lose

lemma Move.others (h : Inv owner l) (hmove : Move owner w l l') (hu : u ≠ w) :
    l'.queue u = l.queue u ∧ own owner u l'.written = own owner u l.written := by
  cases hmove with
  | queue a hown hfresh => exact ⟨Function.update_of_ne hu _ _, rfl⟩
  | append a hown hfresh hempty =>
    have hsingle : ∀ b ∈ [a], owner b = w := by simpa using hown
    exact ⟨rfl, by rw [own_append, own_eq_nil hsingle hu, List.append_nil]⟩
  | write =>
    exact ⟨Function.update_of_ne hu _ _, by rw [own_append, own_eq_nil (h.owned w) hu, List.append_nil]⟩
  | lose => exact ⟨Function.update_of_ne hu _ _, rfl⟩

abbrev Moves (owner : α → ω) (w : ω) : Log α ω → Log α ω → Prop := Relation.ReflTransGen (Move owner w)

lemma Inv.moves (h : Inv owner l) (hmoves : Moves owner w l l') : Inv owner l' := by
  induction hmoves with
  | refl => exact h
  | tail _ hmove ih => exact ih.move hmove

lemma Moves.others (h : Inv owner l) (hmoves : Moves owner w l l') (hu : u ≠ w) :
    l'.queue u = l.queue u ∧ own owner u l'.written = own owner u l.written := by
  induction hmoves with
  | refl => exact ⟨rfl, rfl⟩
  | tail hmoves hmove ih =>
    obtain ⟨hqueue, hwritten⟩ := hmove.others (h.moves hmoves) hu
    exact ⟨hqueue.trans ih.1, hwritten.trans ih.2⟩

lemma Moves.kept_others (h : Inv owner l) (hmoves : Moves owner w l l') (hu : u ≠ w) :
    own owner u l'.kept = own owner u l.kept := by
  obtain ⟨hqueue, hwritten⟩ := Moves.others h hmoves hu
  rw [(h.moves hmoves).kept, h.kept, hqueue, hwritten]

lemma count_own (owner : α → ω) (records : List α) (a : α) : (own owner (owner a) records).count a = records.count a :=
  List.count_filter (decide_eq_true rfl)

lemma Inv.written_nodup (h : Inv owner l) : l.written.Nodup := by
  rw [List.nodup_iff_count_le_one]
  intro a
  have hown : (own owner (owner a) l.written).Nodup := by
    have hboth : (own owner (owner a) l.written ++ l.queue (owner a)).Nodup :=
      h.kept (owner a) ▸ h.kept_nodup.filter _
    exact (List.nodup_append.mp hboth).1
  rw [← count_own owner l.written a]
  exact List.nodup_iff_count_le_one.mp hown a

lemma Inv.written_sublist (h : Inv owner l) (w : ω) : (own owner w l.written).Sublist l.recorded := by
  have hfront : own owner w l.written <+: own owner w l.kept := ⟨l.queue w, (h.kept w).symm⟩
  exact (hfront.sublist.trans List.filter_sublist).trans List.filter_sublist

lemma Inv.own_written (h : Inv owner l) (hempty : l.queue w = []) : own owner w l.written = own owner w l.kept := by
  rw [h.kept, hempty, List.append_nil]

lemma Inv.perm_kept (h : Inv owner l) (hempty : ∀ w, l.queue w = []) : l.written.Perm l.kept := by
  rw [List.perm_iff_count]
  intro a
  rw [← count_own owner l.written a, ← count_own owner l.kept a]
  exact congrArg (List.count a) (h.own_written (hempty (owner a)))

lemma Inv.written_eq (h : Inv owner l) (hempty : l.queue w = []) (hone : ∀ a ∈ l.recorded, owner a = w) :
    l.written = l.kept := by
  have hkept : ∀ a ∈ l.kept, owner a = w := fun a ha => hone a (List.mem_filter.mp ha).1
  have hwritten : ∀ a ∈ l.written, owner a = w := fun a ha => hkept a (h.written_kept ha)
  rw [← own_eq_self hwritten, h.own_written hempty, own_eq_self hkept]

end Inv

end WriteBehind
