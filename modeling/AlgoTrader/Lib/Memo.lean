import AlgoTrader.Lib.Table
import Mathlib.Data.Set.Function
import Mathlib.Logic.Nontrivial.Defs

/-! A function asked through a memo. An answer is kept under a key of the question, so the memo
answers as the function does exactly when no two questions share a key. -/

abbrev Memo (κ β : Type*) := List (κ × β)

namespace Memo

variable {κ α β : Type*} [DecidableEq κ] (key : α → κ) (f : α → β)

def ask (memo : Memo κ β) (question : α) : β × Memo κ β :=
  match Table.find Prod.fst memo (key question) with
  | some row => (row.2, memo)
  | none => (f question, memo ++ [(key question, f question)])

def replay : Memo κ β → List α → List β
  | _, [] => []
  | memo, question :: rest => (ask key f memo question).1 :: replay (ask key f memo question).2 rest

variable {key f} {memo : Memo κ β} {question : α} {questions : List α}

lemma ask_kept {row : κ × β} (h : Table.find Prod.fst memo (key question) = some row) :
    ask key f memo question = (row.2, memo) := by
  rw [ask, h]

lemma ask_new (h : Table.find Prod.fst memo (key question) = none) :
    ask key f memo question = (f question, memo ++ [(key question, f question)]) := by
  rw [ask, h]

lemma find_ask : Table.find Prod.fst (ask key f memo question).2 (key question) =
    some (key question, (ask key f memo question).1) := by
  cases h : Table.find Prod.fst memo (key question) with
  | none =>
    rw [ask_new h]
    exact Table.find_concat_self h
  | some row =>
    rw [ask_kept h, h]
    exact congrArg (fun k => some (k, row.2)) (Table.key_of_find h)

lemma find_ask_of_find {k : κ} {row : κ × β} (h : Table.find Prod.fst memo k = some row) :
    Table.find Prod.fst (ask key f memo question).2 k = some row := by
  cases hasked : Table.find Prod.fst memo (key question) with
  | none =>
    have hne : key question ≠ k := by
      rintro rfl
      exact absurd (hasked.symm.trans h) (by simp)
    have hother : Table.find Prod.fst (memo ++ [(key question, f question)]) k = Table.find Prod.fst memo k :=
      Table.find_concat_other hne
    rw [ask_new hasked]
    exact hother.trans h
  | some kept => rwa [ask_kept hasked]

theorem replay_of_keys [Nonempty β] (memo : Memo κ β) (questions : List α) : ∃ answer : κ → β,
    (∀ k row, Table.find Prod.fst memo k = some row → answer k = row.2) ∧
      replay key f memo questions = questions.map fun question => answer (key question) := by
  induction questions generalizing memo with
  | nil =>
    let answer (k : κ) : β := ((Table.find Prod.fst memo k).map Prod.snd).getD (Classical.arbitrary β)
    refine ⟨answer, ?_, rfl⟩
    intro k row h
    simp [answer, h]
  | cons question rest ih =>
    obtain ⟨answer, hmemo, hreplay⟩ := ih (ask key f memo question).2
    refine ⟨answer, fun k row h => hmemo k row (find_ask_of_find h), ?_⟩
    rw [replay, hreplay, List.map_cons, hmemo _ _ find_ask]

def Sound (key : α → κ) (f : α → β) (asked : Set α) (memo : Memo κ β) : Prop :=
  ∀ row ∈ memo, ∃ question ∈ asked, row = (key question, f question)

lemma Sound.ask {asked : Set α} (hinj : asked.InjOn key) (h : Sound key f asked memo) (hmem : question ∈ asked) :
    (ask key f memo question).1 = f question ∧ Sound key f asked (ask key f memo question).2 := by
  cases hfind : Table.find Prod.fst memo (key question) with
  | none =>
    rw [ask_new hfind]
    refine ⟨rfl, ?_⟩
    intro row hrow
    rcases List.mem_append.mp hrow with hrow | hrow
    · exact h row hrow
    · exact ⟨question, hmem, List.mem_singleton.mp hrow⟩
  | some row =>
    obtain ⟨first, hfirst, hrow⟩ := h row (Table.mem_of_find hfind)
    have hkey : row.1 = key question := Table.key_of_find hfind
    rw [hrow] at hkey
    obtain rfl := hinj hfirst hmem hkey
    rw [ask_kept hfind, hrow]
    exact ⟨rfl, h⟩

theorem replay_eq_map {asked : Set α} (hinj : asked.InjOn key) (h : Sound key f asked memo)
    (hmem : ∀ question ∈ questions, question ∈ asked) : replay key f memo questions = questions.map f := by
  induction questions generalizing memo with
  | nil => rfl
  | cons question rest ih =>
    obtain ⟨hanswer, hsound⟩ := h.ask hinj (hmem question List.mem_cons_self)
    rw [replay, hanswer, List.map_cons, ih hsound fun q hq => hmem q (List.mem_cons_of_mem _ hq)]

theorem transparent_iff [Nontrivial β] : (∀ f : α → β, replay key f [] questions = questions.map f) ↔
    Set.InjOn key {question | question ∈ questions} := by
  classical
  constructor
  · intro h x hx y hy hkey
    by_contra hne
    obtain ⟨a, b, hab⟩ := exists_pair_ne β
    let f (question : α) : β := if question = x then a else b
    obtain ⟨answer, _, hreplay⟩ : ∃ answer : κ → β, _ ∧ replay key f [] questions = _ := replay_of_keys [] questions
    have hsame : ∀ question ∈ questions, answer (key question) = f question :=
      List.map_inj_left.mp (hreplay.symm.trans (h f))
    have hfx : f x = a := if_pos rfl
    have hfy : f y = b := if_neg (Ne.symm hne)
    apply hab
    rw [← hfx, ← hfy, ← hsame x hx, ← hsame y hy, hkey]
  · intro hinj f
    exact replay_eq_map hinj (by simp [Sound]) fun _ h => h

end Memo
