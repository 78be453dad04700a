import Mathlib.Data.List.Basic
import Mathlib.Order.Lattice

/-! Runs of a process that keeps part of what it knows in memory: events on a clock, whose saves may
fail, and restarts that forget the memory. What such a process sends once is known by its key until that
has expired, and the items it sends from a source are newer each time than the mark of that source. -/

namespace Remembered

variable {State Event τ : Type*} [Preorder τ]

inductive Action (Event : Type*)
  | event (event : Event)
  | restart

section Runs

variable (step : State → Event → State) (forget : State → State) (time : Event → τ) (saves : Event → Bool)

def act (s : State) : Action Event → State
  | .event e => step s e
  | .restart => forget s

def run (s : State) (actions : List (Action Event)) : State := actions.foldl (act step forget) s

def Ordered : τ → List (Action Event) → Prop
  | _, [] => True
  | clock, .event e :: rest => clock ≤ time e ∧ Ordered (time e) rest
  | clock, .restart :: rest => Ordered clock rest

def Saved : List (Action Event) → Prop
  | [] => True
  | .event e :: rest => (saves e = false → ∀ action ∈ rest, action ≠ .restart) ∧ Saved rest
  | .restart :: rest => Saved rest

variable {step forget time saves}

/-- ``Held`` is what memory and store know together, ``Stored`` what the store knows alone: a restart
needs the second, and only an event that saves keeps it. -/
structure Keeps (step : State → Event → State) (forget : State → State) (time : Event → τ) (saves : Event → Bool)
    (Held Stored : τ → State → Prop) : Prop where
  held : ∀ clock s e, Held clock s → clock ≤ time e → Held (time e) (step s e)
  stored : ∀ clock s e, Held clock s → Stored clock s → clock ≤ time e → saves e = true → Stored (time e) (step s e)
  forget : ∀ clock s, Stored clock s → Held clock (forget s) ∧ Stored clock (forget s)

variable {Held Stored : τ → State → Prop} {clock : τ} {s : State} {actions : List (Action Event)}

theorem Keeps.run_held (h : Keeps step forget time saves Held Stored) (hs : Held clock s)
    (hstart : (∃ action ∈ actions, action = .restart) → Stored clock s) (hordered : Ordered time clock actions)
    (hsaved : Saved saves actions) : ∃ last, Held last (run step forget s actions) := by
  induction actions generalizing clock s with
  | nil => exact ⟨clock, hs⟩
  | cons action rest ih =>
    cases action with
    | event e =>
      refine ih (h.held clock s e hs hordered.1) (fun hrestart => ?_) hordered.2 hsaved.2
      obtain ⟨action, hmem, rfl⟩ := hrestart
      refine h.stored clock s e hs (hstart ⟨.restart, List.mem_cons_of_mem _ hmem, rfl⟩) hordered.1 ?_
      by_contra hlost
      exact hsaved.1 (Bool.eq_false_iff.mpr hlost) .restart hmem rfl
    | restart =>
      obtain ⟨hheld, hstored⟩ := h.forget clock s (hstart ⟨.restart, List.mem_cons_self, rfl⟩)
      exact ih hheld (fun _ => hstored) hordered hsaved

theorem Keeps.run_stored (h : Keeps step forget time saves Held Stored) (hs : Held clock s) (hstart : Stored clock s)
    (hordered : Ordered time clock actions) (hsaved : ∀ e, .event e ∈ actions → saves e = true) :
    ∃ last, Held last (run step forget s actions) ∧ Stored last (run step forget s actions) := by
  induction actions generalizing clock s with
  | nil => exact ⟨clock, hs, hstart⟩
  | cons action rest ih =>
    have hrest (e : Event) (he : .event e ∈ rest) : saves e = true := hsaved e (List.mem_cons_of_mem _ he)
    cases action with
    | event e =>
      have hsaves := hsaved e List.mem_cons_self
      exact ih (h.held clock s e hs hordered.1) (h.stored clock s e hs hstart hordered.1 hsaves) hordered.2 hrest
    | restart =>
      obtain ⟨hheld, hstored⟩ := h.forget clock s hstart
      exact ih hheld hstored hordered hrest

end Runs

section Ledger

variable {α κ σ ν : Type*} [LinearOrder ν] (keys : α → List κ) (items : α → List (σ × ν))

/-- What is known of the keys that were sent, unless they have expired, and the newest item of each source,
unless it is older than any that can come. -/
structure Ledger (known expired : κ → Prop) (mark : σ → Option ν) (floor : ν) (sent : List α) : Prop where
  once : sent.Pairwise fun a b => ∀ key ∈ keys a, key ∉ keys b
  newer : sent.Pairwise fun a b => ∀ item ∈ items a, ∀ later ∈ items b, item.1 = later.1 → item.2 < later.2
  known : ∀ a ∈ sent, ∀ key ∈ keys a, known key ∨ expired key
  marked : ∀ a ∈ sent, ∀ item ∈ items a, (∃ newest, mark item.1 = some newest ∧ item.2 ≤ newest) ∨ item.2 < floor

variable {keys items} {known expired known' expired' : κ → Prop} {mark mark' : σ → Option ν} {floor floor' : ν}
variable {sent : List α}

lemma Ledger.nil : Ledger keys items known expired mark floor [] where
  once := List.Pairwise.nil
  newer := List.Pairwise.nil
  known := fun _ h => absurd h List.not_mem_nil
  marked := fun _ h => absurd h List.not_mem_nil

lemma Ledger.mono (h : Ledger keys items known expired mark floor sent) (hknown : ∀ key, known key → known' key ∨ expired' key)
    (hexpired : ∀ key, expired key → expired' key)
    (hmark : ∀ source newest, mark source = some newest →
      (∃ newer, mark' source = some newer ∧ newest ≤ newer) ∨ newest < floor')
    (hfloor : floor ≤ floor') : Ledger keys items known' expired' mark' floor' sent where
  once := h.once
  newer := h.newer
  known := fun a ha key hkey => by
    rcases h.known a ha key hkey with hknows | hends
    · exact hknown key hknows
    · exact Or.inr (hexpired key hends)
  marked := fun a ha item hitem => by
    rcases h.marked a ha item hitem with ⟨newest, hnewest, hle⟩ | hold
    · rcases hmark item.1 newest hnewest with ⟨newer, hnewer, hle'⟩ | hdropped
      · exact Or.inl ⟨newer, hnewer, hle.trans hle'⟩
      · exact Or.inr (hle.trans_lt hdropped)
    · exact Or.inr (hold.trans_le hfloor)

lemma Ledger.add {a : α} (h : Ledger keys items known expired mark floor sent)
    (hkeys : ∀ key ∈ keys a, ¬ known key ∧ ¬ expired key)
    (hitems : ∀ item ∈ items a, floor ≤ item.2 ∧ ∀ newest, mark item.1 = some newest → newest < item.2)
    (hknown : ∀ key, known key ∨ key ∈ keys a → known' key)
    (hmark : ∀ source newest, mark source = some newest → ∃ newer, mark' source = some newer ∧ newest ≤ newer)
    (hadded : ∀ item ∈ items a, ∃ newest, mark' item.1 = some newest ∧ item.2 ≤ newest) :
    Ledger keys items known' expired mark' floor (sent ++ [a]) where
  once := by
    refine List.pairwise_append.mpr ⟨h.once, List.pairwise_singleton _ _, fun earlier hearlier last hlast => ?_⟩
    rw [List.mem_singleton.mp hlast]
    intro key hkey hagain
    rcases h.known earlier hearlier key hkey with hknows | hends
    · exact (hkeys key hagain).1 hknows
    · exact (hkeys key hagain).2 hends
  newer := by
    refine List.pairwise_append.mpr ⟨h.newer, List.pairwise_singleton _ _, fun earlier hearlier last hlast => ?_⟩
    rw [List.mem_singleton.mp hlast]
    intro item hitem later hlater hsource
    obtain ⟨hfloor, hnewer⟩ := hitems later hlater
    rcases h.marked earlier hearlier item hitem with ⟨newest, hnewest, hle⟩ | hold
    · exact hle.trans_lt (hnewer newest (hsource ▸ hnewest))
    · exact hold.trans_le hfloor
  known := fun b hb key hkey => by
    rcases List.mem_append.mp hb with hearlier | hlast
    · rcases h.known b hearlier key hkey with hknows | hends
      · exact Or.inl (hknown key (Or.inl hknows))
      · exact Or.inr hends
    · exact Or.inl (hknown key (Or.inr (List.mem_singleton.mp hlast ▸ hkey)))
  marked := fun b hb item hitem => by
    rcases List.mem_append.mp hb with hearlier | hlast
    · rcases h.marked b hearlier item hitem with ⟨newest, hnewest, hle⟩ | hold
      · obtain ⟨newer, hnewer, hle'⟩ := hmark item.1 newest hnewest
        exact Or.inl ⟨newer, hnewer, hle.trans hle'⟩
      · exact Or.inr hold
    · exact Or.inl (hadded item (List.mem_singleton.mp hlast ▸ hitem))

end Ledger

end Remembered
