import Mathlib.Tactic.Common

/-! Programs over a state that may raise at any of their calls: what holds when they return, and what holds
when they raise. -/

namespace Fallible

variable {σ ε α β : Type} {P P' : σ → Prop} {Q Q' : α → σ → Prop} {R : β → σ → Prop} {E E' : σ → Prop}

def Ends (Q : α → σ → Prop) (E : σ → Prop) : EStateM.Result ε σ α → Prop
  | .ok a s => Q a s
  | .error _ s => E s

/-- From a state of ``P`` the program returns into ``Q`` or raises into ``E``. -/
def Meets (P : σ → Prop) (m : EStateM ε σ α) (Q : α → σ → Prop) (E : σ → Prop) : Prop :=
  ∀ s, P s → Ends Q E (m s)

abbrev Keeps (I : σ → Prop) (m : EStateM ε σ α) : Prop := Meets I m (fun _ => I) I

def state : EStateM.Result ε σ α → σ
  | .ok _ s => s
  | .error _ s => s

section Rules

variable {m : EStateM ε σ α} {first : EStateM ε σ β}

lemma Ends.state {result : EStateM.Result ε σ α} (h : Ends (fun _ => E) E result) : E (Fallible.state result) := by
  cases result with
  | ok a s => exact h
  | error e s => exact h

lemma Meets.state (h : Meets P m (fun _ => E) E) {s : σ} (hs : P s) : E (Fallible.state (m s)) := (h s hs).state

lemma Meets.weaken (h : Meets P m Q E) (hP : ∀ s, P' s → P s) (hQ : ∀ a s, Q a s → Q' a s)
    (hE : ∀ s, E s → E' s) : Meets P' m Q' E' := by
  intro s hs
  have hends := h s (hP s hs)
  cases hresult : m s with
  | ok a s' =>
    rw [hresult] at hends
    exact hQ a s' hends
  | error e s' =>
    rw [hresult] at hends
    exact hE s' hends

lemma Meets.pre (h : Meets P m Q E) (hP : ∀ s, P' s → P s) : Meets P' m Q E :=
  h.weaken hP (fun _ _ hq => hq) fun _ he => he

lemma meets_pure {a : α} (h : ∀ s, P s → Q a s) : Meets P (pure a : EStateM ε σ α) Q E := h

lemma meets_throw {e : ε} (h : ∀ s, P s → E s) : Meets P (throw e : EStateM ε σ α) Q E := h

lemma meets_modify {f : σ → σ} {Q : PUnit → σ → Prop} (h : ∀ s, P s → Q ⟨⟩ (f s)) :
    Meets P (modify f : EStateM ε σ PUnit) Q E := h

lemma meets_ite {c : Prop} [Decidable c] {m' : EStateM ε σ α} (h : c → Meets P m Q E) (h' : ¬ c → Meets P m' Q E) :
    Meets P (if c then m else m') Q E := by
  split_ifs with hc
  · exact h hc
  · exact h' hc

lemma Meets.bind {f : β → EStateM ε σ α} (h : Meets P first R E) (hf : ∀ b, Meets (R b) (f b) Q E) :
    Meets P (first >>= f) Q E := by
  intro s hs
  have hends := h s hs
  change Ends Q E (EStateM.bind first f s)
  rw [EStateM.bind]
  cases hresult : first s with
  | ok b s' =>
    rw [hresult] at hends
    exact hf b s' hends
  | error e s' =>
    rw [hresult] at hends
    exact hends

lemma meets_get {f : σ → EStateM ε σ α} (h : ∀ s, P s → Meets (· = s) (f s) Q E) : Meets P (get >>= f) Q E :=
  fun s hs => h s hs s rfl

lemma Meets.tryCatch {handler : ε → EStateM ε σ α} (h : Meets P m Q E') (hhandler : ∀ e, Meets E' (handler e) Q E) :
    Meets P (tryCatch m handler) Q E := by
  intro s hs
  have hends := h s hs
  change Ends Q E (EStateM.tryCatch m handler s)
  rw [EStateM.tryCatch]
  cases hresult : m s with
  | ok a s' =>
    rw [hresult] at hends
    exact hends
  | error e s' =>
    rw [hresult] at hends
    exact hhandler e s' hends

lemma Meets.tryFinally {cleaning : Option α → EStateM ε σ β} (h : Meets P m Q E)
    (hok : ∀ a, Meets (Q a) (cleaning (some a)) (fun _ => E') E')
    (hraised : Meets E (cleaning none) (fun _ => E') E') :
    Meets P (tryFinally' m cleaning) (fun _ => E') E' := by
  intro s hs
  have hends := h s hs
  dsimp only [tryFinally']
  cases hresult : m s with
  | ok a s' =>
    rw [hresult] at hends
    have hclean := hok a s' hends
    dsimp only
    cases hcleaned : cleaning (some a) s' with
    | ok b s'' =>
      rw [hcleaned] at hclean
      exact hclean
    | error e s'' =>
      rw [hcleaned] at hclean
      exact hclean
  | error e s' =>
    rw [hresult] at hends
    have hclean := hraised s' hends
    dsimp only
    cases hcleaned : cleaning none s' with
    | ok b s'' =>
      rw [hcleaned] at hclean
      exact hclean
    | error e s'' =>
      rw [hcleaned] at hclean
      exact hclean

lemma Keeps.forM {f : β → EStateM ε σ PUnit} {l : List β} (h : ∀ b ∈ l, Keeps P (f b)) : Keeps P (l.forM f) := by
  induction l with
  | nil => exact meets_pure fun _ hs => hs
  | cons b l ih =>
    refine (h b List.mem_cons_self).bind fun _ => ?_
    exact ih fun other hother => h other (List.mem_cons_of_mem _ hother)

end Rules

end Fallible
