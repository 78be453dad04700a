import AlgoTrader.Lib.Runs

/-! Machines made of cells, one for each key, in which every action touches the cell of its own
key only, and touches it only if it is one that counts. -/

namespace Keyed

variable {State Cell Key Action : Type*}

structure Isolated (step : State → Action → State) (view : State → Key → Cell)
    (concerns : Action → Key → Prop) (cellStep : Cell → Action → Cell) : Prop where
  own : ∀ s action k, concerns action k → view (step s action) k = cellStep (view s k) action
  other : ∀ s action k, ¬ concerns action k → view (step s action) k = view s k

variable {step : State → Action → State} {view : State → Key → Cell} {concerns : Action → Key → Prop}
  {cellStep : Cell → Action → Cell} [∀ k, DecidablePred (concerns · k)]

/-- What a run leaves in a cell is what the actions that concern it, run alone, leave there. -/
theorem Isolated.run (h : Isolated step view concerns cellStep) (s : State) (actions : List Action) (k : Key) :
    view (Runs.run step s actions) k = Runs.run cellStep (view s k) (actions.filter (concerns · k)) := by
  induction actions generalizing s with
  | nil => rfl
  | cons action rest ih =>
    change view (Runs.run step (step s action) rest) k = _
    rw [ih]
    by_cases hown : concerns action k
    · rw [List.filter_cons_of_pos (by simpa using hown), h.own s action k hown]
      rfl
    · rw [List.filter_cons_of_neg (by simpa using hown), h.other s action k hown]

theorem Isolated.run_filter (h : Isolated step view concerns cellStep) (s : State) (actions : List Action)
    (k : Key) : view (Runs.run step s (actions.filter (concerns · k))) k = view (Runs.run step s actions) k := by
  rw [h.run, h.run, List.filter_filter]
  simp only [Bool.and_self]

end Keyed
