import AlgoTrader.Broker.ExitEvidence
import AlgoTrader.Automation.Reconciliation

/-! Safety flattens beside the exit copy: the mark is written when a flatten is submitted, and read when
the paper position has been gone for two reads. -/

namespace AlgoTrader.Broker.Etoro

open AlgoTrader.Utils.Time

/-- What the exit copy keeps, and the paper side: the stored marks, the flattens that wait for their
fill, and the positions that went by one. Both hold the time of the flatten's mark. -/
structure PaperState extends ExitState where
  now : Timestamp
  marker : SafetyMarker := {}
  queued : String → Option Timestamp := fun _ => none
  flattened : String → Option Timestamp := fun _ => none
  copied : List String := []

/-- A sweep closes one unprotected position, an emergency stop those of ``closing``. The paper side
opens and closes positions of its own in ``bought`` and ``sold``. -/
inductive PaperAction
  | tick (micros : ℕ)
  | entry (key symbol : String) (amount : ℚ) (leverage : ℕ)
  | scorecard (instrumentOf : String → ℕ) (update : ScorecardUpdate)
  | exitCopy (read : ExitRead)
  | sweep (snapshot : Automation.Snapshot) (symbol : String) (position : PortfolioPosition)
  | emergencyStop (closeAllowed : Bool) (closing : List String)
  | filled (symbol : String)
  | bought (symbol : String)
  | sold (symbol : String)

def SafetyMarker.mark (marker : SafetyMarker) (symbol : Option String) (now : Timestamp) : SafetyMarker :=
  match symbol with
  | none => { marker with allAt := some now }
  | some symbol => { marker with symbols := marker.symbols.insert symbol.toUpper now }

def ExitRead.seeing (read : ExitRead) (marker : SafetyMarker) : ExitRead :=
  { read with marker := read.marker.map fun _ => marker }

namespace PaperState

variable (s : PaperState)

-- Past its guards a flatten marks first and logs how its close was answered.
def sweepPosition (snapshot : Automation.Snapshot) (symbol : String) (position : PortfolioPosition) : PaperState :=
  let logs := (Automation.flattenUnprotected snapshot symbol position).2
  if logs = [] then s
  else
    { s with
      marker := s.marker.mark (some symbol) s.now
      queued :=
        if .flattened symbol position.quantity ∈ logs then
          Function.update s.queued symbol.toUpper (some s.now)
        else s.queued }

def stopEverything (closing : List String) : PaperState :=
  { s with
    marker := s.marker.mark none s.now
    queued := fun name => if name ∈ closing.map (·.toUpper) then some s.now else s.queued name }

def flattenFilled (name : String) : PaperState :=
  match s.queued name with
  | none => s
  | some markedAt =>
    { s with
      queued := Function.update s.queued name none
      flattened := Function.update s.flattened name (some markedAt) }

def copiedFlattens (read : ExitRead) : List String :=
  match read.reading s.cards with
  | none => []
  | some held =>
    (s.cards.entries.filter fun entry =>
      entry.2.followed ∧ (s.flattened entry.2.name).isSome = true ∧
        ((exitTrade read s.now held entry.2).closed = true ∨ (exitTrade read s.now held entry.2).sent ≠ [])).map
      fun entry => entry.2.name

def copyExits (read : ExitRead) : PaperState :=
  { s with
    toExitState := exitStep s.toExitState (.exitCopy (read.seeing s.marker) s.now)
    copied := s.copied ++ s.copiedFlattens (read.seeing s.marker) }

def step : PaperAction → PaperState
  | .tick micros => { s with now := s.now + micros }
  | .entry key symbol amount leverage =>
    { s with toExitState := exitStep s.toExitState (.entry key symbol amount leverage s.now) }
  | .scorecard instrumentOf update =>
    { s with toExitState := exitStep s.toExitState (.scorecard instrumentOf update s.now) }
  | .exitCopy read => s.copyExits read
  | .sweep snapshot symbol position => s.sweepPosition snapshot symbol position
  | .emergencyStop closeAllowed closing => if closeAllowed then s.stopEverything closing else s
  | .filled symbol => s.flattenFilled symbol.toUpper
  | .bought symbol => { s with flattened := Function.update s.flattened symbol.toUpper none }
  | .sold symbol =>
    { s with
      queued := Function.update s.queued symbol.toUpper none
      flattened := Function.update s.flattened symbol.toUpper none }

end PaperState

def Decided (read : ExitRead) (held : List String) (card : TrackedCard) : Prop :=
  card.detached = false ∧ card.name ∉ held ∧ card.paperSeen = true ∧
    card.name ∉ read.skipSymbols.map (·.toUpper) ∧ flatReadsToClose ≤ card.paperFlatReads + 1

instance (read : ExitRead) (held : List String) (card : TrackedCard) : Decidable (Decided read held card) :=
  inferInstanceAs (Decidable (_ ∧ _))

/-- A pass that decides on a trade whose paper position went by a flatten comes within the window
of the flatten's mark, and the trade was opened no later than that, unless the kill switch is still on or
the marks are unreadable. -/
def decidedInTime (s : PaperState) : PaperAction → Prop
  | .exitCopy read => ∀ held ∈ read.reading s.cards, ∀ entry ∈ s.cards.entries, entry.2.followed = true →
      Decided read held entry.2 → ∀ markedAt ∈ s.flattened entry.2.name,
      read.killSwitch = true ∨ read.marker.isNone = true ∨
        s.now - safetyWindowHours * 60 * microsPerMinute < markedAt ∧ entry.2.openedAt ≤ markedAt
  | _ => True

instance (s : PaperState) (action : PaperAction) : Decidable (decidedInTime s action) :=
  match action with
  | .exitCopy _ => inferInstanceAs (Decidable (∀ _ ∈ _, _))
  | .tick _ | .entry .. | .scorecard .. | .sweep .. | .emergencyStop .. | .filled _ | .bought _ | .sold _ =>
    isTrue trivial

section Marked

variable {s : PaperState} {name : String} {markedAt : Timestamp}

def SafetyMarker.marks (marker : SafetyMarker) (name : String) : List Timestamp :=
  marker.allAt.toList ++ (marker.symbols.lookup name).toList

structure Marked (s : PaperState) : Prop where
  past : ∀ name, ∀ mark ∈ s.marker.marks name, mark ≤ s.now
  queued : ∀ name markedAt, s.queued name = some markedAt → ∃ mark ∈ s.marker.marks name, markedAt ≤ mark
  flattened : ∀ name markedAt, s.flattened name = some markedAt → ∃ mark ∈ s.marker.marks name, markedAt ≤ mark

lemma mem_mark (marker : SafetyMarker) (symbol : Option String) (now : Timestamp) :
    (∀ mark ∈ (marker.mark symbol now).marks name, mark = now ∨ mark ∈ marker.marks name) ∧
      ∀ mark ∈ marker.marks name, mark ≤ now → ∃ later ∈ (marker.mark symbol now).marks name, mark ≤ later := by
  cases symbol with
  | none =>
    constructor
    · intro mark hmark
      rcases List.mem_append.mp hmark with hall | hsymbol
      · exact Or.inl (List.mem_singleton.mp hall)
      · exact Or.inr (List.mem_append_right _ hsymbol)
    · intro mark _ hle
      exact ⟨now, List.mem_append_left _ (List.mem_singleton_self _), hle⟩
  | some symbol =>
    have hinsert : (marker.mark (some symbol) now).marks name =
        marker.allAt.toList ++ ((marker.symbols.insert symbol.toUpper now).lookup name).toList := rfl
    rw [hinsert]
    by_cases hname : name = symbol.toUpper
    · rw [hname, AList.lookup_insert]
      constructor
      · intro mark hmark
        rcases List.mem_append.mp hmark with hall | hsymbol
        · exact Or.inr (List.mem_append_left _ hall)
        · exact Or.inl (List.mem_singleton.mp hsymbol)
      · intro mark _ hle
        exact ⟨now, List.mem_append_right _ (List.mem_singleton_self _), hle⟩
    · rw [AList.lookup_insert_ne hname]
      exact ⟨fun mark hmark => Or.inr hmark, fun mark hmark _ => ⟨mark, hmark, le_refl _⟩⟩

lemma own_mark (marker : SafetyMarker) (symbol : String) (now : Timestamp) :
    now ∈ (marker.mark (some symbol) now).marks symbol.toUpper := by
  change now ∈ marker.allAt.toList ++ ((marker.symbols.insert symbol.toUpper now).lookup symbol.toUpper).toList
  rw [AList.lookup_insert]
  exact List.mem_append_right _ (List.mem_singleton_self _)

lemma Marked.mark (h : Marked s) (symbol : Option String) {queued : String → Option Timestamp}
    (hqueued : ∀ name markedAt, queued name = some markedAt →
      s.queued name = some markedAt ∨ markedAt = s.now ∧ s.now ∈ (s.marker.mark symbol s.now).marks name) :
    Marked { s with marker := s.marker.mark symbol s.now, queued } where
  past name mark hmark := by
    rcases (mem_mark s.marker symbol s.now).1 mark hmark with rfl | hold
    · exact le_refl _
    · exact h.past name mark hold
  queued name markedAt hkey := by
    rcases hqueued name markedAt hkey with hold | ⟨rfl, hown⟩
    · obtain ⟨mark, hmark, hle⟩ := h.queued name markedAt hold
      obtain ⟨later, hlater, hle'⟩ := (mem_mark s.marker symbol s.now).2 mark hmark (h.past name mark hmark)
      exact ⟨later, hlater, hle.trans hle'⟩
    · exact ⟨s.now, hown, le_refl _⟩
  flattened name markedAt hkey := by
    obtain ⟨mark, hmark, hle⟩ := h.flattened name markedAt hkey
    obtain ⟨later, hlater, hle'⟩ := (mem_mark s.marker symbol s.now).2 mark hmark (h.past name mark hmark)
    exact ⟨later, hlater, hle.trans hle'⟩

lemma of_update_none {f : String → Option Timestamp} {symbol : String}
    (h : Function.update f symbol none name = some markedAt) : f name = some markedAt := by
  rw [Function.update_apply] at h
  split_ifs at h
  exact h

lemma Marked.sweep (h : Marked s) (snapshot : Automation.Snapshot) (symbol : String) (position : PortfolioPosition) :
    Marked (s.sweepPosition snapshot symbol position) := by
  rw [PaperState.sweepPosition]
  split_ifs
  · exact h
  · refine h.mark (some symbol) fun name markedAt hkey => ?_
    rw [Function.update_apply] at hkey
    split_ifs at hkey with hname
    · cases hkey
      rw [hname]
      exact Or.inr ⟨rfl, own_mark s.marker symbol s.now⟩
    · exact Or.inl hkey
  · exact h.mark (some symbol) fun name markedAt hkey => Or.inl hkey

lemma Marked.stop (h : Marked s) (closing : List String) : Marked (s.stopEverything closing) := by
  refine h.mark none fun name markedAt hkey => ?_
  split_ifs at hkey
  · cases hkey
    exact Or.inr ⟨rfl, List.mem_append_left _ (List.mem_singleton_self _)⟩
  · exact Or.inl hkey

lemma Marked.fill (h : Marked s) (symbol : String) : Marked (s.flattenFilled symbol) := by
  rw [PaperState.flattenFilled]
  cases hqueued : s.queued symbol with
  | none => exact h
  | some filledAt =>
    refine ⟨h.past, fun name markedAt hkey => h.queued name markedAt (of_update_none hkey), ?_⟩
    intro name markedAt hkey
    change Function.update s.flattened symbol (some filledAt) name = some markedAt at hkey
    rw [Function.update_apply] at hkey
    split_ifs at hkey with hname
    · cases hkey
      rw [hname]
      exact h.queued symbol filledAt hqueued
    · exact h.flattened name markedAt hkey

lemma Marked.step (h : Marked s) (action : PaperAction) : Marked (s.step action) := by
  cases action with
  | tick micros =>
    refine ⟨fun name mark hmark => (h.past name mark hmark).trans ?_, h.queued, h.flattened⟩
    exact Int.le_add_of_nonneg_right (Int.natCast_nonneg micros)
  | entry => exact ⟨h.past, h.queued, h.flattened⟩
  | scorecard => exact ⟨h.past, h.queued, h.flattened⟩
  | exitCopy => exact ⟨h.past, h.queued, h.flattened⟩
  | sweep snapshot symbol position => exact h.sweep snapshot symbol position
  | emergencyStop closeAllowed closing =>
    rw [PaperState.step]
    split_ifs
    · exact h.stop closing
    · exact h
  | filled symbol => exact h.fill symbol.toUpper
  | bought => exact ⟨h.past, h.queued, fun name markedAt hkey => h.flattened name markedAt (of_update_none hkey)⟩
  | sold =>
    exact ⟨h.past, fun name markedAt hkey => h.queued name markedAt (of_update_none hkey),
      fun name markedAt hkey => h.flattened name markedAt (of_update_none hkey)⟩

lemma safetyFlatten_of_window (h : Marked s) {card : TrackedCard} {read : ExitRead}
    (hflattened : s.flattened card.name = some markedAt)
    (hin : read.killSwitch = true ∨ read.marker.isNone = true ∨
      s.now - safetyWindowHours * 60 * microsPerMinute < markedAt ∧ card.openedAt ≤ markedAt) :
    safetyFlatten (read.seeing s.marker) s.now card = true := by
  rw [safetyFlatten]
  rcases hin with hswitch | hunreadable | ⟨hcutoff, hopened⟩
  · change (read.killSwitch || _) = true
    rw [hswitch, Bool.true_or]
  · have hmarker : (read.seeing s.marker).marker = none := by
      change read.marker.map (fun _ => s.marker) = none
      rw [Option.isNone_iff_eq_none.mp hunreadable]
      rfl
    rw [hmarker, Bool.or_true]
  · obtain ⟨mark, hmark, hle⟩ := h.flattened card.name markedAt hflattened
    cases hmarker : (read.seeing s.marker).marker with
    | none => exact Bool.or_true _
    | some marker =>
      obtain ⟨-, -, hsame⟩ := Option.map_eq_some_iff.mp hmarker
      subst hsame
      have hany : (s.marker.marks card.name).any (fun at' =>
          s.now - safetyWindowHours * 60 * microsPerMinute < at' && card.openedAt ≤ at') = true :=
        List.any_eq_true.mpr ⟨mark, hmark, by
          rw [Bool.and_eq_true]
          exact ⟨decide_eq_true (hcutoff.trans_le hle), decide_eq_true (hopened.trans hle)⟩⟩
      rw [SafetyMarker.marks] at hany
      dsimp only
      rw [hany, Bool.or_true]

lemma copiedFlattens_eq_nil (h : Marked s) {read : ExitRead} (hin : decidedInTime s (.exitCopy read)) :
    s.copiedFlattens (read.seeing s.marker) = [] := by
  have hsame : (read.seeing s.marker).reading s.cards = read.reading s.cards := rfl
  rw [PaperState.copiedFlattens, hsame]
  cases hreading : read.reading s.cards with
  | none => rfl
  | some held =>
    dsimp only
    rw [List.map_eq_nil_iff, List.filter_eq_nil_iff]
    intro entry hentry hcopied
    obtain ⟨hfollowed, hflattened, hclose⟩ := of_decide_eq_true hcopied
    obtain ⟨markedAt, hmarkedAt⟩ := Option.isSome_iff_exists.mp hflattened
    by_cases hdue : ExitDue (read.seeing s.marker) s.now held entry.2
    · have hdecided : Decided read held entry.2 := ⟨hdue.attached, hdue.flat, hdue.seen, hdue.unskipped, hdue.reads⟩
      have hwindow := hin held hreading entry hentry hfollowed hdecided markedAt hmarkedAt
      have hsafety := safetyFlatten_of_window h hmarkedAt hwindow
      rw [hdue.strategy] at hsafety
      cases hsafety
    · obtain ⟨hsent, hclosed⟩ := exitTrade_undue hdue
      rw [hsent, hclosed] at hclose
      simp at hclose

end Marked

theorem flattens_not_copied (start : Timestamp) {actions : List PaperAction}
    (hall : Runs.Allowed PaperState.step decidedInTime { now := start } actions) :
    (Runs.run PaperState.step { now := start } actions).copied = [] := by
  have hstart : Marked { now := start } ∧ ({ now := start } : PaperState).copied = [] := by
    refine ⟨⟨fun name mark hmark => ?_, nofun, nofun⟩, rfl⟩
    exact absurd hmark List.not_mem_nil
  refine (Runs.invariant (I := fun s => Marked s ∧ s.copied = []) ?_ hstart hall).2
  rintro s action ⟨hmarked, hcopied⟩ hin
  refine ⟨hmarked.step action, ?_⟩
  cases action with
  | exitCopy read =>
    change s.copied ++ s.copiedFlattens (read.seeing s.marker) = []
    rw [hcopied, copiedFlattens_eq_nil hmarked hin]
    rfl
  | sweep snapshot symbol position =>
    rw [PaperState.step, PaperState.sweepPosition]
    split_ifs <;> exact hcopied
  | emergencyStop closeAllowed closing =>
    rw [PaperState.step]
    split_ifs <;> exact hcopied
  | filled symbol =>
    rw [PaperState.step, PaperState.flattenFilled]
    split <;> exact hcopied
  | tick => exact hcopied
  | entry => exact hcopied
  | scorecard => exact hcopied
  | bought => exact hcopied
  | sold => exact hcopied

def minutes (n : ℕ) : ℕ := n * 60 * 1000000

def bareApple : PortfolioPosition := ⟨"AAPL", 10⟩

def acceptingSweep : Automation.Snapshot where
  account := { accountNumber := "" }
  orders := []
  positions := [bareApple]
  executions := []
  closePosition := some fun _ => .ok ()

/-- A live trade, opened at 14:00 and held on paper; its paper position is flattened at 20:05, fills after
a gap, and reads flat twice. -/
def flattenAfterHours (gap : ℕ) : List PaperAction :=
  [.entry "etoro-1" "AAPL" 100 1,
    .scorecard (fun _ => 7) { read := .positions [{ positionId := 11, instrumentId := 7, symbol := "AAPL" }] },
    .exitCopy { paper := some (true, ["AAPL"]) },
    .tick (minutes 365), .sweep acceptingSweep "AAPL" bareApple, .tick gap, .filled "AAPL",
    .tick (minutes 1), .exitCopy { paper := some (true, []) },
    .tick (minutes 1), .exitCopy { paper := some (true, []) }]

def fridayAfternoon : Timestamp := 1791554400000000

theorem flattens_not_copied_overnight :
    Runs.Allowed PaperState.step decidedInTime { now := fridayAfternoon - 1440 * microsPerMinute }
        (flattenAfterHours (minutes 1045)) ∧
      (Runs.run PaperState.step { now := fridayAfternoon - 1440 * microsPerMinute }
        (flattenAfterHours (minutes 1045))).copied = [] := by
  have hall : Runs.Allowed PaperState.step decidedInTime { now := fridayAfternoon - 1440 * microsPerMinute }
      (flattenAfterHours (minutes 1045)) := by decide +kernel
  exact ⟨hall, flattens_not_copied _ hall⟩

/-- The flatten is marked on a Friday after the close and fills at the open on Monday. -/
theorem weekend_flatten_copied :
    ¬ ∀ (start : Timestamp) (actions : List PaperAction),
      (Runs.run PaperState.step { now := start } actions).copied = [] := by
  intro h
  have hcopied : (Runs.run PaperState.step { now := fridayAfternoon } (flattenAfterHours (minutes 3925))).copied =
      ["AAPL"] := by decide +kernel
  exact List.cons_ne_nil _ _ (hcopied.symm.trans (h fridayAfternoon (flattenAfterHours (minutes 3925))))

end AlgoTrader.Broker.Etoro
