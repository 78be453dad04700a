import AlgoTrader.Broker.ReserveIsolation
import AlgoTrader.Lib.Debounce
import AlgoTrader.Lib.Runs

/-! What the exit copy has seen of the paper account when it closes a trade: its counters against the
whole history of reads. -/

namespace AlgoTrader.Broker.Etoro

open AlgoTrader.Utils.Time

abbrev TrackedCards := Records.Dict String TrackedCard

def trackEntry (cards : TrackedCards) (key : String) (symbol : String) (amount : ℚ) (leverage : ℕ)
    (now : Timestamp) : TrackedCards :=
  if key = "" then cards
  else cards.insert key
    { symbol := symbol.toUpper
      openedAt := now
      amountUsd := positive (some amount)
      notionalUsd := positive (some (Rounding.toDigits 2 (amount * leverage))) }

def updateTracked (instrumentOf : String → ℕ) (update : ScorecardUpdate) (now : Timestamp)
    (cards : TrackedCards) : TrackedCards :=
  match update.read.usable update.clientUsable with
  | none => cards
  | some lots =>
      let updated (card : TrackedCard) : TrackedCard :=
        { card with toCard := updateCard instrumentOf update now lots card.toCard }
      if update.refinable || cards.entries.any fun entry => (updated entry.2).status ≠ entry.2.status
      then Records.rewrite (fun _ card => some (updated card)) cards
      else cards

def ExitRead.reading (read : ExitRead) (cards : TrackedCards) : Option (List String) :=
  if !read.hasReader || !read.clientUsable || !(cards.entries.any fun entry => entry.2.followed) then none
  else
    match read.paper with
    | some (true, held) => some held
    | _ => none

structure ExitState where
  cards : TrackedCards := ∅
  stops : Stops := ∅
  readings : List (Option (List String)) := []

inductive ExitAction
  | entry (key symbol : String) (amount : ℚ) (leverage : ℕ) (now : Timestamp)
  | scorecard (instrumentOf : String → ℕ) (update : ScorecardUpdate) (now : Timestamp)
  | exitCopy (read : ExitRead) (now : Timestamp)

def exitStep (s : ExitState) : ExitAction → ExitState
  | .entry key symbol amount leverage now =>
      { s with cards := trackEntry s.cards key symbol amount leverage now }
  | .scorecard instrumentOf update now =>
      { s with cards := updateTracked instrumentOf update now s.cards }
  | .exitCopy read now =>
      let pass := copyPaperExits read now s.cards s.stops
      { cards := pass.cards, stops := pass.stops, readings := s.readings ++ [read.reading s.cards] }

def readsHeld (symbol : String) (reading : Option (List String)) : Bool := reading.any fun held => symbol ∈ held

def readsFlat (symbol : String) (reading : Option (List String)) : Bool := reading.any fun held => symbol ∉ held

/-- The position was read as held, and since then only as flat, often enough. -/
def ExitSeen (readings : List (Option (List String))) (symbol : String) : Prop :=
  ∃ earlier seen later, readings = earlier ++ seen :: later ∧ readsHeld symbol seen = true ∧
    (∀ reading ∈ later, readsHeld symbol reading = false) ∧
    flatReadsToClose ≤ (later.filter (readsFlat symbol)).length

structure ClosesOnEvidence (s : ExitState) (read : ExitRead) (now : Timestamp) : Prop where
  evidence : ∀ positionId ∈ (copyPaperExits read now s.cards s.stops).sent,
    ∃ key card, s.cards.lookup key = some card ∧ positionId ∈ card.positionIds ∧
      ExitSeen (s.readings ++ [read.reading s.cards]) card.name
  unread : (∀ held, read.paper ≠ some (true, held)) → (copyPaperExits read now s.cards s.stops).cards = s.cards

def flatReads (readings : List (Option (List String))) (symbol : String) : ℕ :=
  Debounce.count (readsHeld symbol) (readsFlat symbol) readings

structure Tallied (readings : List (Option (List String))) (card : TrackedCard) : Prop where
  filled : card.status = .opened → card.positionIds ≠ []
  fresh : card.status = .pendingFill → card.paperSeen = false ∧ card.paperFlatReads = 0
  seen : card.status = .opened → card.detached = false → card.paperSeen = true →
    ∃ reading ∈ readings, readsHeld card.name reading = true
  flat : card.status = .opened → card.detached = false → card.paperFlatReads ≤ flatReads readings card.name

def AllTallied (s : ExitState) : Prop := ∀ key card, s.cards.lookup key = some card → Tallied s.readings card

section Tallied

variable {readings : List (Option (List String))} {card : TrackedCard} {read : ExitRead} {now : Timestamp}
  {held : List String}

lemma Tallied.read_none (h : Tallied readings card) : Tallied (readings ++ [none]) card where
  filled := h.filled
  fresh := h.fresh
  seen hopen hattached hseen := by
    obtain ⟨reading, hmem, hheld⟩ := h.seen hopen hattached hseen
    exact ⟨reading, List.mem_append_left _ hmem, hheld⟩
  flat hopen hattached := by
    refine (h.flat hopen hattached).trans ?_
    have hunread : readsHeld card.name none = false := rfl
    exact Debounce.count_le_of_not_resets hunread

lemma tallied_entry {symbol : String} {amount : ℚ} {leverage : ℕ} :
    Tallied readings
      { symbol := symbol.toUpper
        openedAt := now
        amountUsd := positive (some amount)
        notionalUsd := positive (some (Rounding.toDigits 2 (amount * leverage))) } where
  filled := nofun
  fresh _ := ⟨rfl, rfl⟩
  seen := nofun
  flat := nofun

lemma Tallied.not_followed (h : Tallied readings card) (hfollowed : card.followed = false)
    (reading : Option (List String)) : Tallied (readings ++ [reading]) card := by
  have hclosed : card.status ≠ .opened := by
    intro hopen
    rw [TrackedCard.followed, hopen] at hfollowed
    exact h.filled hopen (by simpa using hfollowed)
  exact ⟨h.filled, h.fresh, fun hopen => absurd hopen hclosed, fun hopen => absurd hopen hclosed⟩

lemma flatReads_of_flat (h : card.name ∉ held) :
    flatReads (readings ++ [some held]) card.name = flatReads readings card.name + 1 := by
  have hresets : readsHeld card.name (some held) = false := decide_eq_false h
  have hcounts : readsFlat card.name (some held) = true := decide_eq_true h
  exact Debounce.count_of_counts hresets hcounts

inductive ExitCase (read : ExitRead) (now : Timestamp) (held : List String) (card : TrackedCard) : TrackedCard → Prop
  | detached (h : card.detached = true) : ExitCase read now held card card
  | held (h : card.name ∈ held) : ExitCase read now held card { card with paperSeen := true, paperFlatReads := 0 }
  | passed (h : card.name ∉ held) : ExitCase read now held card card
  | flat (h : card.name ∉ held) (hseen : card.paperSeen = true) (status : CardStatus)
      (hstatus : status = card.status ∨ status = .closed) (detached : Bool) :
      ExitCase read now held card
        { card with paperFlatReads := card.paperFlatReads + 1, status, detached := card.detached || detached }

lemma exitCase : ExitCase read now held card (exitTrade read now held card).card := by
  rw [exitTrade]
  by_cases hattached : card.detached = true
  · rw [if_pos hattached]
    exact .detached hattached
  rw [if_neg hattached]
  by_cases hheld : card.name ∈ held
  · rw [if_pos hheld]
    exact .held hheld
  rw [if_neg hheld]
  by_cases hpassed : (!card.paperSeen || card.name ∈ read.skipSymbols.map (·.toUpper)) = true
  · rw [if_pos hpassed]
    exact .passed hheld
  rw [if_neg hpassed]
  rw [Bool.or_eq_true, not_or, Bool.not_eq_true', Bool.not_eq_false] at hpassed
  have hfalse : card.detached = (card.detached || false) := (Bool.or_false _).symm
  have hflat := @ExitCase.flat read now held card hheld hpassed.1
  have hkept := hflat card.status (Or.inl rfl) false
  rw [← hfalse] at hkept
  dsimp only
  split_ifs with hreads hsafety hclosed
  · exact hkept
  · have hdetach := hflat card.status (Or.inl rfl) true
    rwa [Bool.or_true] at hdetach
  · have hclose := hflat .closed (Or.inr rfl) false
    rwa [← hfalse] at hclose
  · exact hkept

lemma Tallied.exitCase {card' : TrackedCard} (h : Tallied readings card) (hopen : card.status = .opened)
    (hcase : ExitCase read now held card card') : Tallied (readings ++ [some held]) card' := by
  have hfilled := h.filled hopen
  cases hcase with
  | detached hdetached =>
    refine ⟨h.filled, h.fresh, fun _ hattached => ?_, fun _ hattached => ?_⟩ <;>
      exact absurd (hdetached.symm.trans hattached) Bool.true_eq_false_eq_False
  | held hheld =>
    refine ⟨h.filled, fun hpending => ?_, fun _ _ _ => ?_, fun _ _ => Nat.zero_le _⟩
    · exact absurd (hopen.symm.trans hpending) (by decide)
    · exact ⟨some held, List.mem_append_right _ (List.mem_singleton_self _), decide_eq_true hheld⟩
  | passed hflat =>
    refine ⟨h.filled, h.fresh, fun hopen hattached hseen => ?_, fun hopen hattached => ?_⟩
    · obtain ⟨reading, hmem, hread⟩ := h.seen hopen hattached hseen
      exact ⟨reading, List.mem_append_left _ hmem, hread⟩
    · rw [flatReads_of_flat hflat]
      exact (h.flat hopen hattached).trans (Nat.le_succ _)
  | flat hflat hseen status hstatus detached =>
    refine ⟨fun _ => hfilled, fun hpending => ?_, fun _ hattached _ => ?_, fun _ hattached => ?_⟩
    · rcases hstatus with rfl | rfl
      · exact absurd (hopen.symm.trans hpending) (by decide)
      · cases hpending
    · obtain ⟨reading, hmem, hread⟩ := h.seen hopen (Bool.or_eq_false_iff.mp hattached).1 hseen
      exact ⟨reading, List.mem_append_left _ hmem, hread⟩
    · change card.paperFlatReads + 1 ≤ flatReads (readings ++ [some held]) card.name
      rw [flatReads_of_flat hflat]
      exact Nat.succ_le_succ (h.flat hopen (Bool.or_eq_false_iff.mp hattached).1)

inductive CardCase (card : Card) : Card → Prop
  | same (next : Card) (hstatus : next.status = card.status) (hids : next.positionIds = card.positionIds)
      (hsymbol : next.symbol = card.symbol) : CardCase card next
  | filled (next : Card) (hpending : card.status = .pendingFill) (hopen : next.status = .opened)
      (hids : next.positionIds ≠ []) : CardCase card next
  | ended (next : Card) (hopen : next.status ≠ .opened) (hpending : next.status ≠ .pendingFill) : CardCase card next

lemma cardCase (instrumentOf : String → ℕ) (update : ScorecardUpdate) (now : Timestamp) (lots : List Position)
    (card : Card) : CardCase card (updateCard instrumentOf update now lots card) := by
  rw [updateCard]
  split
  · exact .same _ rfl rfl rfl
  · split
    · exact .same _ rfl rfl rfl
    · rename_i id _
      dsimp only
      split_ifs with hheld hpending _ hstale
      · refine .filled _ hpending rfl ?_
        change (cardHeld lots { card with instrumentId := some id } id).map (·.positionId) ≠ []
        exact fun hnil => hheld (List.map_eq_nil_iff.mp hnil)
      · exact .same _ rfl rfl rfl
      · exact .ended _ (by simp) (by simp)
      · exact .same _ rfl rfl rfl
      · cases update.closeRate card.symbol with
        | none => exact .same _ rfl rfl rfl
        | some rate => exact .ended _ (by simp) (by simp)

lemma Tallied.cardCase {next : Card} (h : Tallied readings card) (hcase : CardCase card.toCard next) :
    Tallied readings { card with toCard := next } := by
  cases hcase with
  | same hstatus hids hsymbol =>
    have hname : TrackedCard.name { card with toCard := next } = card.name := congrArg String.toUpper hsymbol
    refine ⟨fun hopen => ?_, fun hpending => h.fresh (hstatus ▸ hpending), ?_, ?_⟩
    · rw [hids]
      exact h.filled (hstatus ▸ hopen)
    · intro hopen hattached hseen
      rw [hname]
      exact h.seen (hstatus ▸ hopen) hattached hseen
    · intro hopen hattached
      rw [hname]
      exact h.flat (hstatus ▸ hopen) hattached
  | filled hpending hopen hids =>
    obtain ⟨hseen, hflat⟩ := h.fresh hpending
    refine ⟨fun _ => hids, fun hpending' => absurd (hopen.symm.trans hpending') (by decide), ?_, ?_⟩
    · intro _ _ hseen'
      exact absurd (hseen.symm.trans hseen') Bool.false_ne_true
    · intro _ _
      change card.paperFlatReads ≤ _
      rw [hflat]
      exact Nat.zero_le _
  | ended hopen hpending =>
    exact ⟨fun h => absurd h hopen, fun h => absurd h hpending, fun h => absurd h hopen, fun h => absurd h hopen⟩

end Tallied

section Runs

variable {s : ExitState} {read : ExitRead} {now : Timestamp} {held : List String}

lemma updateTracked_lookup {instrumentOf : String → ℕ} {update : ScorecardUpdate} {cards : TrackedCards}
    {key : String} {card : TrackedCard} (h : (updateTracked instrumentOf update now cards).lookup key = some card) :
    cards.lookup key = some card ∨ ∃ old lots, cards.lookup key = some old ∧
      card = { old with toCard := updateCard instrumentOf update now lots old.toCard } := by
  rw [updateTracked] at h
  split at h
  · exact Or.inl h
  · rename_i lots _
    dsimp only at h
    split_ifs at h
    · rw [Records.lookup_rewrite] at h
      obtain ⟨old, hold, hcard⟩ := Option.bind_eq_some_iff.mp h
      exact Or.inr ⟨old, lots, hold, (Option.some.inj hcard).symm⟩
    · exact Or.inl h

lemma cards_of_reading (h : read.reading s.cards = some held) (key : String) :
    (copyPaperExits read now s.cards s.stops).cards.lookup key =
      (s.cards.lookup key).map fun card => if card.followed then (exitTrade read now held card).card else card := by
  rw [ExitRead.reading] at h
  split_ifs at h with hreads
  rw [Bool.or_eq_true, not_or] at hreads
  split at h
  case h_1 found hpaper =>
    cases h
    have hgoes : ¬ (!read.hasReader || !read.clientUsable || !true) = true := by simpa using hreads.1
    rw [copyPaperExits, hpaper]
    dsimp only
    rw [if_neg hgoes, Records.lookup_rewrite]
    cases s.cards.lookup key <;> rfl
  case h_2 => cases h

lemma cards_unread (h : read.reading s.cards = none) (key : String) :
    (copyPaperExits read now s.cards s.stops).cards.lookup key = s.cards.lookup key := by
  rw [copyPaperExits]
  cases hpaper : read.paper with
  | none => rfl
  | some paper =>
    obtain ⟨marketOpen, held⟩ := paper
    dsimp only
    split_ifs with hgoes
    · rfl
    · rw [Records.lookup_rewrite]
      have hnone : ∀ card, s.cards.lookup key = some card → card.followed = false := by
        intro card hcard
        by_contra hfollowed
        have hany : s.cards.entries.any (fun entry => entry.2.followed) = true :=
          List.any_eq_true.mpr ⟨⟨key, card⟩, AList.mem_lookup_iff.mp hcard, Bool.eq_true_of_not_eq_false hfollowed⟩
        rw [ExitRead.reading, hany, hpaper] at h
        revert hgoes h
        cases read.hasReader <;> cases read.clientUsable <;> cases marketOpen <;> simp
      cases hcard : s.cards.lookup key with
      | none => rfl
      | some card =>
        change some (if card.followed then _ else card) = some card
        rw [hnone card hcard, if_neg Bool.false_ne_true]

lemma allTallied_exitCopy (h : AllTallied s) : AllTallied (exitStep s (.exitCopy read now)) := by
  intro key card hcard
  change (copyPaperExits read now s.cards s.stops).cards.lookup key = some card at hcard
  change Tallied (s.readings ++ [read.reading s.cards]) card
  cases hreading : read.reading s.cards with
  | none =>
    rw [cards_unread hreading] at hcard
    exact (h key card hcard).read_none
  | some held =>
    rw [cards_of_reading hreading] at hcard
    obtain ⟨old, hold, rfl⟩ := Option.map_eq_some_iff.mp hcard
    have htallied := h key old hold
    split_ifs with hfollowed
    · have hopen : old.status = .opened := by
        rw [TrackedCard.followed, Bool.and_eq_true] at hfollowed
        simpa using hfollowed.1
      exact htallied.exitCase hopen exitCase
    · exact htallied.not_followed (Bool.eq_false_iff.mpr hfollowed) _

lemma allTallied_step (action : ExitAction) (h : AllTallied s) : AllTallied (exitStep s action) := by
  cases action with
  | entry key symbol amount leverage now =>
    intro other card hcard
    change (trackEntry s.cards key symbol amount leverage now).lookup other = some card at hcard
    rw [trackEntry] at hcard
    split_ifs at hcard
    · exact h other card hcard
    · by_cases hkey : other = key
      · subst hkey
        rw [AList.lookup_insert] at hcard
        cases hcard
        exact tallied_entry
      · rw [AList.lookup_insert_ne hkey] at hcard
        exact h other card hcard
  | scorecard instrumentOf update now =>
    intro key card hcard
    rcases updateTracked_lookup hcard with hsame | ⟨old, lots, hold, rfl⟩
    · exact h key card hsame
    · exact (h key old hold).cardCase (cardCase instrumentOf update now lots old.toCard)
  | exitCopy read now => exact allTallied_exitCopy h

lemma exitSeen_of_tallied {card : TrackedCard} (h : Tallied s.readings card) (hopen : card.status = .opened)
    (hdue : ExitDue read now held card) : ExitSeen (s.readings ++ [some held]) card.name := by
  obtain ⟨reading, hmem, hheld⟩ := h.seen hopen hdue.attached hdue.seen
  have hreset : ∃ reading ∈ s.readings ++ [some held], readsHeld card.name reading = true :=
    ⟨reading, List.mem_append_left _ hmem, hheld⟩
  obtain ⟨earlier, seen, later, hsplit, hseen, hlater, hcount⟩ :=
    Debounce.since_last_reset (readsFlat card.name) hreset
  refine ⟨earlier, seen, later, hsplit, hseen, hlater, ?_⟩
  rw [← hcount]
  calc flatReadsToClose ≤ card.paperFlatReads + 1 := hdue.reads
    _ ≤ flatReads s.readings card.name + 1 := Nat.succ_le_succ (h.flat hopen hdue.attached)
    _ = flatReads (s.readings ++ [some held]) card.name := (flatReads_of_flat hdue.flat).symm

lemma sent_of_copy {positionId : ℕ} (h : positionId ∈ (copyPaperExits read now s.cards s.stops).sent) :
    ∃ held key card, read.reading s.cards = some held ∧ s.cards.lookup key = some card ∧
      card.followed = true ∧ positionId ∈ (exitTrade read now held card).sent := by
  rw [copyPaperExits] at h
  cases hpaper : read.paper with
  | none =>
    rw [hpaper] at h
    cases h
  | some paper =>
    obtain ⟨marketOpen, held⟩ := paper
    rw [hpaper] at h
    dsimp only at h
    split_ifs at h with hgoes
    · cases h
    · obtain ⟨⟨key, card⟩, hentry, hsent⟩ := List.mem_flatMap.mp h
      obtain ⟨hentry, hfollowed⟩ := List.mem_filter.mp hentry
      have hany : s.cards.entries.any (fun entry => entry.2.followed) = true :=
        List.any_eq_true.mpr ⟨⟨key, card⟩, hentry, hfollowed⟩
      refine ⟨held, key, card, ?_, AList.mem_lookup_iff.mpr hentry, hfollowed, hsent⟩
      rw [ExitRead.reading, hany, hpaper]
      revert hgoes
      cases read.hasReader <;> cases read.clientUsable <;> cases marketOpen <;> simp

end Runs

/-- In every run, an exit is copied only on the evidence of the reads, and a cycle that does not read
the paper account as open changes no card. -/
theorem exit_copied_on_evidence (actions : List ExitAction) (read : ExitRead) (now : Timestamp) :
    ClosesOnEvidence (Runs.run exitStep {} actions) read now := by
  have hstart : AllTallied {} := by
    intro key card hcard
    cases hcard
  have htallied := Runs.invariant_of_step (fun s action => allTallied_step (s := s) action) hstart actions
  refine ⟨fun positionId hsent => ?_, fun hunread => ?_⟩
  · obtain ⟨held, key, card, hreading, hcard, hfollowed, hsent⟩ := sent_of_copy hsent
    obtain ⟨hdue, hid⟩ := exitDue_of_sent hsent
    rw [TrackedCard.followed, Bool.and_eq_true] at hfollowed
    have hopen : card.status = .opened := by simpa using hfollowed.1
    refine ⟨key, card, hcard, hid, ?_⟩
    rw [hreading]
    exact exitSeen_of_tallied (htallied key card hcard) hopen hdue
  · rw [copyPaperExits]
    cases hpaper : read.paper with
    | none => rfl
    | some paper =>
      obtain ⟨marketOpen, held⟩ := paper
      cases marketOpen with
      | false =>
        dsimp only
        rw [Bool.not_false, Bool.or_true, if_pos rfl]
      | true => exact absurd hpaper (hunread held)

end AlgoTrader.Broker.Etoro
