import AlgoTrader.Broker.EtoroLiveExitCopy
import AlgoTrader.Broker.EtoroLiveSpyReserve
import AlgoTrader.Broker.StopCoverage

/-! Reserve lots and the lots of a mirrored SPY trade in one portfolio. The backup stop and a card go by
the instrument, the exit copy by the ids on its card and the sale by size, so each side takes the
other's lots when both are there. -/

namespace AlgoTrader.Broker.Etoro

open AlgoTrader.Utils.Time

/-- eToro numbers every position once. -/
structure Portfolio where
  rows : List ReserveRow
  distinct : (rows.map (·.positionId)).Nodup

def Portfolio.lots (portfolio : Portfolio) : List Position := portfolio.rows.map (·.toPosition)

structure IsReserve (spyId : ℕ) (row : ReserveRow) : Prop where
  instrument : row.instrumentId = spyId
  bought : row.isBuy = true
  unmirrored : row.copy = none

lemma Portfolio.same_row (portfolio : Portfolio) {row other : ReserveRow} (hrow : row ∈ portfolio.rows)
    (hother : other ∈ portfolio.rows) (h : row.positionId = other.positionId) : row = other :=
  List.inj_on_of_nodup_map portfolio.distinct hrow hother h

lemma Portfolio.mem_heldLots {portfolio : Portfolio} {lot : Position} {instrumentId : ℕ}
    (h : lot ∈ heldLots portfolio.lots instrumentId) :
    ∃ row ∈ portfolio.rows, row.toPosition = lot ∧ row.instrumentId = instrumentId := by
  obtain ⟨hlot, hid⟩ := List.mem_filter.mp h
  obtain ⟨row, hrow, rfl⟩ := List.mem_map.mp hlot
  exact ⟨row, hrow, rfl, of_decide_eq_true hid⟩

lemma Portfolio.heldLots_of_mem {portfolio : Portfolio} {row : ReserveRow} (h : row ∈ portfolio.rows) :
    row.toPosition ∈ heldLots portfolio.lots row.instrumentId :=
  List.mem_filter.mpr ⟨List.mem_map_of_mem h, decide_eq_true rfl⟩

def accepting : ℕ → Attempt := fun _ => .posted (.accepted (some 1))

section BackupStop

variable (spyId : ℕ) (portfolio : Portfolio) (instrumentOf : String → ℕ) (check : StopCheck)
variable (now : Timestamp) (stops : Stops)

def StopCheck.meets (closeAnswer : ℕ → Attempt) : StopCheck :=
  { check with read := .positions portfolio.lots, closeAnswer }

def BackupStopIsolated : Prop :=
  ∀ closeAnswer, ∀ row ∈ portfolio.rows, IsReserve spyId row →
    row.positionId ∉
      (checkBackupStops instrumentOf (check.meets portfolio closeAnswer) now stops).sent

/-- No recorded stop of SPY's instrument is reached while a reserve lot is held. -/
def BackupStopSeparate : Prop :=
  check.clientUsable = true → ∀ symbol info, stops.lookup symbol = some info →
    instrumentFor instrumentOf check symbol info = some spyId →
    (check.freshRate symbol).any (· ≤ info.stop) = true → ∀ row ∈ portfolio.rows, ¬ IsReserve spyId row

variable {instrumentOf check now} in
lemma mem_closeLots {answer : ℕ → Attempt} {lots : List Position} {positionId : ℕ}
    (h : positionId ∈ (closeLots answer lots).sent) : ∃ lot ∈ lots, lot.positionId = positionId := by
  induction lots with
  | nil => exact absurd h List.not_mem_nil
  | cons lot rest ih =>
    have hfirst : positionId ∈ (if (answer lot.positionId).sent then [lot.positionId] else []) →
        lot.positionId = positionId := by
      intro hsent
      split_ifs at hsent
      · exact (List.mem_singleton.mp hsent).symm
      · exact absurd hsent List.not_mem_nil
    rw [closeLots] at h
    cases hresult : (answer lot.positionId).result with
    | error failure =>
      rw [hresult] at h
      exact ⟨lot, List.mem_cons_self, hfirst h⟩
    | ok status =>
      rw [hresult] at h
      rcases List.mem_append.mp h with hsent | hrest
      · exact ⟨lot, List.mem_cons_self, hfirst hsent⟩
      · obtain ⟨found, hfound, hid⟩ := ih hrest
        exact ⟨found, List.mem_cons_of_mem _ hfound, hid⟩

variable {instrumentOf check now} in
lemma reached_of_sent {lots : List Position} {symbol : String} {info : StopInfo} {positionId : ℕ}
    (h : positionId ∈ (checkStop instrumentOf check now lots symbol info).sent) :
    ∃ id, instrumentFor instrumentOf check symbol info = some id ∧
      (check.freshRate symbol).any (· ≤ info.stop) = true ∧
      ∃ lot ∈ heldLots lots id, lot.positionId = positionId := by
  cases hid : instrumentFor instrumentOf check symbol info with
  | none =>
    rw [checkStop_unlocated hid] at h
    exact absurd h List.not_mem_nil
  | some id =>
    by_cases hheld : heldLots lots id = []
    · simp only [checkStop, hid, if_pos hheld] at h
      split_ifs at h <;> exact absurd h List.not_mem_nil
    · cases hrate : (check.freshRate symbol).any (· ≤ info.stop) with
      | false =>
        rw [checkStop_above hid hheld hrate] at h
        exact absurd h List.not_mem_nil
      | true =>
        rw [checkStop_reached hid hheld hrate, closeAtStop_sent] at h
        exact ⟨id, rfl, rfl, mem_closeLots h⟩

lemma backupStop_isolated_iff :
    BackupStopIsolated spyId portfolio instrumentOf check now stops ↔
      BackupStopSeparate spyId portfolio instrumentOf check stops := by
  constructor
  · intro hisolated husable symbol info hentry hid hrate row hrow hreserve
    apply hisolated accepting row hrow hreserve
    have hheld := portfolio.heldLots_of_mem hrow
    rw [hreserve.instrument] at hheld
    have hlots : (check.meets portfolio accepting).read.usable
        (check.meets portfolio accepting).clientUsable = some portfolio.lots := if_pos husable
    have hlocated : instrumentFor instrumentOf (check.meets portfolio accepting) symbol info =
        some spyId := hid
    apply sent_checkBackupStops hlots hentry
    rw [checkStop_reached hlocated (List.ne_nil_of_mem hheld) hrate, closeAtStop_sent, closeLots_sent]
    · exact List.mem_map_of_mem hheld
    · generalize heldLots portfolio.lots spyId = lots
      induction lots with
      | nil => rfl
      | cons lot rest ih =>
        cases rest with
        | nil => rfl
        | cons next others => exact ih
  · intro hseparate closeAnswer row hrow hreserve hsent
    rw [checkBackupStops] at hsent
    cases husable : check.clientUsable with
    | false =>
      simp only [StopCheck.meets, husable, PortfolioRead.usable, Bool.false_eq_true, if_false] at hsent
      exact absurd hsent List.not_mem_nil
    | true =>
      simp only [StopCheck.meets, husable, PortfolioRead.usable, if_true] at hsent
      obtain ⟨⟨symbol, info⟩, hentry, hstop⟩ := List.mem_flatMap.mp hsent
      obtain ⟨id, hid, hrate, lot, hlot, hsame⟩ := reached_of_sent hstop
      obtain ⟨found, hfound, rfl, hinstrument⟩ := Portfolio.mem_heldLots hlot
      have hrow' : found = row := portfolio.same_row hfound hrow hsame
      rw [hrow', hreserve.instrument] at hinstrument
      rw [← hinstrument] at hid
      exact hseparate husable symbol info (AList.mem_lookup_iff.mpr hentry) hid hrate row hrow hreserve

end BackupStop

section Scorecard

variable (spyId : ℕ) (portfolio : Portfolio) (instrumentOf : String → ℕ) (update : ScorecardUpdate)
variable (now : Timestamp) (cards : Cards)

def ScorecardUpdate.meets : ScorecardUpdate := { update with read := .positions portfolio.lots }

def ScorecardIsolated : Prop :=
  ∀ key card, (updateScorecard instrumentOf (update.meets portfolio) now cards).lookup key = some card →
    ∀ row ∈ portfolio.rows, IsReserve spyId row → row.positionId ∉ card.positionIds

def cardInstrument (card : Card) : Option ℕ :=
  (truthyId card.instrumentId).or
    (if update.lookupFails card.symbol then none else truthyId (instrumentOf card.symbol))

/-- The card's entry was not seen filled, so it is given all that is held of its instrument. -/
structure Awaits (instrumentOf : String → ℕ) (update : ScorecardUpdate) (card : Card) (id : ℕ) :
    Prop where
  pending : card.status = .pendingFill
  unplaced : card.positionIds = []
  instrument : cardInstrument instrumentOf update card = some id

/-- No card has a reserve lot, and none awaits its fill in SPY while one is held. -/
def ScorecardSeparate : Prop :=
  ∀ key card, cards.lookup key = some card →
    (∀ row ∈ portfolio.rows, IsReserve spyId row → row.positionId ∉ card.positionIds) ∧
      (update.clientUsable = true → Awaits instrumentOf update card spyId →
        ∀ row ∈ portfolio.rows, ¬ IsReserve spyId row)

variable {instrumentOf update now} {lots : List Position} {card : Card}

lemma updateCard_awaiting {id : ℕ} (h : Awaits instrumentOf update card id)
    (hheld : heldLots lots id ≠ []) :
    updateCard instrumentOf update now lots card =
      markFilled { card with instrumentId := some id } (heldLots lots id) := by
  have hlive : card.live = true := by rw [Card.live, h.pending]; rfl
  have hid := h.instrument
  rw [cardInstrument] at hid
  simp only [updateCard, hlive, Bool.not_true, Bool.false_eq_true, if_false, hid, cardHeld,
    h.unplaced, ne_eq, not_true, hheld, not_false_iff, if_true, h.pending]

lemma updateCard_positionIds {positionId : ℕ}
    (h : positionId ∈ (updateCard instrumentOf update now lots card).positionIds) :
    positionId ∈ card.positionIds ∨
      ∃ id, Awaits instrumentOf update card id ∧ ∃ lot ∈ heldLots lots id, lot.positionId = positionId := by
  cases hlive : card.live with
  | false =>
    simp only [updateCard, hlive, Bool.not_false, if_true] at h
    exact Or.inl h
  | true =>
    cases hid : cardInstrument instrumentOf update card with
    | none =>
      rw [cardInstrument] at hid
      simp only [updateCard, hlive, Bool.not_true, Bool.false_eq_true, if_false, hid] at h
      exact Or.inl h
    | some id =>
      have hlocated := hid
      rw [cardInstrument] at hid
      simp only [updateCard, hlive, Bool.not_true, Bool.false_eq_true, if_false, hid] at h
      split_ifs at h with hheld hpending hstill hstale
      · obtain ⟨lot, hlot, hsame⟩ := List.mem_map.mp h
        rw [cardHeld] at hlot
        split_ifs at hlot with hplaced
        · left
          rw [← hsame]
          exact of_decide_eq_true (List.mem_filter.mp hlot).2
        · exact Or.inr ⟨id, ⟨hpending, not_not.mp hplaced, hlocated⟩, lot, hlot, hsame⟩
      · exact Or.inl h
      · exact Or.inl h
      · exact Or.inl h
      · split at h <;> exact Or.inl h

lemma updateCard_keeps {lot : Position} (hlot : lot ∈ lots) (h : lot.positionId ∈ card.positionIds) :
    lot.positionId ∈ (updateCard instrumentOf update now lots card).positionIds := by
  rw [updateCard]
  split
  · exact h
  · split
    · exact h
    · rename_i id _
      dsimp only
      have hmine : lot ∈ cardHeld lots { card with instrumentId := some id } id := by
        rw [cardHeld, if_pos (List.ne_nil_of_mem h)]
        exact List.mem_filter.mpr ⟨hlot, decide_eq_true h⟩
      rw [if_pos (List.ne_nil_of_mem hmine)]
      split
      · exact List.mem_map_of_mem hmine
      · exact h

lemma lookup_updateScorecard {key : String} {lots : List Position}
    (hlots : update.read.usable update.clientUsable = some lots) (hcard : cards.lookup key = some card) :
    (updateScorecard instrumentOf update now cards).lookup key = some card ∨
      (updateScorecard instrumentOf update now cards).lookup key =
        some (updateCard instrumentOf update now lots card) := by
  rw [updateScorecard, hlots]
  dsimp only
  split_ifs with hsave
  · right
    rw [Records.lookup_rewrite, hcard]
    rfl
  · exact Or.inl hcard

lemma lookup_updateScorecard_changed {key : String} {lots : List Position}
    (hlots : update.read.usable update.clientUsable = some lots) (hcard : cards.lookup key = some card)
    (hchanged : (updateCard instrumentOf update now lots card).status ≠ card.status) :
    (updateScorecard instrumentOf update now cards).lookup key =
      some (updateCard instrumentOf update now lots card) := by
  rw [updateScorecard, hlots]
  dsimp only
  rw [if_pos, Records.lookup_rewrite, hcard]
  · rfl
  · rw [Bool.or_eq_true]
    right
    exact List.any_eq_true.mpr ⟨⟨key, card⟩, AList.mem_lookup_iff.mp hcard, decide_eq_true hchanged⟩

lemma mem_updateScorecard {key : String} (hcard : (updateScorecard instrumentOf update now cards).lookup key =
      some card) :
    cards.lookup key = some card ∨
      ∃ old lots, cards.lookup key = some old ∧ update.read.usable update.clientUsable = some lots ∧
        card = updateCard instrumentOf update now lots old := by
  rw [updateScorecard] at hcard
  cases hlots : update.read.usable update.clientUsable with
  | none =>
    rw [hlots] at hcard
    exact Or.inl hcard
  | some lots =>
    rw [hlots] at hcard
    dsimp only at hcard
    split_ifs at hcard
    · rw [Records.lookup_rewrite] at hcard
      obtain ⟨old, hold, hnew⟩ := Option.bind_eq_some_iff.mp hcard
      exact Or.inr ⟨old, lots, hold, rfl, (Option.some.inj hnew).symm⟩
    · exact Or.inl hcard

lemma scorecard_isolated_iff :
    ScorecardIsolated spyId portfolio instrumentOf update now cards ↔
      ScorecardSeparate spyId portfolio instrumentOf update cards := by
  constructor
  · intro hisolated key card hcard
    constructor
    · intro row hrow hreserve hclaimed
      cases husable : update.clientUsable with
      | false =>
        apply hisolated key card _ row hrow hreserve hclaimed
        rw [updateScorecard]
        simp only [ScorecardUpdate.meets, husable, PortfolioRead.usable, Bool.false_eq_true, if_false]
        exact hcard
      | true =>
        have hlots : (update.meets portfolio).read.usable (update.meets portfolio).clientUsable =
            some portfolio.lots := if_pos husable
        rcases lookup_updateScorecard cards hlots hcard with hsame | hupdated
        · exact hisolated key card hsame row hrow hreserve hclaimed
        · exact hisolated key _ hupdated row hrow hreserve
            (updateCard_keeps (List.mem_map_of_mem hrow) hclaimed)
    · intro husable hawaits row hrow hreserve
      have hlots : (update.meets portfolio).read.usable (update.meets portfolio).clientUsable =
          some portfolio.lots := if_pos husable
      have hheld := portfolio.heldLots_of_mem hrow
      rw [hreserve.instrument] at hheld
      have hlater : Awaits instrumentOf (update.meets portfolio) card spyId :=
        ⟨hawaits.pending, hawaits.unplaced, hawaits.instrument⟩
      have hfilled : updateCard instrumentOf (update.meets portfolio) now portfolio.lots card =
          markFilled { card with instrumentId := some spyId } (heldLots portfolio.lots spyId) :=
        updateCard_awaiting hlater (List.ne_nil_of_mem hheld)
      apply hisolated key _ (lookup_updateScorecard_changed cards hlots hcard ?_) row hrow hreserve
      · rw [hfilled]
        exact List.mem_map_of_mem hheld
      · rw [hfilled, hawaits.pending]
        exact CardStatus.noConfusion
  · intro hseparate key card hcard row hrow hreserve hclaimed
    rcases mem_updateScorecard cards hcard with hold | ⟨old, lots, hold, hlots, rfl⟩
    · exact (hseparate key card hold).1 row hrow hreserve hclaimed
    · cases husable : update.clientUsable with
      | false =>
        simp only [ScorecardUpdate.meets, husable, PortfolioRead.usable, Bool.false_eq_true,
          if_false] at hlots
        cases hlots
      | true =>
        simp only [ScorecardUpdate.meets, husable, PortfolioRead.usable, if_true,
          Option.some.injEq] at hlots
        obtain ⟨hplaced, hfilled⟩ := hseparate key old hold
        rcases updateCard_positionIds hclaimed with hplain | ⟨id, hawaits, lot, hlot, hsame⟩
        · exact hplaced row hrow hreserve hplain
        · rw [← hlots] at hlot
          obtain ⟨found, hfound, rfl, hinstrument⟩ := Portfolio.mem_heldLots hlot
          have hrow' : found = row := portfolio.same_row hfound hrow hsame
          rw [hrow', hreserve.instrument] at hinstrument
          have hspy : Awaits instrumentOf update old spyId :=
            ⟨hawaits.pending, hawaits.unplaced, hinstrument ▸ hawaits.instrument⟩
          exact hfilled husable hspy row hrow hreserve

end Scorecard

section ExitCopy

variable (spyId : ℕ) (portfolio : Portfolio) (read : ExitRead) (now : Timestamp)
variable (cards : Records.Dict String TrackedCard) (stops : Stops)

def ExitRead.answered (closeAnswer : ℕ → Attempt) : ExitRead := { read with closeAnswer }

def ExitCopyIsolated : Prop :=
  ∀ closeAnswer, ∀ row ∈ portfolio.rows, IsReserve spyId row →
    row.positionId ∉ (copyPaperExits (read.answered closeAnswer) now cards stops).sent

/-- The trade was seen on paper, reads flat often enough and its paper exit was the strategy's. -/
structure ExitDue (read : ExitRead) (now : Timestamp) (held : List String) (card : TrackedCard) :
    Prop where
  attached : card.detached = false
  flat : card.name ∉ held
  seen : card.paperSeen = true
  unskipped : card.name ∉ read.skipSymbols.map (·.toUpper)
  reads : flatReadsToClose ≤ card.paperFlatReads + 1
  strategy : safetyFlatten read now card = false

def ExitCopySeparate : Prop :=
  read.hasReader = true → read.clientUsable = true → ∀ held, read.paper = some (true, held) →
    ∀ key card, cards.lookup key = some card → card.followed = true → ExitDue read now held card →
      ∀ row ∈ portfolio.rows, IsReserve spyId row → row.positionId ∉ card.positionIds

variable {read now} {held : List String} {card : TrackedCard}

lemma mem_closeTrade {answer : ℕ → Attempt} {positionIds : List ℕ} {positionId : ℕ}
    (h : positionId ∈ (closeTrade answer positionIds).sent) : positionId ∈ positionIds := by
  induction positionIds with
  | nil => exact h
  | cons first rest ih =>
    have hfirst : positionId ∈ (if (answer first).sent then [first] else []) → positionId ∈ first :: rest := by
      intro hsent
      split_ifs at hsent
      · rw [List.mem_singleton.mp hsent]
        exact List.mem_cons_self
      · exact absurd hsent List.not_mem_nil
    have hboth : positionId ∈ (if (answer first).sent then [first] else []) ++ (closeTrade answer rest).sent →
        positionId ∈ first :: rest := by
      intro hsent
      rcases List.mem_append.mp hsent with hone | hrest
      · exact hfirst hone
      · exact List.mem_cons_of_mem _ (ih hrest)
    rw [closeTrade] at h
    cases hresult : (answer first).result with
    | ok status =>
      rw [hresult] at h
      exact hboth h
    | error failure =>
      rw [hresult] at h
      dsimp only at h
      by_cases hgone : alreadyGone failure = true
      · rw [if_pos hgone] at h
        exact hboth h
      · rw [if_neg hgone] at h
        exact hfirst h

lemma closeTrade_accepting (positionIds : List ℕ) :
    (closeTrade accepting positionIds).sent = positionIds := by
  induction positionIds with
  | nil => rfl
  | cons first rest ih => exact congrArg (first :: ·) ih

lemma exitTrade_sent (h : ExitDue read now held card) :
    (exitTrade read now held card).sent = (closeTrade read.closeAnswer card.positionIds).sent := by
  have hattached : ¬ card.detached = true := Bool.eq_false_iff.mp h.attached
  have hfollow : ¬ (!card.paperSeen || card.name ∈ read.skipSymbols.map (·.toUpper)) = true := by
    rw [h.seen, Bool.not_true, Bool.false_or, decide_eq_true_eq]
    exact h.unskipped
  have hstrategy : ¬ safetyFlatten read now
      { card with paperFlatReads := card.paperFlatReads + 1 } = true := Bool.eq_false_iff.mp h.strategy
  rw [exitTrade, if_neg hattached, if_neg h.flat, if_neg hfollow]
  dsimp only
  rw [if_neg h.reads.not_gt, if_neg hstrategy]
  split <;> rfl

lemma exitTrade_undue (h : ¬ ExitDue read now held card) :
    (exitTrade read now held card).sent = [] ∧ (exitTrade read now held card).closed = false := by
  rw [exitTrade]
  by_cases hattached : card.detached = true
  · rw [if_pos hattached]
    exact ⟨rfl, rfl⟩
  by_cases hflat : card.name ∈ held
  · rw [if_neg hattached, if_pos hflat]
    exact ⟨rfl, rfl⟩
  by_cases hfollow : (!card.paperSeen || card.name ∈ read.skipSymbols.map (·.toUpper)) = true
  · rw [if_neg hattached, if_neg hflat, if_pos hfollow]
    exact ⟨rfl, rfl⟩
  rw [if_neg hattached, if_neg hflat, if_neg hfollow]
  dsimp only
  by_cases hreads : card.paperFlatReads + 1 < flatReadsToClose
  · rw [if_pos hreads]
    exact ⟨rfl, rfl⟩
  by_cases hstrategy : safetyFlatten read now
      { card with paperFlatReads := card.paperFlatReads + 1 } = true
  · rw [if_neg hreads, if_pos hstrategy]
    exact ⟨rfl, rfl⟩
  rw [Bool.or_eq_true, not_or, Bool.not_eq_true', Bool.not_eq_false, decide_eq_true_eq] at hfollow
  exact absurd ⟨Bool.eq_false_iff.mpr hattached, hflat, hfollow.1, hfollow.2, not_lt.mp hreads,
    Bool.eq_false_iff.mpr hstrategy⟩ h

lemma exitDue_of_sent {positionId : ℕ} (h : positionId ∈ (exitTrade read now held card).sent) :
    ExitDue read now held card ∧ positionId ∈ card.positionIds := by
  have hdue : ExitDue read now held card := by
    by_contra hundue
    rw [(exitTrade_undue hundue).1] at h
    exact List.not_mem_nil h
  rw [exitTrade_sent hdue] at h
  exact ⟨hdue, mem_closeTrade h⟩

lemma exitCopy_isolated_iff :
    ExitCopyIsolated spyId portfolio read now cards stops ↔
      ExitCopySeparate spyId portfolio read now cards := by
  constructor
  · intro hisolated hreader husable held hpaper key card hcard hfollowed hdue row hrow hreserve hclaimed
    apply hisolated accepting row hrow hreserve
    have hlater : ExitDue (read.answered accepting) now held card :=
      ⟨hdue.attached, hdue.flat, hdue.seen, hdue.unskipped, hdue.reads, hdue.strategy⟩
    have hread : (read.answered accepting).paper = some (true, held) := hpaper
    have hgoes : ¬ (!(read.answered accepting).hasReader || !(read.answered accepting).clientUsable ||
        !true) = true := by
      simp [ExitRead.answered, hreader, husable]
    rw [copyPaperExits, hread]
    dsimp only
    rw [if_neg hgoes]
    refine List.mem_flatMap.mpr ⟨⟨key, card⟩, ?_, ?_⟩
    · exact List.mem_filter.mpr ⟨AList.mem_lookup_iff.mp hcard, hfollowed⟩
    · rw [exitTrade_sent hlater]
      change row.positionId ∈ (closeTrade accepting card.positionIds).sent
      rw [closeTrade_accepting]
      exact hclaimed
  · intro hseparate closeAnswer row hrow hreserve hsent
    rw [copyPaperExits] at hsent
    cases hpaper : read.paper with
    | none =>
      simp only [ExitRead.answered, hpaper] at hsent
      exact absurd hsent List.not_mem_nil
    | some paper =>
      obtain ⟨marketOpen, held⟩ := paper
      simp only [ExitRead.answered, hpaper] at hsent
      split_ifs at hsent with hgoes
      · exact absurd hsent List.not_mem_nil
      · obtain ⟨⟨key, card⟩, hentry, hclose⟩ := List.mem_flatMap.mp hsent
        obtain ⟨hmem, hfollowed⟩ := List.mem_filter.mp hentry
        obtain ⟨hdue, hclaimed⟩ := exitDue_of_sent hclose
        rw [Bool.or_eq_true, Bool.or_eq_true, not_or, not_or, Bool.not_eq_true', Bool.not_eq_true',
          Bool.not_eq_true', Bool.not_eq_false, Bool.not_eq_false, Bool.not_eq_false] at hgoes
        obtain ⟨⟨hreader, husable⟩, hopen⟩ := hgoes
        rw [hopen] at hpaper
        have hnow : ExitDue read now held card :=
          ⟨hdue.attached, hdue.flat, hdue.seen, hdue.unskipped, hdue.reads, hdue.strategy⟩
        exact hseparate hreader husable held hpaper key card (AList.mem_lookup_iff.mpr hmem) hfollowed
          hnow row hrow hreserve hclaimed

end ExitCopy

section ReserveSale

variable (spyId : ℕ) (portfolio : Portfolio) (rate needUnits : ℚ)

def soldIds (run : SaleRun) : List ℕ := run.sold.map (·.positionId)

def SaleIsolated : Prop :=
  ∀ closeAnswer, ∀ row ∈ portfolio.rows, row.copy ≠ none →
    row.positionId ∉ soldIds (sellLots rate closeAnswer needUnits (sortedLots portfolio.rows spyId))

def unitsOfRows (rows : List ReserveRow) : ℚ := (rows.map rowUnits).sum

/-- The lots that are sold before a mirrored one cover what is needed. -/
def SaleSeparate : Prop :=
  ∀ before row after, sortedLots portfolio.rows spyId = before ++ row :: after → row.copy ≠ none →
    0 < rowUnits row → needUnits ≤ unitsOfRows before

variable {rate needUnits} {row : ReserveRow}

lemma unitsOfRows_cons (first : ReserveRow) (rest : List ReserveRow) :
    unitsOfRows (first :: rest) = rowUnits first + unitsOfRows rest := by
  rw [unitsOfRows, List.map_cons, List.sum_cons, unitsOfRows]

lemma unitsOfRows_nonneg {rows : List ReserveRow} (h : ∀ row ∈ rows, 0 < rowUnits row) :
    0 ≤ unitsOfRows rows := by
  apply List.sum_nonneg
  intro units hunits
  obtain ⟨row, hrow, rfl⟩ := List.mem_map.mp hunits
  exact (h row hrow).le

lemma lotToSell_id (rate needUnits : ℚ) (row : ReserveRow) :
    (lotToSell rate needUnits row).positionId = row.positionId := by
  rw [lotToSell]
  split_ifs <;> rfl

lemma lotToSell_whole {rate needUnits : ℚ} {row : ReserveRow} (h : rowUnits row ≤ needUnits) :
    (lotToSell rate needUnits row).whole = true := by
  rw [lotToSell, if_pos]
  rw [min_eq_left h, sub_self, zero_mul]
  norm_num [minLeftUsd]

lemma sold_of_short {before after : List ReserveRow} (hbefore : ∀ other ∈ before, 0 < rowUnits other)
    (hrow : 0 < rowUnits row) (hshort : unitsOfRows before < needUnits) :
    row.positionId ∈ soldIds (sellLots rate accepting needUnits (before ++ row :: after)) := by
  induction before generalizing needUnits with
  | nil =>
    have hgoes : ¬ (needUnits ≤ 0 ∨ rowUnits row ≤ 0) := by
      rw [not_or, not_le, not_le]
      exact ⟨hshort, hrow⟩
    rw [List.nil_append, sellLots, if_neg hgoes]
    exact List.mem_cons.mpr (Or.inl (lotToSell_id _ _ _).symm)
  | cons first rest ih =>
    have hrest : ∀ other ∈ rest, 0 < rowUnits other :=
      fun other hother => hbefore other (List.mem_cons_of_mem _ hother)
    have hfirst := hbefore first List.mem_cons_self
    have hlater := unitsOfRows_nonneg hrest
    rw [unitsOfRows_cons] at hshort
    have hgoes : ¬ (needUnits ≤ 0 ∨ rowUnits first ≤ 0) := by
      rw [not_or, not_le, not_le]
      exact ⟨by linarith, hfirst⟩
    rw [List.cons_append, sellLots, if_neg hgoes]
    simp only [accepting, Attempt.result, request]
    rw [lotToSell_whole (by linarith), if_pos rfl]
    apply List.mem_cons_of_mem
    exact ih hrest (by linarith)

lemma short_of_sold {closeAnswer : ℕ → Attempt} {lots : List ReserveRow} {positionId : ℕ}
    (h : positionId ∈ soldIds (sellLots rate closeAnswer needUnits lots)) :
    ∃ before row after, lots = before ++ row :: after ∧ row.positionId = positionId ∧
      0 < rowUnits row ∧ (∀ other ∈ before, 0 < rowUnits other) ∧ unitsOfRows before < needUnits := by
  induction lots generalizing needUnits with
  | nil => exact absurd h List.not_mem_nil
  | cons first rest ih =>
    rw [sellLots] at h
    by_cases hstop : needUnits ≤ 0 ∨ rowUnits first ≤ 0
    · rw [if_pos hstop] at h
      exact absurd h List.not_mem_nil
    · rw [if_neg hstop] at h
      rw [not_or, not_le, not_le] at hstop
      cases hresult : (closeAnswer first.positionId).result with
      | error failure =>
        rw [hresult] at h
        exact absurd h List.not_mem_nil
      | ok status =>
        rw [hresult] at h
        rcases List.mem_cons.mp h with hfirst | hlater
        · refine ⟨[], first, rest, rfl, ?_, hstop.2, ?_, hstop.1⟩
          · exact (lotToSell_id rate needUnits first).symm.trans hfirst.symm
          · exact fun other hother => absurd hother List.not_mem_nil
        · obtain ⟨before, row, after, rfl, hid, hrow, hbefore, hshort⟩ := ih hlater
          have hunits := unitsOfRows_nonneg hbefore
          refine ⟨first :: before, row, after, rfl, hid, hrow, ?_, ?_⟩
          · exact List.forall_mem_cons.mpr ⟨hstop.2, hbefore⟩
          · rw [unitsOfRows_cons]
            rcases le_total (rowUnits first) needUnits with hwhole | hpart
            · rw [lotToSell_whole hwhole, if_pos rfl] at hshort
              linarith
            · rw [min_eq_right hpart] at hshort
              split_ifs at hshort <;> linarith

lemma sortedLots_ordered (rows : List ReserveRow) :
    (sortedLots rows spyId).Pairwise fun first second => rowUnits second ≤ rowUnits first := by
  have htotal : Std.Total fun first second : ReserveRow => rowUnits second ≤ rowUnits first :=
    ⟨fun first second => le_total _ _⟩
  have htrans : IsTrans ReserveRow fun first second => rowUnits second ≤ rowUnits first :=
    ⟨fun first second third hfirst hsecond => hsecond.trans hfirst⟩
  exact List.pairwise_insertionSort _ _

lemma sale_isolated_iff :
    SaleIsolated spyId portfolio rate needUnits ↔ SaleSeparate spyId portfolio needUnits := by
  constructor
  · intro hisolated before row after hsplit hmirrored hunits
    by_contra hshort
    rw [not_le] at hshort
    have hordered := sortedLots_ordered spyId portfolio.rows
    rw [hsplit, List.pairwise_append] at hordered
    have hbefore : ∀ other ∈ before, 0 < rowUnits other :=
      fun other hother => hunits.trans_le (hordered.2.2 other hother row List.mem_cons_self)
    have hmem : row ∈ sortedLots portfolio.rows spyId := by
      rw [hsplit]
      exact List.mem_append_right _ List.mem_cons_self
    have hrow : row ∈ portfolio.rows := List.mem_of_mem_filter ((List.mem_insertionSort _).mp hmem)
    apply hisolated accepting row hrow hmirrored
    rw [hsplit]
    exact sold_of_short hbefore hunits hshort
  · intro hseparate closeAnswer row hrow hmirrored hsold
    obtain ⟨before, found, after, hsplit, hid, hunits, -, hshort⟩ := short_of_sold hsold
    have hmem : found ∈ sortedLots portfolio.rows spyId := by
      rw [hsplit]
      exact List.mem_append_right _ List.mem_cons_self
    have hfound : found ∈ portfolio.rows := List.mem_of_mem_filter ((List.mem_insertionSort _).mp hmem)
    have hsame : found = row := portfolio.same_row hfound hrow hid
    rw [hsame] at hsplit hunits
    exact (hseparate before row after hsplit hmirrored hunits).not_gt hshort

end ReserveSale

structure SpyPass where
  spyId : ℕ
  portfolio : Portfolio
  instrumentOf : String → ℕ
  now : Timestamp
  stops : Stops
  cards : Records.Dict String TrackedCard
  check : StopCheck
  update : ScorecardUpdate
  exit : ExitRead
  short : ℚ
  rate : ℚ

namespace SpyPass

variable (pass : SpyPass)

def plainCards : Cards := Records.rewrite (fun _ card => some card.toCard) pass.cards

/-- Whatever eToro answers, no reserve lot is closed or claimed for the mirrored trade, and no lot of a
mirrored trade is sold as reserve. -/
structure Isolated : Prop where
  backupStop : BackupStopIsolated pass.spyId pass.portfolio pass.instrumentOf pass.check pass.now pass.stops
  exitCopy : ExitCopyIsolated pass.spyId pass.portfolio pass.exit pass.now pass.cards pass.stops
  scorecard : ScorecardIsolated pass.spyId pass.portfolio pass.instrumentOf pass.update pass.now
    pass.plainCards
  sale : SaleIsolated pass.spyId pass.portfolio pass.rate (neededUnits pass.short pass.rate)

structure Separate : Prop where
  backupStop : BackupStopSeparate pass.spyId pass.portfolio pass.instrumentOf pass.check pass.stops
  exitCopy : ExitCopySeparate pass.spyId pass.portfolio pass.exit pass.now pass.cards
  scorecard : ScorecardSeparate pass.spyId pass.portfolio pass.instrumentOf pass.update pass.plainCards
  sale : SaleSeparate pass.spyId pass.portfolio (neededUnits pass.short pass.rate)

theorem reserve_isolated_iff : pass.Isolated ↔ pass.Separate := by
  constructor
  · intro h
    exact
      { backupStop := (backupStop_isolated_iff _ _ _ _ _ _).mp h.backupStop
        exitCopy := (exitCopy_isolated_iff _ _ _ _).mp h.exitCopy
        scorecard := (scorecard_isolated_iff _ _ _).mp h.scorecard
        sale := (sale_isolated_iff _ _).mp h.sale }
  · intro h
    exact
      { backupStop := (backupStop_isolated_iff _ _ _ _ _ _).mpr h.backupStop
        exitCopy := (exitCopy_isolated_iff _ _ _ _).mpr h.exitCopy
        scorecard := (scorecard_isolated_iff _ _ _).mpr h.scorecard
        sale := (sale_isolated_iff _ _).mpr h.sale }

-- A top-up bought next to a mirrored trade, and the trade's stop is reached.
def mirroredLot : ReserveRow :=
  { positionId := 1, instrumentId := 5, symbol := "SPY", amount := some 1200, units := some 2,
    copy := some 0 }

def reserveLot : ReserveRow :=
  { positionId := 2, instrumentId := 5, symbol := "SPY", amount := some 6000, units := some 10 }

def mixedPass : SpyPass where
  spyId := 5
  portfolio := { rows := [mirroredLot, reserveLot], distinct := by decide }
  instrumentOf := fun _ => 5
  now := midnight 20000
  stops := AList.insert "SPY" { stop := 580, recordedAt := midnight 19990, seen := true } ∅
  cards := ∅
  check := { read := .failed, freshRate := fun _ => some 575 }
  update := { read := .failed }
  exit := { paper := none }
  short := 0
  rate := 575

theorem backup_stop_closes_reserve : ¬ ∀ pass : SpyPass, pass.Isolated := by
  intro h
  apply (h mixedPass).backupStop accepting reserveLot
  · exact List.mem_cons_of_mem _ List.mem_cons_self
  · exact ⟨rfl, rfl, rfl⟩
  · decide +kernel

end SpyPass

end AlgoTrader.Broker.Etoro
