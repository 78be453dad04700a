import AlgoTrader.Broker.EtoroLiveBackupStop
import AlgoTrader.Lib.Rounding

/-! The live scorecard (``app/broker/etoro_live_scorecard.py``): each accepted copy has a card that
follows it from submission to fill to close. The prices, returns and verdicts on a card, and the
refinement of booked closes, are left out. -/

namespace AlgoTrader.Broker.Etoro

open AlgoTrader.Utils.Time

abbrev Cards := Records.Dict String Card

def notFilledAfterHours : ℤ := 24

def Card.live (card : Card) : Bool := card.status == .pendingFill || card.status == .opened

def recordEntry (cards : Cards) (key : String) (symbol : String) (amount : ℚ) (leverage : ℕ)
    (now : Timestamp) : Cards :=
  if key = "" then cards
  else cards.insert key
    { symbol := symbol.toUpper
      openedAt := now
      amountUsd := positive (some amount)
      notionalUsd := positive (some (Rounding.toDigits 2 (amount * leverage))) }

/-- What one update meets. The close rate of a trade that is gone is the bot's own, eToro's, or a
fresh one; ``refinable`` says that a booked close is due for another look. -/
structure ScorecardUpdate where
  clientUsable : Bool := true
  read : PortfolioRead
  lookupFails : String → Bool := fun _ => false
  closeRate : String → Option ℚ := fun _ => none
  refinable : Bool := false

def totalUnits (lots : List Position) : ℚ :=
  (lots.map fun lot => (positive lot.units).getD 0).sum

def markFilled (card : Card) (held : List Position) : Card :=
  { card with
    status := .opened
    positionIds := held.map (·.positionId)
    units := if totalUnits held = 0 then none else some (Rounding.toDigits 6 (totalUnits held)) }

section Update

variable (instrumentOf : String → ℕ) (update : ScorecardUpdate) (now : Timestamp)
variable (lots : List Position)

-- Once filled, a trade follows its own positions.
def cardHeld (card : Card) (instrumentId : ℕ) : List Position :=
  if card.positionIds ≠ [] then lots.filter (·.positionId ∈ card.positionIds)
  else heldLots lots instrumentId

def updateCard (card : Card) : Card :=
  if !card.live then card
  else
    match (truthyId card.instrumentId).or
      (if update.lookupFails card.symbol then none else truthyId (instrumentOf card.symbol)) with
    | none => card
    | some id =>
        let card := { card with instrumentId := some id }
        let held := cardHeld lots card id
        if held ≠ [] then
          if card.status = .pendingFill then markFilled card held else card
        else if card.status = .pendingFill then
          if card.openedAt < now - notFilledAfterHours * 60 * microsPerMinute then
            { card with status := .notFilled }
          else card
        else
          match update.closeRate card.symbol with
          | none => card
          | some _ => { card with status := .closed }

-- The cards are saved only when the status of one changed or a booked close was looked at.
def updateScorecard (cards : Cards) : Cards :=
  match update.read.usable update.clientUsable with
  | none => cards
  | some lots =>
      let updated := updateCard instrumentOf update now lots
      if update.refinable || cards.entries.any fun entry => (updated entry.2).status ≠ entry.2.status
      then Records.rewrite (fun _ card => some (updated card)) cards
      else cards

end Update

end AlgoTrader.Broker.Etoro
