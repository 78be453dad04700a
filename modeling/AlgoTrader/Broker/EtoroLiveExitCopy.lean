import AlgoTrader.Broker.EtoroLiveScorecard

/-! The exit copy (``app/broker/etoro_live_exit_copy.py``): an open mirrored trade is closed once the
paper account is flat in its symbol. The price and the messages of a close are left out. -/

namespace AlgoTrader.Broker.Etoro

open AlgoTrader.Utils.Time

def flatReadsToClose : ℕ := 2
def goneMarkers : List String := ["not found", "does not exist", "already closed"]
def safetyWindowHours : ℤ := 24

structure TrackedCard extends Card where
  detached : Bool := false
  paperSeen : Bool := false
  paperFlatReads : ℕ := 0

structure SafetyMarker where
  allAt : Option Timestamp := none
  symbols : Records.Dict String Timestamp := ∅

/-- What one pass meets. A paper read that raises is ``none``; an unreadable marker too. -/
structure ExitRead where
  hasReader : Bool := true
  clientUsable : Bool := true
  paper : Option (Bool × List String)
  skipSymbols : List String := []
  killSwitch : Bool := false
  marker : Option SafetyMarker := some {}
  closeAnswer : ℕ → Attempt := fun _ => .posted (.accepted (some 1))

section Pass

variable (read : ExitRead) (now : Timestamp)

def TrackedCard.name (card : TrackedCard) : String := card.symbol.toUpper

def TrackedCard.followed (card : TrackedCard) : Bool :=
  card.status == .opened && card.positionIds ≠ []

def safetyFlatten (card : TrackedCard) : Bool :=
  read.killSwitch ||
    match read.marker with
    | none => true
    | some marker =>
        (marker.allAt.toList ++ (marker.symbols.lookup card.name).toList).any fun at' =>
          now - safetyWindowHours * 60 * microsPerMinute < at' && card.openedAt ≤ at'

def alreadyGone (failure : Failure) : Bool :=
  goneMarkers.any fun marker => Text.containsText marker failure.text.toLower

structure TradeClose where
  sent : List ℕ := []
  closed : Bool := true

-- A close that fails for another reason than a position that is gone leaves the rest for the next pass.
def closeTrade (answer : ℕ → Attempt) : List ℕ → TradeClose
  | [] => {}
  | positionId :: rest =>
      let attempt := answer positionId
      let sent := if attempt.sent then [positionId] else []
      let continued : TradeClose :=
        { closeTrade answer rest with sent := sent ++ (closeTrade answer rest).sent }
      match attempt.result with
      | .ok _ => continued
      | .error failure => if alreadyGone failure then continued else { sent, closed := false }

structure ExitOutcome where
  card : TrackedCard
  sent : List ℕ := []
  closed : Bool := false

def exitTrade (held : List String) (card : TrackedCard) : ExitOutcome :=
  if card.detached then { card }
  else if card.name ∈ held then { card := { card with paperSeen := true, paperFlatReads := 0 } }
  else if !card.paperSeen || card.name ∈ read.skipSymbols.map (·.toUpper) then { card }
  else
    let card := { card with paperFlatReads := card.paperFlatReads + 1 }
    if card.paperFlatReads < flatReadsToClose then { card }
    else if safetyFlatten read now card then { card := { card with detached := true } }
    else
      let close := closeTrade read.closeAnswer card.positionIds
      if close.closed then { card := { card with status := .closed }, sent := close.sent, closed := true }
      else { card, sent := close.sent }

structure ExitPass where
  cards : Records.Dict String TrackedCard
  stops : Stops
  sent : List ℕ := []

def copyPaperExits (cards : Records.Dict String TrackedCard) (stops : Stops) : ExitPass :=
  match read.paper with
  | none => { cards, stops }
  | some (marketOpen, held) =>
      if !read.hasReader || !read.clientUsable || !marketOpen then { cards, stops }
      else
        let live := cards.entries.filter (·.2.followed)
        let outcome := exitTrade read now held
        { cards := Records.rewrite (fun _ card =>
            some (if card.followed then (outcome card).card else card)) cards
          stops := (live.filter fun entry => (outcome entry.2).closed).foldl
            (fun stops entry => forgetStop stops entry.2.name) stops
          sent := live.flatMap fun entry => (outcome entry.2).sent }

end Pass

end AlgoTrader.Broker.Etoro
