import AlgoTrader.Automation.TimedExits

/-! What the max-hold exit (``app/automation/max_hold_exit.py``) leaves of the brackets at the broker: the legs
are cancelled before the shares can be sold, and any call may raise. -/

namespace AlgoTrader.Automation.MaxHoldBracket

open AlgoTrader.Utils.Time TimedExits

/-- A live protective order at the broker; ``stop`` tells the stop loss from the target. -/
structure BrokerOrder where
  id : String
  symbol : String
  stop : Bool
  deriving DecidableEq

structure Broker where
  positions : List String
  orders : List BrokerOrder
  deriving DecidableEq

inductive CancelReply
  | accepted
  | nothingToCancel
  | raised
  deriving DecidableEq

-- How the broker takes the requests of one tick, and whether the log after a close raises.
structure Replies where
  cancel : String → CancelReply := fun _ => .accepted
  close : String → CloseAnswer := fun _ => .accepted
  logRaises : String → Bool := fun _ => false

def openLegs (e : TimedExits.Execution) : List Leg :=
  e.legs.filter fun leg => openLegStatuses.contains leg.status.toLower

section Exit

variable (r : Replies)

def cancelOrder (b : Broker) (id : String) : Broker :=
  { b with orders := b.orders.filter fun order => order.id ≠ id }

def cancelLegs (b : Broker) : List Leg → Broker × Bool
  | [] => (b, true)
  | leg :: rest =>
      match r.cancel leg.brokerOrderId with
      | .raised => (b, false)
      | .nothingToCancel => cancelLegs b rest
      | .accepted => cancelLegs (cancelOrder b leg.brokerOrderId) rest

def closePosition (b : Broker) (symbol : String) : Broker :=
  if r.close symbol = .accepted then { b with positions := b.positions.filter (· ≠ symbol) } else b

def closeOne (b : Broker) (e : TimedExits.Execution) : Broker × Bool :=
  let (b', passed) := cancelLegs r b (openLegs e)
  if passed then (closePosition r b' e.ticker, !r.logRaises e.ticker) else (b', false)

def closeDue (b : Broker) : List TimedExits.Execution → Broker
  | [] => b
  | e :: rest =>
      let (b', passed) := closeOne r b e
      if passed then closeDue b' rest else b'

def closeHeldPastMaxHold (newYorkDay : Timestamp → ℤ) (tick : Tick) (executions : List TimedExits.Execution)
    (b : Broker) :
    Broker := closeDue r b (dueEntries newYorkDay tick executions)

end Exit

def hasStop (b : Broker) (symbol : String) : Prop := ∃ order ∈ b.orders, order.symbol = symbol ∧ order.stop = true

def StopsKept (b b' : Broker) (due : List TimedExits.Execution) : Prop :=
  ∀ e ∈ due, e.ticker ∈ b.positions → hasStop b e.ticker → e.ticker ∈ b'.positions → hasStop b' e.ticker

section Condition

variable (r : Replies)

def acceptedCancels : List Leg → List String
  | [] => []
  | leg :: rest =>
      match r.cancel leg.brokerOrderId with
      | .raised => []
      | .nothingToCancel => acceptedCancels rest
      | .accepted => leg.brokerOrderId :: acceptedCancels rest

def cancelsPass (e : TimedExits.Execution) : Bool :=
  (openLegs e).all fun leg => r.cancel leg.brokerOrderId ≠ .raised

/-- The entries the loop comes to: it ends at one where a cancel or the log raises. -/
def reached : List TimedExits.Execution → List TimedExits.Execution
  | [] => []
  | e :: rest => e :: if cancelsPass r e && !r.logRaises e.ticker then reached rest else []

def goesThrough (e : TimedExits.Execution) : Bool := cancelsPass r e ∧ r.close e.ticker = .accepted

def Spared (b : Broker) (due : List TimedExits.Execution) (e : TimedExits.Execution) : Prop :=
  (e ∈ reached r due ∧ goesThrough r e = true) ∨
    ∃ order ∈ b.orders, order.symbol = e.ticker ∧ order.stop = true ∧
      ∀ other ∈ reached r due, order.id ∉ acceptedCancels r (openLegs other)

end Condition

section Effect

variable {r : Replies} {b : Broker} {e : TimedExits.Execution} {due : List TimedExits.Execution}

def without (b : Broker) (ids : List String) : Broker :=
  { b with orders := b.orders.filter fun order => order.id ∉ ids }

lemma without_nil : without b [] = b := by simp [without]

lemma without_without (ids ids' : List String) : without (without b ids) ids' = without b (ids ++ ids') := by
  simp [without, List.filter_filter, Bool.and_comm]

lemma cancelOrder_eq (id : String) : cancelOrder b id = without b [id] := by simp [cancelOrder, without]

lemma cancelLegs_eq (legs : List Leg) : cancelLegs r b legs =
    (without b (acceptedCancels r legs), legs.all fun leg => r.cancel leg.brokerOrderId ≠ .raised) := by
  induction legs generalizing b with
  | nil => simp [cancelLegs, acceptedCancels, without_nil]
  | cons leg rest ih =>
    rw [cancelLegs, acceptedCancels, List.all_cons]
    cases hreply : r.cancel leg.brokerOrderId with
    | raised => simp [without_nil]
    | nothingToCancel => simp [ih]
    | accepted => simp [ih, cancelOrder_eq, without_without]

lemma closeOne_eq : closeOne r b e =
    (if cancelsPass r e then closePosition r (without b (acceptedCancels r (openLegs e))) e.ticker
      else without b (acceptedCancels r (openLegs e)), cancelsPass r e && !r.logRaises e.ticker) := by
  rw [closeOne, cancelLegs_eq]
  dsimp only
  rw [← cancelsPass]
  cases cancelsPass r e <;> simp

lemma closePosition_orders : (closePosition r b e.ticker).orders = b.orders := by
  rw [closePosition]
  split_ifs <;> rfl

lemma mem_closePosition {symbol : String} : symbol ∈ (closePosition r b e.ticker).positions ↔
    symbol ∈ b.positions ∧ ¬ (symbol = e.ticker ∧ r.close e.ticker = .accepted) := by
  rw [closePosition]
  split_ifs with h <;> simp [h]

lemma closeOne_orders : (closeOne r b e).1.orders = (without b (acceptedCancels r (openLegs e))).orders := by
  rw [closeOne_eq]
  dsimp only
  split_ifs
  · exact closePosition_orders
  · rfl

lemma mem_closeOne {symbol : String} : symbol ∈ (closeOne r b e).1.positions ↔
    symbol ∈ b.positions ∧ ¬ (symbol = e.ticker ∧ goesThrough r e = true) := by
  rw [closeOne_eq, goesThrough]
  dsimp only
  split_ifs with hpass
  · simp [mem_closePosition, hpass, without]
  · simp [hpass, without]

lemma closeDue_cons (rest : List TimedExits.Execution) : closeDue r b (e :: rest) =
    if cancelsPass r e && !r.logRaises e.ticker then closeDue r (closeOne r b e).1 rest else (closeOne r b e).1 := by
  have hpassed : (closeOne r b e).2 = (cancelsPass r e && !r.logRaises e.ticker) := by rw [closeOne_eq]
  rw [closeDue, ← hpassed]

lemma mem_orders_closeDue {order : BrokerOrder} : order ∈ (closeDue r b due).orders ↔
    order ∈ b.orders ∧ ∀ e ∈ reached r due, order.id ∉ acceptedCancels r (openLegs e) := by
  induction due generalizing b with
  | nil => simp [closeDue, reached]
  | cons e rest ih =>
    have hfirst : order ∈ (closeOne r b e).1.orders ↔ order ∈ b.orders ∧ order.id ∉ acceptedCancels r (openLegs e) := by
      rw [closeOne_orders]
      simp [without]
    rw [closeDue_cons, reached]
    split_ifs
    · rw [ih, hfirst, List.forall_mem_cons, and_assoc]
    · rw [hfirst, List.forall_mem_singleton]

lemma mem_positions_closeDue {symbol : String} : symbol ∈ (closeDue r b due).positions ↔
    symbol ∈ b.positions ∧ ∀ e ∈ reached r due, ¬ (symbol = e.ticker ∧ goesThrough r e = true) := by
  induction due generalizing b with
  | nil => simp [closeDue, reached]
  | cons e rest ih =>
    rw [closeDue_cons, reached]
    split_ifs
    · rw [ih, mem_closeOne, List.forall_mem_cons, and_assoc]
    · rw [mem_closeOne, List.forall_mem_singleton]

lemma mem_of_reached {other : TimedExits.Execution} (h : other ∈ reached r due) : other ∈ due := by
  induction due with
  | nil => exact h
  | cons e rest ih =>
    rw [reached] at h
    rcases List.mem_cons.mp h with rfl | hlater
    · exact List.mem_cons_self
    · split_ifs at hlater
      · exact List.mem_cons_of_mem _ (ih hlater)
      · cases hlater

lemma hasStop_closeDue {symbol : String} : hasStop (closeDue r b due) symbol ↔
    ∃ order ∈ b.orders, order.symbol = symbol ∧ order.stop = true ∧
      ∀ e ∈ reached r due, order.id ∉ acceptedCancels r (openLegs e) := by
  simp only [hasStop, mem_orders_closeDue]
  constructor
  · rintro ⟨order, ⟨horder, hkept⟩, hsymbol, hstop⟩
    exact ⟨order, horder, hsymbol, hstop, hkept⟩
  · rintro ⟨order, horder, hsymbol, hstop, hkept⟩
    exact ⟨order, ⟨horder, hkept⟩, hsymbol, hstop⟩

lemma due_unique {newYorkDay : Timestamp → ℤ} {tick : Tick} {executions : List TimedExits.Execution}
    {e other : TimedExits.Execution}
    (h : e ∈ dueEntries newYorkDay tick executions) (hother : other ∈ dueEntries newYorkDay tick executions)
    (hticker : e.ticker = other.ticker) : e = other := by
  have hnewest {x : TimedExits.Execution} (hx : x ∈ dueEntries newYorkDay tick executions) :
      x ∈ openEntries executions := by
    rw [dueEntries] at hx
    split_ifs at hx
    · exact (List.mem_filter.mp hx).1
    · cases hx
  have hfirst := mem_newestBySymbol.mp (hnewest h)
  have hsecond := mem_newestBySymbol.mp (hnewest hother)
  rw [hticker] at hfirst
  exact Option.some.inj (hfirst.symm.trans hsecond)

theorem stops_kept_iff (r : Replies) (newYorkDay : Timestamp → ℤ) (tick : Tick)
    (executions : List TimedExits.Execution) (b : Broker) :
    StopsKept b (closeHeldPastMaxHold r newYorkDay tick executions b) (dueEntries newYorkDay tick executions) ↔
      ∀ e ∈ dueEntries newYorkDay tick executions, e.ticker ∈ b.positions → hasStop b e.ticker →
        Spared r b (dueEntries newYorkDay tick executions) e := by
  refine forall₂_congr fun e hdue => imp_congr_right fun hopen => imp_congr_right fun _ => ?_
  rw [closeHeldPastMaxHold, mem_positions_closeDue, hasStop_closeDue, Spared]
  constructor
  · intro hkept
    by_cases hclosed : e ∈ reached r (dueEntries newYorkDay tick executions) ∧ goesThrough r e = true
    · exact .inl hclosed
    · refine .inr (hkept ⟨hopen, fun other hother hsold => hclosed ?_⟩)
      obtain rfl := due_unique hdue (mem_of_reached hother) hsold.1
      exact ⟨hother, hsold.2⟩
  · rintro (⟨hreached, hthrough⟩ | hstop)
    · exact fun hstill => absurd ⟨rfl, hthrough⟩ (hstill.2 e hreached)
    · exact fun _ => hstop

end Effect

def overnight : TimedExits.Execution :=
  { id := "exe_1"
    symbol := "SPY"
    timeframe := "1d"
    filledQty := 1
    legs := [⟨"take", "new"⟩, ⟨"stop", "held"⟩]
    createdAt := 0
    maxHoldBars := some 1 }

def nextOpen : Tick := { now := microsPerDay, clock := some ⟨true, none⟩, positions := some ["SPY"] }

def bracketed : Broker := ⟨["SPY"], [⟨"take", "SPY", false⟩, ⟨"stop", "SPY", true⟩]⟩

theorem stop_lost : ¬ StopsKept bracketed
    (closeHeldPastMaxHold { close := fun _ => .failed } (· / microsPerDay) nextOpen [overnight] bracketed)
    (dueEntries (· / microsPerDay) nextOpen [overnight]) := by
  have hafter : closeHeldPastMaxHold { close := fun _ => .failed } (· / microsPerDay) nextOpen [overnight] bracketed =
      ⟨["SPY"], []⟩ := by decide +kernel
  intro hkept
  obtain ⟨order, horder, _⟩ := hafter ▸ hkept overnight (by decide +kernel) (by decide +kernel)
    ⟨⟨"stop", "SPY", true⟩, by decide, by decide +kernel, rfl⟩ (by rw [hafter]; decide +kernel)
  cases horder

end AlgoTrader.Automation.MaxHoldBracket
