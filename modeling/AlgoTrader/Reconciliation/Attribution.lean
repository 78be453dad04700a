import AlgoTrader.Automation.Reconciliation
import AlgoTrader.Lib.Rounding
import Mathlib.Data.List.MinMax
import Mathlib.Data.String.Basic

/-! Which exit fills a sweep attributes to which execution (``app/automation/reconciliation.py``):
the filled bracket leg, or else the earliest standalone sell. -/

namespace AlgoTrader.Reconciliation

open Automation

structure Leg where
  brokerOrderId : String
  status : String := ""
  filledQty : ℚ := 0
  filledAvgPrice : ℚ := 0
  otherFields : String := ""
  deriving DecidableEq

structure Payload extends Leg where
  symbol : String
  side : String
  filledAt : String := ""
  legs : List Leg := []
  deriving DecidableEq

def brokerOrders (orders : List Payload) : List Leg :=
  orders.flatMap fun order => order.toLeg :: order.legs

/-- The recorded executions and the broker's listing of orders, legs nested under their orders. -/
structure Book where
  executions : List Execution
  orders : List Payload
  execution_ids_nodup : (executions.map (·.id)).Nodup
  ids_ne : ∀ order ∈ brokerOrders orders, order.brokerOrderId ≠ ""
  ids_nodup : ((brokerOrders orders).map (·.brokerOrderId)).Nodup
  filled_nonneg : ∀ order ∈ brokerOrders orders, 0 ≤ order.filledQty

structure Entry where
  execution : Execution
  payload : Payload

structure Row extends Entry where
  realizedPnl : ℚ
  exitFill : Option Payload

section Fills

variable (payload : Payload)

def exitQty (exit : Leg) : ℚ := min payload.filledQty exit.filledQty

def exitPnl (exit : Leg) : ℚ :=
  Rounding.toDigits 2 ((exit.filledAvgPrice - payload.filledAvgPrice) * exitQty payload exit)

def bracketExit : Option Leg :=
  if payload.filledAvgPrice ≤ 0 ∨ payload.filledQty ≤ 0 then none
  else
    payload.legs.find? fun leg =>
      leg.status.toLower = "filled" ∧ 0 < leg.filledAvgPrice ∧ 0 < leg.filledQty

def realizedPnl : ℚ :=
  match bracketExit payload with
  | none => 0
  | some leg => exitPnl payload leg

def standaloneExit (exitOrders : List Payload) : Option Payload :=
  if exitOrders = [] ∨ payload.filledAt = "" ∨ payload.filledQty ≤ 0 then none
  else if payload.side.toLower ≠ "buy" ∨ payload.filledAvgPrice ≤ 0 then none
  else
    (exitOrders.filter fun item =>
      payload.filledAt < item.filledAt ∧ 0 < item.filledAvgPrice).argmin (·.filledAt)

end Fills

def exitFill (payload : Payload) (exitOrders : List Payload) : Option Payload :=
  if realizedPnl payload ≠ 0 then none else standaloneExit payload exitOrders

def updateExecution (entry : Entry) (exitOrders : List Payload) : Row :=
  { entry with
    realizedPnl :=
      match exitFill entry.payload exitOrders with
      | none => realizedPnl entry.payload
      | some exit => exitPnl entry.payload exit.toLeg
    exitFill := exitFill entry.payload exitOrders }

section Book

variable (book : Book)

def executionByOrder (brokerOrderId : String) : Option Execution :=
  (book.executions.filter (·.brokerOrderId ≠ "")).reverse.find? (·.brokerOrderId = brokerOrderId)

def isStandaloneExit (order : Payload) : Bool :=
  (executionByOrder book order.brokerOrderId).isNone = true ∧ order.side.toLower = "sell" ∧
    order.status.toLower = "filled" ∧ order.legs = [] ∧ order.filledAt ≠ ""

def standaloneExits (symbol : String) : List Payload :=
  book.orders.filter fun order => isStandaloneExit book order ∧ order.symbol.toUpper = symbol

def entries : List Entry :=
  book.orders.filterMap fun order =>
    (executionByOrder book order.brokerOrderId).map fun execution => ⟨execution, order⟩

def row (entry : Entry) : Row :=
  updateExecution entry (standaloneExits book entry.payload.symbol.toUpper)

def reconcile : List Row := (entries book).map (row book)

end Book

def Row.exits (row : Row) : List Leg :=
  (bracketExit row.payload).toList ++ (row.exitFill.map (·.toLeg)).toList

def Row.exitQtyFrom (row : Row) (order : Leg) : ℚ :=
  ((row.exits.filter (·.brokerOrderId = order.brokerOrderId)).map (exitQty row.payload)).sum

def attributedQty (book : Book) (order : Leg) : ℚ :=
  ((reconcile book).map fun row => row.exitQtyFrom order).sum

structure AttributedOnce (book : Book) : Prop where
  per_order : ∀ order ∈ brokerOrders book.orders, attributedQty book order ≤ order.filledQty
  per_execution : ∀ row ∈ reconcile book,
    (row.exits.map (exitQty row.payload)).sum ≤ row.payload.filledQty
  bracket_alone : ∀ row ∈ reconcile book,
    (bracketExit row.payload).isSome = true → row.exitFill = none
  realized : ∀ row ∈ reconcile book,
    row.realizedPnl = (row.exits.map (exitPnl row.payload)).sum

section Condition

variable (book : Book)

def ClosesAfter (payload sell : Payload) : Prop :=
  payload.side.toLower = "buy" ∧ 0 < payload.filledQty ∧ 0 < payload.filledAvgPrice ∧
    payload.filledAt ≠ "" ∧ payload.filledAt < sell.filledAt ∧ 0 < sell.filledAvgPrice

instance (payload sell : Payload) : Decidable (ClosesAfter payload sell) :=
  inferInstanceAs (Decidable (_ ∧ _))

def laterSells (payload : Payload) : List Payload :=
  (standaloneExits book payload.symbol.toUpper).filter (ClosesAfter payload ·)

def Earliest (sells : List Payload) (sell : Payload) : Prop :=
  sell ∈ sells ∧ (∀ other ∈ sells, sell.filledAt ≤ other.filledAt) ∧
    ∀ other ∈ sells, other.filledAt ≤ sell.filledAt → sells.idxOf sell ≤ sells.idxOf other

instance (sells : List Payload) (sell : Payload) : Decidable (Earliest sells sell) :=
  inferInstanceAs (Decidable (_ ∧ _))

def contenders (sell : Payload) : List Entry :=
  (entries book).filter fun entry =>
    bracketExit entry.payload = none ∧ Earliest (laterSells book entry.payload) sell

structure ExitsOnce : Prop where
  break_even : ∀ entry ∈ entries book, ∀ leg ∈ bracketExit entry.payload,
    exitPnl entry.payload leg = 0 → laterSells book entry.payload = []
  shared : ∀ sell ∈ book.orders, isStandaloneExit book sell = true →
    sell.filledQty = 0 ∨ (contenders book sell).length ≤ 1 ∨
      ((contenders book sell).map (·.payload.filledQty)).sum ≤ sell.filledQty

end Condition

section Rows

variable {book : Book}

lemma of_executionByOrder {brokerOrderId : String} {execution : Execution}
    (h : executionByOrder book brokerOrderId = some execution) :
    execution ∈ book.executions ∧ execution.brokerOrderId = brokerOrderId := by
  rw [executionByOrder] at h
  have hmem := List.mem_of_find?_eq_some h
  have hid := List.find?_some h
  rw [List.mem_reverse] at hmem
  exact ⟨(List.mem_filter.mp hmem).1, of_decide_eq_true hid⟩

lemma mem_entries {entry : Entry} (h : entry ∈ entries book) :
    entry.payload ∈ book.orders ∧
      executionByOrder book entry.payload.brokerOrderId = some entry.execution := by
  obtain ⟨order, horder, hentry⟩ := List.mem_filterMap.mp h
  obtain ⟨execution, hexecution, rfl⟩ := Option.map_eq_some_iff.mp hentry
  exact ⟨horder, hexecution⟩

lemma payloads_nodup (h : book.orders.Nodup) : ((entries book).map (·.payload)).Nodup := by
  refine List.Nodup.sublist ?_ h
  rw [entries]
  induction book.orders with
  | nil => exact List.Sublist.refl _
  | cons order rest ih =>
    rw [List.filterMap_cons]
    cases executionByOrder book order.brokerOrderId with
    | none => exact ih.cons order
    | some execution => exact ih.cons_cons order

lemma standaloneExit_eq (payload : Payload) :
    standaloneExit payload (standaloneExits book payload.symbol.toUpper) =
      (laterSells book payload).argmin (·.filledAt) := by
  have hnone (h : ∀ sell, ¬ ClosesAfter payload sell) : laterSells book payload = [] := by
    apply List.filter_eq_nil_iff.mpr
    intro sell _
    rw [decide_eq_true_iff]
    exact h sell
  rw [standaloneExit]
  split_ifs with hentry hlong
  · rcases hentry with hempty | hentry
    · rw [laterSells, hempty]
      rfl
    · rw [hnone (fun sell hsell => by obtain ⟨-, hqty, -, hat, -⟩ := hsell; grind)]
      rfl
  · rw [hnone (fun sell hsell => by obtain ⟨hside, -, hprice, -⟩ := hsell; grind)]
    rfl
  · rw [laterSells]
    congr 1
    apply List.filter_congr
    intro sell _
    push Not at hentry hlong
    rw [decide_eq_decide, ClosesAfter]
    constructor
    · intro h
      exact ⟨hlong.1, hentry.2.2, hlong.2, hentry.2.1, h⟩
    · rintro ⟨-, -, -, -, h⟩
      exact h

end Rows

end AlgoTrader.Reconciliation
