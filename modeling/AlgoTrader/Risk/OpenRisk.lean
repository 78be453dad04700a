import AlgoTrader.Lib.Runs
import AlgoTrader.Risk.Guardrails
import Mathlib.Tactic.Ring

/-! The open-risk figure the heat cap is compared with, over a history of admitted orders, fills, equity
changes and closes. -/

namespace AlgoTrader.Risk

open AlgoTrader.Models

structure Lot where
  quantity : ℚ
  entry : ℚ
  stop : ℚ
deriving DecidableEq

structure Position where
  symbol : String
  lots : List Lot
deriving DecidableEq

def Lot.risk (lot : Lot) : ℚ := lot.quantity * (lot.entry - lot.stop)

def Position.risk (position : Position) : ℚ := (position.lots.map Lot.risk).sum

def openRisk (positions : List Position) : ℚ := (positions.map Position.risk).sum

structure Admitted where
  order : TradeOrder
  stop : ℚ
deriving DecidableEq

def Admitted.estimate (a : Admitted) : ℚ := riskAt a.order a.stop

structure Book where
  account : Account
  positions : List Position := []
  admitted : List Admitted := []
deriving DecidableEq

-- The broker keeps one position a symbol.
def addLot (symbol : String) (lot : Lot) : List Position → List Position
  | [] => [⟨symbol, [lot]⟩]
  | p :: rest => if p.symbol = symbol then ⟨symbol, lot :: p.lots⟩ :: rest else p :: addLot symbol lot rest

def Holds (positions : List Position) (symbol : String) : Prop := ∃ p ∈ positions, p.symbol = symbol

instance (positions : List Position) (symbol : String) : Decidable (Holds positions symbol) :=
  inferInstanceAs (Decidable (∃ p ∈ positions, _))

inductive Event where
  | place (order : TradeOrder) (otherChecksPass : Bool)
  | fill (admitted : Admitted) (quantity price : ℚ)
  | equity (account : Account)
  | close (symbol : String)

section Settings

variable (s : RiskSettings)

def Book.context (book : Book) : RiskContext := buildRiskContext s book.account book.positions.length

def Book.place (book : Book) (order : TradeOrder) (otherChecksPass : Bool) : Book :=
  if otherChecksPass ∧ riskReasons s order (book.context s) = [] then
    order.stopLoss.elim book fun stop => { book with admitted := ⟨order, stop⟩ :: book.admitted }
  else book

def Book.step (book : Book) : Event → Book
  | .place order otherChecksPass => book.place s order otherChecksPass
  | .fill admitted quantity price =>
      if admitted ∈ book.admitted then
        { book with
          positions := addLot admitted.order.symbol ⟨quantity, price, admitted.stop⟩ book.positions
          admitted := book.admitted.erase admitted }
      else book
  | .equity account => { book with account := account }
  | .close symbol => { book with positions := book.positions.eraseP fun p => p.symbol = symbol }

def Book.figure (book : Book) : ℚ := usedHeat (book.context s).openTradeRisksUsd

def Conservative (book : Book) : Prop := openRisk book.positions ≤ book.figure s

def positionBudget (account : Account) : ℚ := if s.simulatesItself then 0 else max (perPositionRiskUsd s account) 0

def Book.slack (book : Book) : ℚ := book.figure s - openRisk book.positions

/-- A step takes no more from the slack than there is: a fill its risk less the budget of the position it
opens, an equity change the budgets' fall, a close the part of its budget the position did not risk. -/
def Fits (book : Book) : Event → Prop
  | .place _ _ => True
  | .fill a quantity price => a ∈ book.admitted →
      quantity * (price - a.stop) ≤
        book.slack s + if Holds book.positions a.order.symbol then 0 else positionBudget s book.account
  | .equity account =>
      book.positions.length * (positionBudget s book.account - positionBudget s account) ≤ book.slack s
  | .close symbol => ∀ p, book.positions.find? (fun p => p.symbol = symbol) = some p →
      positionBudget s book.account - p.risk ≤ book.slack s

/-- The condition position by position: a fill opens a position of its own at no more than the risk the
gate estimated, and the budget never falls below the risk of an open position or an admitted order. -/
def Covers (book : Book) : Event → Prop
  | .place _ _ => True
  | .fill a quantity price => a ∈ book.admitted → s.simulatesItself = false ∧
      ¬ Holds book.positions a.order.symbol ∧ quantity * (price - a.stop) ≤ a.estimate
  | .equity account => (∀ p ∈ book.positions, p.risk ≤ positionBudget s account) ∧
      ∀ a ∈ book.admitted, a.estimate ≤ positionBudget s account
  | .close _ => True

end Settings

section Figure

variable {s : RiskSettings} {book : Book} {positions : List Position} {symbol : String} {lot : Lot}

@[simp]
lemma openRisk_nil : openRisk [] = 0 := rfl

@[simp]
lemma openRisk_cons (p : Position) : openRisk (p :: positions) = p.risk + openRisk positions := by
  simp [openRisk]

lemma holds_cons (p : Position) : Holds (p :: positions) symbol ↔ p.symbol = symbol ∨ Holds positions symbol := by
  simp [Holds]

lemma openRisk_addLot : openRisk (addLot symbol lot positions) = openRisk positions + lot.risk := by
  induction positions with
  | nil => simp [addLot, Position.risk]
  | cons p rest ih =>
    rw [addLot]
    split_ifs
    · simp [Position.risk]
      ring
    · rw [openRisk_cons, openRisk_cons, ih]
      ring

lemma length_addLot :
    (addLot symbol lot positions).length = positions.length + if Holds positions symbol then 0 else 1 := by
  induction positions with
  | nil => simp [addLot, Holds]
  | cons p rest ih =>
    rw [addLot]
    by_cases hp : p.symbol = symbol
    · simp [holds_cons, hp]
    · simp only [hp, if_false, List.length_cons, ih, holds_cons, false_or]
      omega

lemma openRisk_eraseP {p : Position} (h : positions.find? (fun p => p.symbol = symbol) = some p) :
    openRisk (positions.eraseP fun p => p.symbol = symbol) = openRisk positions - p.risk := by
  induction positions with
  | nil => cases h
  | cons first rest ih =>
    by_cases hfirst : first.symbol = symbol
    · rw [List.find?_cons_of_pos (by simpa using hfirst)] at h
      obtain rfl := Option.some.inj h
      rw [List.eraseP_cons_of_pos (by simpa using hfirst), openRisk_cons]
      ring
    · rw [List.find?_cons_of_neg (by simpa using hfirst)] at h
      rw [List.eraseP_cons_of_neg (by simpa using hfirst), openRisk_cons, openRisk_cons, ih h]
      ring

lemma figure_eq : book.figure s = book.positions.length * positionBudget s book.account := by
  rw [Book.figure, Book.context, buildRiskContext, positionBudget]
  by_cases hself : s.simulatesItself
  · rw [if_pos hself, if_pos hself]
    simp [usedHeat]
  · rw [if_neg hself, if_neg hself]
    exact usedHeat_replicate _ _

variable (book) in
lemma place_cases (order : TradeOrder) (otherChecksPass : Bool) :
    book.place s order otherChecksPass = book ∨
      ∃ stop, order.stopLoss = some stop ∧ riskReasons s order (book.context s) = [] ∧
        book.place s order otherChecksPass = { book with admitted := ⟨order, stop⟩ :: book.admitted } := by
  rw [Book.place]
  by_cases hpass : otherChecksPass ∧ riskReasons s order (book.context s) = []
  · obtain ⟨stop, hstop⟩ := stop_of_riskReasons hpass.2
    rw [if_pos hpass, hstop]
    exact .inr ⟨stop, rfl, hpass.2, rfl⟩
  · exact .inl (if_neg hpass)

lemma conservative_step (event : Event) (h : Conservative s book) :
    Conservative s (book.step s event) ↔ Fits s book event := by
  have hslack : book.slack s = book.positions.length * positionBudget s book.account - openRisk book.positions := by
    rw [Book.slack, figure_eq]
  cases event with
  | place order otherChecksPass =>
    rcases place_cases (s := s) book order otherChecksPass with hsame | ⟨stop, _, _, hplace⟩
    · rw [Book.step, hsame]
      exact iff_of_true h trivial
    · rw [Book.step, hplace]
      exact iff_of_true h trivial
  | fill a quantity price =>
    by_cases hmem : a ∈ book.admitted
    · rw [Book.step, if_pos hmem, Conservative, figure_eq, openRisk_addLot, length_addLot, Lot.risk]
      simp only [Fits, hmem, hslack, true_imp_iff]
      split_ifs <;> push_cast <;> constructor <;> intro hle <;> linarith
    · rw [Book.step, if_neg hmem]
      exact iff_of_true h fun hmem' => absurd hmem' hmem
  | equity account =>
    rw [Book.step, Conservative, figure_eq, Fits, hslack]
    constructor <;> intro hle <;> linarith
  | close symbol =>
    rw [Book.step, Conservative, figure_eq, Fits, hslack]
    cases hfind : book.positions.find? (fun p => p.symbol = symbol) with
    | none =>
      have hall := List.find?_eq_none.mp hfind
      rw [List.eraseP_of_forall_not hall]
      rw [Conservative, figure_eq] at h
      refine iff_of_true h ?_
      intro p hp
      cases hp
    | some p =>
      have hmem := List.mem_of_find?_eq_some hfind
      have hlength := List.length_eraseP_add_one hmem (List.find?_some hfind)
      rw [openRisk_eraseP hfind, ← hlength]
      push_cast
      constructor
      · intro hle q hq
        obtain rfl := Option.some.inj hq
        linarith
      · intro hle
        have hp := hle p rfl
        linarith

/-- Each open position, and each order still to be filled, risks no more than its budget. -/
def Budgeted (s : RiskSettings) (book : Book) : Prop :=
  (∀ p ∈ book.positions, p.risk ≤ positionBudget s book.account) ∧
    (s.simulatesItself = false → ∀ a ∈ book.admitted, a.estimate ≤ positionBudget s book.account)

lemma estimate_le_budget {order : TradeOrder} {stop : ℚ} (hself : s.simulatesItself = false)
    (hstop : order.stopLoss = some stop) (h : riskReasons s order (book.context s) = []) :
    (Admitted.mk order stop).estimate ≤ positionBudget s book.account := by
  have hpct := riskPct_le_of_riskReasons hstop h
  rw [Book.context, mode_build, ← Book.context] at hpct
  have hcap := hpct.trans riskCap_le
  have hbalance : (book.context s).accountBalance = accountBalance book.account := by
    rw [Book.context, buildRiskContext, hself, if_neg Bool.false_ne_true]
  rw [riskPctOfBalance, hbalance, div_mul_eq_mul_div, div_le_iff₀ accountBalance_pos] at hcap
  rw [positionBudget, hself, if_neg Bool.false_ne_true]
  apply le_max_of_le_left
  rw [perPositionRiskUsd, Admitted.estimate]
  linarith

lemma mem_addLot {p : Position} (h : p ∈ addLot symbol lot positions) (hfree : ¬ Holds positions symbol) :
    p ∈ positions ∨ p = ⟨symbol, [lot]⟩ := by
  induction positions with
  | nil => exact .inr (List.mem_singleton.mp h)
  | cons first rest ih =>
    rw [holds_cons, not_or] at hfree
    rw [addLot, if_neg hfree.1] at h
    rcases List.mem_cons.mp h with rfl | hrest
    · exact .inl List.mem_cons_self
    · exact (ih hrest hfree.2).imp_left (List.mem_cons_of_mem _)

lemma budgeted_step (event : Event) (h : Budgeted s book) (hcovers : Covers s book event) :
    Budgeted s (book.step s event) := by
  cases event with
  | place order otherChecksPass =>
    rcases place_cases (s := s) book order otherChecksPass with hsame | ⟨stop, hstop, hpass, hplace⟩
    · rwa [Book.step, hsame]
    · rw [Book.step, hplace]
      refine ⟨h.1, ?_⟩
      intro hself a ha
      rcases List.mem_cons.mp ha with rfl | hold
      · exact estimate_le_budget hself hstop hpass
      · exact h.2 hself a hold
  | fill a quantity price =>
    by_cases hmem : a ∈ book.admitted
    · obtain ⟨hself, hfree, hrisk⟩ := hcovers hmem
      rw [Book.step, if_pos hmem]
      constructor
      · intro p hp
        rcases mem_addLot hp hfree with hold | rfl
        · exact h.1 p hold
        · simpa [Position.risk, Lot.risk] using hrisk.trans (h.2 hself a hmem)
      · intro _ other hother
        exact h.2 hself other (List.mem_of_mem_erase hother)
    · rwa [Book.step, if_neg hmem]
  | equity account => exact ⟨hcovers.1, fun _ => hcovers.2⟩
  | close symbol =>
    refine ⟨?_, h.2⟩
    intro p hp
    exact h.1 p (List.mem_of_mem_eraseP hp)

lemma Budgeted.conservative (h : Budgeted s book) : Conservative s book := by
  rw [Conservative, figure_eq, openRisk]
  have hsum : (book.positions.map Position.risk).sum ≤
      (book.positions.map Position.risk).length • positionBudget s book.account := by
    apply List.sum_le_card_nsmul
    intro risk hrisk
    obtain ⟨p, hp, rfl⟩ := List.mem_map.mp hrisk
    exact h.1 p hp
  rwa [List.length_map, nsmul_eq_mul] at hsum

/-- Over a history from an empty account the figure covers the open risk in every state reached exactly
when each step fits into the slack; and it does whenever every fill opens a position of its own at no
more than its estimate and no equity change leaves a position or an admitted order above its budget. -/
theorem heat_covers (s : RiskSettings) (account : Account) (history : List Event) :
    (Runs.Always (Book.step s) (Conservative s) { account := account } history ↔
      Runs.Allowed (Book.step s) (Fits s) { account := account } history) ∧
    (Runs.Allowed (Book.step s) (Covers s) { account := account } history →
      Runs.Always (Book.step s) (Conservative s) { account := account } history) := by
  have hempty : Budgeted s { account := account } := by
    constructor
    · intro p hp
      cases hp
    · intro _ a ha
      cases ha
  constructor
  · exact Runs.always_iff_of_step (fun _ event h => conservative_step event h) hempty.conservative history
  · intro hcovers
    apply Runs.always_of_allowed (I := Budgeted s) _ _ hempty hcovers
    · intro book event
      exact budgeted_step event
    · intro book
      exact Budgeted.conservative

-- A thousand dollars at risk on a hundred thousand, of which five thousand are then lost elsewhere.
def fallingEquity : List Event :=
  let order : TradeOrder := { symbol := "AAPL", amountUsd := 50000, proposedPrice := 100, stopLoss := some 98 }
  [.place order true, .fill ⟨order, 98⟩ 500 100, .equity ⟨95000, 45000⟩]

theorem heat_underestimated :
    ¬ Runs.Always (Book.step {}) (Conservative {}) { account := ⟨100000, 100000⟩ } fallingEquity ∧
      (Runs.run (Book.step {}) { account := ⟨100000, 100000⟩ } fallingEquity).figure {} = 950 ∧
      openRisk (Runs.run (Book.step {}) { account := ⟨100000, 100000⟩ } fallingEquity).positions = 1000 := by
  have hfigure : (Runs.run (Book.step {}) { account := ⟨100000, 100000⟩ } fallingEquity).figure {} = 950 := by
    decide +kernel
  have hrisk : openRisk (Runs.run (Book.step {}) { account := ⟨100000, 100000⟩ } fallingEquity).positions = 1000 := by
    decide +kernel
  refine ⟨?_, hfigure, hrisk⟩
  intro halways
  have hlast := halways.last
  rw [Conservative, hfigure, hrisk] at hlast
  norm_num at hlast

end Figure

end AlgoTrader.Risk
