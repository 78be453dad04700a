import AlgoTrader.Backtesting.NoOverlap
import Mathlib.Data.List.Forall2
import Mathlib.Tactic.FieldSimp
import Mathlib.Tactic.Linarith
import Mathlib.Tactic.LinearCombination

/-! What a trade's profit is made of: its gain at the raw prices, less the six components of
its cost event. Five of them are subtracted as they are reported; the spread sits in the fill
prices and is reported by inverting the regular half spread. -/

namespace AlgoTrader.Backtesting

open Utils.Time Models BoundedLoop

variable {r : RunInput} {index : ℕ} {s t : LoopState}

def CostEvent.total (e : CostEvent) : ℚ :=
  e.spreadUsd + e.financingUsd + e.fxUsd + e.commissionUsd + e.slippageUsd + e.regulatoryUsd

def exitReferenceAt (trade : OpenTrade) (reason : ExitReason) (bar : Bar) : ℚ :=
  match reason with
  | .timeStop | .strategyExit => bar.openPrice
  | .stopLoss | .takeProfit => ((stopOrTarget trade bar).map Prod.fst).getD 0
  | .sessionClose | .endOfData => bar.close

def exitExtendedAt (clock : NewYorkClock) (config : EngineConfig) (reason : ExitReason) (time : Timestamp) :
    Bool :=
  match reason with
  | .sessionClose | .endOfData => false
  | _ => isExtended clock time config.barsPerYear

def Side.sign : Side → ℚ
  | .buy => 1
  | .sell => -1

namespace ClosedTrade

variable (c : ClosedTrade)

def entryReference (bars : Frame) : ℚ := ((bars[c.trade.entryBarIndex]?).map (·.openPrice)).getD 0

def exitReference (bars : Frame) : ℚ :=
  ((bars[c.exitBarIndex]?).map (exitReferenceAt c.trade c.record.reason)).getD 0

def grossPnl (bars : Frame) : ℚ :=
  c.trade.side.sign * c.record.quantity * (c.exitReference bars - c.entryReference bars)

end ClosedTrade

def Decomposes (bars : Frame) (c : ClosedTrade) (costs : CostEvent) : Prop :=
  c.record.pnlUsd = c.grossPnl bars - costs.total

instance (bars : Frame) (c : ClosedTrade) (costs : CostEvent) : Decidable (Decomposes bars c costs) :=
  inferInstanceAs (Decidable (_ = _))

structure PricedEntry (r : RunInput) (trade : OpenTrade) (reference : ℚ) : Prop where
  side : trade.side = entrySide r.runConfig
  referenceAt : (r.normalized[trade.entryBarIndex]?).map (·.openPrice) = some reference
  price : r.runConfig.costModel.entryFillPrice reference trade.side
    (isExtended r.clock trade.entryTime r.runConfig.barsPerYear) = .ok trade.entryPrice
  quantityPos : 0 < trade.quantity
  notional : trade.entryNotional = trade.quantity * trade.entryPrice
  spread : trade.entrySpreadUsd =
    if trade.side = .buy then max (trade.entryNotional - trade.quantity * reference) 0
    else |trade.entryNotional - trade.quantity * reference|

structure PricedExit (r : RunInput) (trade : OpenTrade) (action : ExitAction) (reference : ℚ) : Prop where
  referenceAt : (r.normalized[action.fillBarIndex]?).map (exitReferenceAt trade action.reason) = some reference
  price : r.runConfig.costModel.exitFillPrice reference trade.side
    (exitExtendedAt r.clock r.runConfig action.reason action.fillTime) = .ok action.fillPrice

lemma attemptEntry_priced {signal : Signal} {next : Bar} {cash distance : ℚ} {attempt : EntryAttempt}
    (hnext : r.normalized[index + 1]? = some next)
    (h : attemptEntry r.clock r.runConfig signal next cash (index + 1) distance = .ok (some attempt)) :
    PricedEntry r attempt.openTrade next.openPrice := by
  obtain ⟨fillPrice, quantity, _, _, hfill, _, hpos, _, rfl⟩ := attemptEntry_eq h
  exact ⟨rfl, by simp [filledEntry, hnext], hfill, hpos, rfl, rfl⟩

lemma evaluateExit_priced {trade : OpenTrade} {bar : Bar} {action : ExitAction}
    (hbar : r.normalized[index]? = some bar)
    (h : evaluateExit r.clock r.runConfig trade bar (r.signalAt index) index
      (maybeNextBar r.normalized index) = .ok (some action)) :
    ∃ reference, PricedExit r trade action reference := by
  rw [maybeNextBar_eq] at h
  unfold evaluateExit at h
  dsimp only at h
  split_ifs at h with hstop
  · obtain ⟨fill, hfill, ha⟩ := (bind_eq_ok _ _ _).mp h
    obtain rfl := Option.some.inj ((pure_eq_ok _ _).mp ha)
    exact ⟨bar.openPrice, by simp [hbar, exitReferenceAt], hfill⟩
  · cases hlevel : stopOrTarget trade bar with
    | some level =>
      obtain ⟨rawFill, reason⟩ := level
      simp only [hlevel] at h
      obtain ⟨fill, hfill, ha⟩ := (bind_eq_ok _ _ _).mp h
      obtain rfl := Option.some.inj ((pure_eq_ok _ _).mp ha)
      rcases stopOrTarget_reason hlevel with rfl | rfl
      · exact ⟨rawFill, by simp [hbar, exitReferenceAt, hlevel], hfill⟩
      · exact ⟨rawFill, by simp [hbar, exitReferenceAt, hlevel], hfill⟩
    | none =>
      simp only [hlevel] at h
      cases hsignal : r.signalAt index with
      | none => simp [hsignal] at h
      | some signal =>
        cases hnext : r.normalized[index + 1]? with
        | none => simp [hsignal, hnext] at h
        | some next =>
          simp only [hsignal, hnext] at h
          split_ifs at h with hcloses
          · obtain ⟨fill, hfill, ha⟩ := (bind_eq_ok _ _ _).mp h
            obtain rfl := Option.some.inj ((pure_eq_ok _ _).mp ha)
            exact ⟨next.openPrice, by simp [hnext, exitReferenceAt], hfill⟩
          · simp at h

lemma BarExit.priced {trade : OpenTrade} {bar : Bar} {action : ExitAction}
    (hbar : r.normalized[index]? = some bar) (h : BarExit r bar index trade action) :
    ∃ reference, PricedExit r trade action reference := by
  cases h with
  | evaluated heval => exact evaluateExit_priced hbar heval
  | flattened _ _ hfill => exact ⟨bar.close, by simp [hbar, exitReferenceAt], hfill⟩

structure PricedTrade (r : RunInput) (c : ClosedTrade) (costs : CostEvent) : Prop where
  entry : ∃ reference, PricedEntry r c.trade reference
  exit : ∃ action reference, PricedExit r c.trade action reference ∧
    c = ⟨c.trade, action.fillBarIndex, (closeTrade r.runConfig.costModel c.trade action).tradeRecord⟩ ∧
    costs = tradeCosts r.runConfig.costModel c.trade action

structure PricedState (r : RunInput) (s : LoopState) : Prop where
  held : ∀ trade, s.openTrade = some trade → ∃ reference, PricedEntry r trade reference
  closed : List.Forall₂ (PricedTrade r) s.trades s.costEvents

lemma pricedState_bookExit {trade : OpenTrade} {action : ExitAction} {reference : ℚ} (hs : PricedState r s)
    (hopen : s.openTrade = some trade) (hexit : PricedExit r trade action reference) :
    PricedState r (s.bookExit r.runConfig.costModel trade action) := by
  refine ⟨by simp, ?_⟩
  refine List.rel_append hs.closed (.cons ?_ .nil)
  exact ⟨hs.held trade hopen, action, reference, hexit, rfl, rfl⟩

lemma pricedState_processBar (h : r.processBar index s = .ok t) (hs : PricedState r s) : PricedState r t := by
  rcases processBar_cases h with ⟨_, rfl⟩ | ⟨bar, settled, outcome, hbar, _, hsettle, hdecide, rfl⟩
  · exact hs
  · have hsettled : PricedState r settled := by
      obtain ⟨u, rfl, hu⟩ := settleBar_cases hsettle
      rcases hu with ⟨rfl, _⟩ | ⟨trade, action, hopen, hexit, rfl⟩
      · exact ⟨hs.held, hs.closed⟩
      · obtain ⟨reference, hpriced⟩ := hexit.priced hbar
        have hbooked := pricedState_bookExit hs hopen hpriced
        exact ⟨hbooked.held, hbooked.closed⟩
    cases outcome with
    | dropped => exact hsettled
    | notTaken => exact ⟨hsettled.held, hsettled.closed⟩
    | filled attempt =>
      obtain ⟨signal, next, _, _, _, _, hnext, hattempt⟩ := decideEntry_filled hdecide
      refine ⟨?_, hsettled.closed⟩
      rintro trade ⟨⟩
      exact ⟨next.openPrice, attemptEntry_priced hnext hattempt⟩

theorem pricedState_stateAt (h : r.stateAt index = .ok s) : PricedState r s := by
  refine invariant (P := fun _ => PricedState r) ?_ ?_ h
  · exact ⟨by simp [RunInput.initialState], .nil⟩
  · intro i a b _ _ ha hb
    exact pricedState_processBar hb ha

theorem pricedTrades_run {run : BacktestRun} (h : r.run = .ok run) :
    List.Forall₂ (PricedTrade r) run.closed run.final.costEvents := by
  obtain ⟨looped, hlooped, hfinal, _⟩ := run_cases h
  have hloop := pricedState_stateAt hlooped
  rcases closeAtEnd_cases hfinal with ⟨hsame, _⟩ |
    ⟨trade, finalBar, action, hopen, hlast, hfill, _, hindex, hreason, hclosed⟩
  · rw [BacktestRun.closed, hsame]
    exact hloop.closed
  · rw [List.getLast?_eq_getElem?] at hlast
    have hexit : PricedExit r trade action finalBar.close := by
      refine ⟨?_, ?_⟩
      · rw [hindex, RunInput.totalBars, hlast, hreason]
        rfl
      · rw [hreason]
        exact hfill
    rw [BacktestRun.closed, hclosed]
    exact (pricedState_bookExit hloop hopen hexit).closed

namespace CostModel

variable (m : CostModel)

/-- The half spread an exit reports, per dollar of its raw price, when it filled with `drag`. -/
def reportedExitDrag (side : Side) (drag : ℚ) : ℚ :=
  |(1 - side.sign * drag) -
    (1 - side.sign * drag) / max (1 - side.sign * m.halfSpreadFraction false) (1 / 1000000000)|

structure QuotedSpreads : Prop where
  regular_nonneg : 0 ≤ m.halfSpreadFraction false
  regular_le : m.halfSpreadFraction false ≤ 1 - 1 / 1000000000
  extended_nonneg : 0 ≤ m.halfSpreadFraction true
  extended_le : m.halfSpreadFraction true ≤ 1

end CostModel

def reportedEntryDrag (side : Side) (drag : ℚ) : ℚ :=
  match side with
  | .buy => max drag 0
  | .sell => |drag|

namespace ClosedTrade

variable (r : RunInput) (c : ClosedTrade)

def entryHalfSpread : ℚ := r.runConfig.costModel.halfSpreadFraction
  (isExtended r.clock c.trade.entryTime r.runConfig.barsPerYear)

def exitHalfSpread : ℚ := r.runConfig.costModel.halfSpreadFraction
  (exitExtendedAt r.clock r.runConfig c.record.reason c.record.exitTime)

/-- At the two raw prices the reported half spreads come to what the fills paid. -/
def SpreadRecovered : Prop :=
  c.entryReference r.normalized * (reportedEntryDrag c.trade.side (c.entryHalfSpread r) - c.entryHalfSpread r) +
    c.exitReference r.normalized *
      (r.runConfig.costModel.reportedExitDrag c.trade.side (c.exitHalfSpread r) - c.exitHalfSpread r) = 0

end ClosedTrade

lemma entryFillPrice_ok {m : CostModel} {reference price : ℚ} {side : Side} {extended : Bool}
    (h : m.entryFillPrice reference side extended = .ok price) :
    0 < reference ∧ price = reference * (1 + side.sign * m.halfSpreadFraction extended) := by
  rw [CostModel.entryFillPrice] at h
  split_ifs at h with hpos
  refine ⟨not_le.mp hpos, ?_⟩
  cases side with
  | buy => simpa [Side.sign] using (Except.ok.inj h).symm
  | sell => simpa [Side.sign, sub_eq_add_neg] using (Except.ok.inj h).symm

lemma exitFillPrice_ok {m : CostModel} {reference price : ℚ} {side : Side} {extended : Bool}
    (h : m.exitFillPrice reference side extended = .ok price) :
    0 < reference ∧ price = reference * (1 - side.sign * m.halfSpreadFraction extended) := by
  rw [CostModel.exitFillPrice] at h
  split_ifs at h with hpos
  refine ⟨not_le.mp hpos, ?_⟩
  cases side with
  | buy => simpa [Side.sign] using (Except.ok.inj h).symm
  | sell => simpa [Side.sign] using (Except.ok.inj h).symm

lemma unadjustedExitPrice_eq (price : ℚ) (trade : OpenTrade) (m : CostModel) :
    unadjustedExitPrice price trade m =
      price / max (1 - trade.side.sign * m.halfSpreadFraction false) (1 / 1000000000) := by
  rw [unadjustedExitPrice]
  cases trade.side <;> simp [Side.sign]

section Spread

variable {trade : OpenTrade} {action : ExitAction} {entryRaw exitRaw : ℚ}

lemma entrySpread_eq (h : PricedEntry r trade entryRaw) : trade.entrySpreadUsd =
    trade.quantity * (entryRaw * reportedEntryDrag trade.side (r.runConfig.costModel.halfSpreadFraction
      (isExtended r.clock trade.entryTime r.runConfig.barsPerYear))) := by
  obtain ⟨hpos, hprice⟩ := entryFillPrice_ok h.price
  have hscale : 0 < trade.quantity * entryRaw := mul_pos h.quantityPos hpos
  set drag := r.runConfig.costModel.halfSpreadFraction
    (isExtended r.clock trade.entryTime r.runConfig.barsPerYear)
  have hgap : trade.entryNotional - trade.quantity * entryRaw =
      trade.quantity * entryRaw * (trade.side.sign * drag) := by
    rw [h.notional, hprice]
    ring
  rw [h.spread, hgap, ← mul_assoc trade.quantity entryRaw]
  cases trade.side with
  | buy =>
    simp only [if_true, reportedEntryDrag, Side.sign]
    rw [mul_max_of_nonneg _ _ hscale.le, mul_zero, one_mul]
  | sell =>
    simp only [reduceCtorEq, if_false, reportedEntryDrag, Side.sign]
    rw [abs_mul, abs_of_pos hscale, neg_one_mul, abs_neg]

lemma exitSpread_eq (hquantity : 0 < trade.quantity) (h : PricedExit r trade action exitRaw) :
    |trade.quantity * action.fillPrice -
        trade.quantity * unadjustedExitPrice action.fillPrice trade r.runConfig.costModel| =
      trade.quantity * (exitRaw * r.runConfig.costModel.reportedExitDrag trade.side
        (r.runConfig.costModel.halfSpreadFraction
          (exitExtendedAt r.clock r.runConfig action.reason action.fillTime))) := by
  obtain ⟨hpos, hprice⟩ := exitFillPrice_ok h.price
  have hscale : 0 < trade.quantity * exitRaw := mul_pos hquantity hpos
  rw [unadjustedExitPrice_eq, hprice, CostModel.reportedExitDrag, ← mul_assoc, ← mul_assoc]
  conv_rhs => rw [← abs_of_pos hscale, ← abs_mul]
  congr 1
  ring

lemma realizedProceeds_sub (m : CostModel) (trade : OpenTrade) (action : ExitAction) :
    realizedProceeds m trade action - trade.entryNotional =
      trade.side.sign * (trade.quantity * action.fillPrice - trade.entryNotional) -
        ((tradeCosts m trade action).total - (tradeCosts m trade action).spreadUsd) := by
  rw [realizedProceeds, CostEvent.total]
  cases hside : trade.side with
  | buy =>
    simp only [reduceCtorEq, if_false, Side.sign]
    ring
  | sell =>
    simp only [if_true, Side.sign]
    ring

end Spread

lemma PricedTrade.decomposes_iff {c : ClosedTrade} {costs : CostEvent} (h : PricedTrade r c costs) :
    Decomposes r.normalized c costs ↔ c.SpreadRecovered r := by
  obtain ⟨⟨entryRaw, hentry⟩, action, exitRaw, hexit, hc, rfl⟩ := h
  have hentryRaw : c.entryReference r.normalized = entryRaw := by
    rw [ClosedTrade.entryReference, hentry.referenceAt]
    rfl
  have hexitRaw : c.exitReference r.normalized = exitRaw := by
    rw [hc, ClosedTrade.exitReference]
    exact (congrArg (·.getD 0) hexit.referenceAt).trans rfl
  have hexitDrag : c.exitHalfSpread r = r.runConfig.costModel.halfSpreadFraction
      (exitExtendedAt r.clock r.runConfig action.reason action.fillTime) := by
    rw [hc]
    rfl
  have hentryDrag : c.entryHalfSpread r = r.runConfig.costModel.halfSpreadFraction
      (isExtended r.clock c.trade.entryTime r.runConfig.barsPerYear) := rfl
  have hpnl : c.record.pnlUsd = realizedProceeds r.runConfig.costModel c.trade action - c.trade.entryNotional := by
    rw [hc]
    rfl
  have hquantity : c.record.quantity = c.trade.quantity := by
    rw [hc]
    rfl
  have hspread : (tradeCosts r.runConfig.costModel c.trade action).spreadUsd =
      c.trade.quantity * (entryRaw * reportedEntryDrag c.trade.side (c.entryHalfSpread r) +
        exitRaw * r.runConfig.costModel.reportedExitDrag c.trade.side (c.exitHalfSpread r)) := by
    rw [mul_add, hexitDrag, ← exitSpread_eq hentry.quantityPos hexit]
    exact congrArg (· + _) (entrySpread_eq hentry)
  obtain ⟨_, hentryPrice⟩ := entryFillPrice_ok hentry.price
  obtain ⟨_, hexitPrice⟩ := exitFillPrice_ok hexit.price
  have hsign : c.trade.side.sign * c.trade.side.sign = 1 := by
    cases c.trade.side <;> norm_num [Side.sign]
  have hpos := hentry.quantityPos
  -- what the two fills paid in spread, against what the cost event reports
  have hgap : c.record.pnlUsd - (c.grossPnl r.normalized - (tradeCosts r.runConfig.costModel c.trade action).total) =
      c.trade.quantity * (entryRaw * (reportedEntryDrag c.trade.side (c.entryHalfSpread r) - c.entryHalfSpread r) +
        exitRaw * (r.runConfig.costModel.reportedExitDrag c.trade.side (c.exitHalfSpread r) - c.exitHalfSpread r)) := by
    rw [hpnl, realizedProceeds_sub, hspread, ClosedTrade.grossPnl, hentryRaw, hexitRaw, hquantity,
      hentry.notional, hentryPrice, hexitPrice, ← hexitDrag, ← hentryDrag]
    linear_combination (-(c.trade.quantity * (entryRaw * c.entryHalfSpread r +
      exitRaw * c.exitHalfSpread r))) * hsign
  rw [Decomposes, ← sub_eq_zero, hgap, ClosedTrade.SpreadRecovered, hentryRaw, hexitRaw]
  simp [hpos.ne']

lemma reportedExitDrag_eq_iff {m : CostModel} (hm : m.QuotedSpreads) (side : Side) (extended : Bool) :
    m.reportedExitDrag side (m.halfSpreadFraction extended) = m.halfSpreadFraction extended ↔
      m.halfSpreadFraction extended = m.halfSpreadFraction false := by
  obtain ⟨hregular, hregularle, hextended, hextendedle⟩ := hm
  have hnonneg : 0 ≤ m.halfSpreadFraction extended := by cases extended <;> assumption
  have hle : m.halfSpreadFraction extended ≤ 1 := by
    cases extended
    · linarith
    · exact hextendedle
  set drag := m.halfSpreadFraction extended
  set regular := m.halfSpreadFraction false
  -- both sides report the regular half spread of the fill price
  have hkey : ∀ base : ℚ, 0 < base → ∀ fill : ℚ, |fill - fill / base| = drag ↔ |fill * (base - 1)| = drag * base := by
    intro base hbase fill
    have hfactor : fill - fill / base = fill * (base - 1) / base := by field_simp
    rw [hfactor, abs_div, abs_of_pos hbase, div_eq_iff hbase.ne']
  rw [CostModel.reportedExitDrag]
  cases side with
  | buy =>
    have hbase : max (1 - Side.sign .buy * regular) (1 / 1000000000) = 1 - regular := by
      rw [Side.sign, one_mul]
      exact max_eq_left (by linarith)
    have hpos : 0 < 1 - regular := by linarith
    rw [hbase, hkey _ hpos, Side.sign, one_mul]
    have hsize : |(1 - drag) * (1 - regular - 1)| = (1 - drag) * regular := by
      rw [abs_mul, abs_of_nonneg (by linarith)]
      congr 1
      rw [abs_of_nonpos (by linarith)]
      ring
    rw [hsize]
    constructor <;> intro h <;> linarith
  | sell =>
    have hbase : max (1 - Side.sign .sell * regular) (1 / 1000000000) = 1 + regular := by
      rw [Side.sign, neg_one_mul, sub_neg_eq_add]
      exact max_eq_left (by linarith)
    have hpos : 0 < 1 + regular := by linarith
    rw [hbase, hkey _ hpos, Side.sign, neg_one_mul, sub_neg_eq_add, add_sub_cancel_left,
      abs_of_nonneg (by positivity)]
    constructor <;> intro h <;> linarith

lemma PricedTrade.spreadRecovered_iff {c : ClosedTrade} {costs : CostEvent} (h : PricedTrade r c costs)
    (hm : r.runConfig.costModel.QuotedSpreads) : c.SpreadRecovered r ↔
      c.exitHalfSpread r = r.runConfig.costModel.halfSpreadFraction false := by
  obtain ⟨_, action, exitRaw, hexit, hc, _⟩ := h
  have hexitRaw : c.exitReference r.normalized = exitRaw := by
    rw [hc, ClosedTrade.exitReference]
    exact (congrArg (·.getD 0) hexit.referenceAt).trans rfl
  have hpos : 0 < exitRaw := (exitFillPrice_ok hexit.price).1
  have hentryNonneg : 0 ≤ c.entryHalfSpread r := by
    rw [ClosedTrade.entryHalfSpread]
    cases isExtended r.clock c.trade.entryTime r.runConfig.barsPerYear
    · exact hm.regular_nonneg
    · exact hm.extended_nonneg
  have hentry : reportedEntryDrag c.trade.side (c.entryHalfSpread r) = c.entryHalfSpread r := by
    cases c.trade.side with
    | buy => exact max_eq_left hentryNonneg
    | sell => exact abs_of_nonneg hentryNonneg
  rw [ClosedTrade.SpreadRecovered, hentry, sub_self, mul_zero, zero_add, hexitRaw, mul_eq_zero,
    or_iff_right hpos.ne', sub_eq_zero]
  exact reportedExitDrag_eq_iff hm _ _

/-- A trade's cost event adds up to its gross minus its net exactly when the half spreads it
reports are the ones its fills paid; with ordinary spreads that is when the exit filled at the
regular half spread. -/
theorem cost_decomposition_iff {run : BacktestRun} (h : r.run = .ok run) :
    List.Forall₂ (fun c costs => Decomposes r.normalized c costs ↔ c.SpreadRecovered r)
      run.closed run.final.costEvents ∧
    (r.runConfig.costModel.QuotedSpreads → ∀ c ∈ run.closed, (c.SpreadRecovered r ↔
      c.exitHalfSpread r = r.runConfig.costModel.halfSpreadFraction false)) := by
  have hpriced := pricedTrades_run h
  refine ⟨hpriced.imp fun c costs hc => hc.decomposes_iff, ?_⟩
  intro hm c hc
  obtain ⟨costs, hpriced⟩ : ∃ costs, PricedTrade r c costs := by
    obtain ⟨i, hi, rfl⟩ := List.mem_iff_getElem.mp hc
    have hi' : i < run.final.costEvents.length := hpriced.length_eq ▸ hi
    exact ⟨_, hpriced.get hi hi'⟩
  exact hpriced.spreadRecovered_iff hm

-- A long bought inside the regular session is stopped out on the bar at 21:00 UTC
-- (16:00 in New York), where the wider spread applies.
def stoppedAfterHours : RunInput where
  clock := easternStandard
  config := { barsPerYear := 19656 }
  strategy window :=
    if window.length = 1 then some { action := .buy, price := some 100, stopLoss := some 90, takeProfit := some 120 }
    else none
  data :=
    [⟨1250 * microsPerMinute, 100, 101, 99, 100, 0⟩, ⟨1255 * microsPerMinute, 100, 101, 99, 100, 0⟩,
      ⟨1260 * microsPerMinute, 95, 96, 85, 88, 0⟩]

lemma stoppedAfterHours_run : ∃ run, stoppedAfterHours.run = .ok run ∧
    ¬ List.Forall₂ (Decomposes stoppedAfterHours.normalized) run.closed run.final.costEvents := by
  have h : stoppedAfterHours.run.toOption.any (fun run =>
      !decide (List.Forall₂ (Decomposes stoppedAfterHours.normalized) run.closed run.final.costEvents)) = true := by
    decide +kernel
  obtain ⟨run, hrun, hcosts⟩ := exists_ok_of_any h
  exact ⟨run, hrun, by simpa using hcosts⟩

theorem after_hours_stop_understates_spread : ∃ run, stoppedAfterHours.run = .ok run ∧
    ¬ List.Forall₂ (Decomposes stoppedAfterHours.normalized) run.closed run.final.costEvents :=
  stoppedAfterHours_run

lemma stoppedAfterHours_spreads : stoppedAfterHours.runConfig.costModel.QuotedSpreads :=
  ⟨by decide +kernel, by decide +kernel, by decide +kernel, by decide +kernel⟩

theorem cost_decomposition_after_hours : ∃ run, stoppedAfterHours.run = .ok run ∧
    ∀ c ∈ run.closed, (c.SpreadRecovered stoppedAfterHours ↔ c.exitHalfSpread stoppedAfterHours =
      stoppedAfterHours.runConfig.costModel.halfSpreadFraction false) := by
  obtain ⟨run, hrun, _⟩ := stoppedAfterHours_run
  exact ⟨run, hrun, (cost_decomposition_iff hrun).2 stoppedAfterHours_spreads⟩

end AlgoTrader.Backtesting
