import AlgoTrader.Lib.Earliest
import AlgoTrader.Paper.BrokerLedger

/-! Exits sold by an order of their own (``_nearest_exit_snapshot`` in ``app/paper/service.py``). Every execution
without an exit leg picks the earliest sale that could be its own, whatever the others picked. -/

namespace AlgoTrader.Paper.SeparateExits

open AlgoTrader.Utils.Time Earliest

section Execution

variable (execution : ExecutionRow) (snapshots symbolSnapshots : List OrderSnapshot)

-- What ``_broker_execution_record`` reads of the entry.
def entryPayload : OrderPayload :=
  match parentSnapshot execution snapshots with
  | none => execution.brokerExecution
  | some item => execution.brokerExecution.merge item.payload

def entrySide : String := orText (entryPayload execution snapshots).side execution.side

def entryPrice : Option ℚ :=
  orNumber (entryPayload execution snapshots).filledAvgPrice
    ((parentSnapshot execution snapshots).bind (·.filledAvgPrice))

def entryQuantity : ℚ :=
  (orNumber (entryPayload execution snapshots).filledQty ((parentSnapshot execution snapshots).bind (·.filledQty))).getD 0

def entryTime : Option Timestamp :=
  (orStamp (entryPayload execution snapshots).filledAt (entryPayload execution snapshots).createdAt).time

def exitLeg : Option OrderLeg :=
  (brokerLegs execution snapshots (entryPayload execution snapshots)).find? (·.isExit)

def AwaitsExit : Prop :=
  exitLeg execution snapshots = none ∧ (entrySide execution snapshots).toLower = "buy" ∧
    0 < entryQuantity execution snapshots ∧ entryPrice execution snapshots ≠ none

instance : Decidable (AwaitsExit execution snapshots) := inferInstanceAs (Decidable (_ ∧ _))

/-- ``exit_snapshot`` of the execution's record. -/
def separateExit : Option OrderSnapshot :=
  if AwaitsExit execution snapshots then
    nearestExitSnapshot (entryPayload execution snapshots) symbolSnapshots (entryQuantity execution snapshots)
  else none

theorem exitFillPrice_eq : (brokerExecutionRecord execution snapshots symbolSnapshots).exitFillPrice =
    match exitLeg execution snapshots with
    | some leg => leg.filledAvgPrice
    | none => (separateExit execution snapshots symbolSnapshots).bind (·.filledAvgPrice) := by
  rw [separateExit]
  change (match exitLeg execution snapshots with
    | some leg => leg.filledAvgPrice
    | none => if (entrySide execution snapshots).toLower = "buy" ∧ 0 < entryQuantity execution snapshots ∧
        entryPrice execution snapshots ≠ none then
          (nearestExitSnapshot (entryPayload execution snapshots) symbolSnapshots
            (entryQuantity execution snapshots)).bind (·.filledAvgPrice)
        else none) = _
  cases hleg : exitLeg execution snapshots with
  | some leg => rfl
  | none =>
    simp only [AwaitsExit, hleg, true_and]
    split_ifs <;> rfl

def exitTime (item : OrderSnapshot) : Timestamp := (snapshotTimestamp item).getD 0

def candidates : List OrderSnapshot :=
  match entryTime execution snapshots with
  | none => []
  | some time => symbolSnapshots.filter (isMatchingSeparateExitSnapshot (entryQuantity execution snapshots) time)

variable {execution snapshots symbolSnapshots} {item : OrderSnapshot}

lemma mem_candidates : item ∈ candidates execution snapshots symbolSnapshots ↔
    ∃ time, entryTime execution snapshots = some time ∧ item ∈ symbolSnapshots ∧
      isMatchingSeparateExitSnapshot (entryQuantity execution snapshots) time item = true := by
  rw [candidates]
  cases entryTime execution snapshots with
  | none => simp
  | some time => simp

lemma matching_sale {filledQty : ℚ} {time : Timestamp} (h : isMatchingSeparateExitSnapshot filledQty time item = true) :
    item.side.toLower = "sell" ∧ item.status.toLower = "filled" ∧
      ∃ sold, snapshotTimestamp item = some sold ∧ time ≤ sold ∧ sold ≤ time + separateExitDays * microsPerDay := by
  rw [isMatchingSeparateExitSnapshot, Bool.and_eq_true, Bool.and_eq_true, Bool.and_eq_true, Bool.and_eq_true] at h
  obtain ⟨⟨⟨⟨_, hside⟩, hstatus⟩, htime⟩, _⟩ := h
  refine ⟨beq_iff_eq.mp hside, beq_iff_eq.mp hstatus, ?_⟩
  cases hsold : snapshotTimestamp item with
  | none =>
    rw [hsold] at htime
    cases htime
  | some sold =>
    rw [hsold] at htime
    exact ⟨sold, rfl, of_decide_eq_true htime⟩

theorem separateExit_eq_some_iff : separateExit execution snapshots symbolSnapshots = some item ↔
    AwaitsExit execution snapshots ∧ First exitTime (candidates execution snapshots symbolSnapshots) item := by
  rw [separateExit]
  split_ifs with hawaits
  swap
  · exact iff_of_false nofun fun h => hawaits h.1
  rw [and_iff_right hawaits, nearestExitSnapshot, candidates]
  change (match entryTime execution snapshots with
    | none => none
    | some parentTime =>
        (symbolSnapshots.filter (isMatchingSeparateExitSnapshot (entryQuantity execution snapshots) parentTime)).minOn?
          fun item => (snapshotTimestamp item).getD parentTime) = some item ↔ _
  cases entryTime execution snapshots with
  | none => exact iff_of_false nofun fun h => absurd h.mem List.not_mem_nil
  | some time =>
    dsimp only
    have htime : ∀ sale ∈ symbolSnapshots.filter
        (isMatchingSeparateExitSnapshot (entryQuantity execution snapshots) time),
        (snapshotTimestamp sale).getD time = exitTime sale := by
      intro sale hsale
      obtain ⟨_, _, sold, hsold, _⟩ := matching_sale (List.mem_filter.mp hsale).2
      rw [exitTime, hsold, Option.getD_some, Option.getD_some]
    rw [minOn?_eq_some_iff]
    exact ⟨fun h => h.congr htime, fun h => h.congr fun sale hsale => (htime sale hsale).symm⟩

end Execution

section Sync

variable (sync : Sync) (e f : ExecutionRow)

def ownOrders : List OrderSnapshot := sync.snapshots.filter (·.executionId = e.id)

def symbolOrders : List OrderSnapshot := sync.snapshots.filter (·.symbol.toUpper = e.symbol.toUpper)

def exitOf : Option OrderSnapshot := separateExit e (ownOrders sync e) (symbolOrders sync e)

def Awaits : Prop := AwaitsExit e (ownOrders sync e)

def salesFor : List OrderSnapshot := candidates e (ownOrders sync e) (symbolOrders sync e)

structure OneExitEach : Prop where
  once : ∀ e ∈ sync.executions, ∀ f ∈ sync.executions, ∀ item, exitOf sync e = some item → exitOf sync f = some item →
    e = f
  proper : ∀ e ∈ sync.executions, ∀ item, exitOf sync e = some item →
    item ∈ sync.snapshots ∧ item.symbol.toUpper = e.symbol.toUpper ∧
    (entrySide e (ownOrders sync e)).toLower = "buy" ∧ item.side.toLower = "sell" ∧ item.status.toLower = "filled" ∧
    ∃ bought sold, entryTime e (ownOrders sync e) = some bought ∧ snapshotTimestamp item = some sold ∧ bought ≤ sold
  booked : ∀ e ∈ sync.executions, ∀ item, exitOf sync e = some item →
    (brokerExecutionRecord e (ownOrders sync e) (symbolOrders sync e)).exitFillPrice = item.filledAvgPrice

/-- A sale that could be the exit of two executions comes after another that could be the exit of one of them. -/
def Uncontested : Prop :=
  ∀ e ∈ sync.executions, ∀ f ∈ sync.executions, e ≠ f → Awaits sync e → Awaits sync f →
    ∀ item ∈ salesFor sync e, item ∈ salesFor sync f →
      Preceded exitTime (salesFor sync e) item ∨ Preceded exitTime (salesFor sync f) item

variable {sync e f}

lemma exitOf_eq_some_iff {item : OrderSnapshot} :
    exitOf sync e = some item ↔ Awaits sync e ∧ First exitTime (salesFor sync e) item := separateExit_eq_some_iff

lemma proper_of_exitOf {item : OrderSnapshot} (h : exitOf sync e = some item) :
    item ∈ sync.snapshots ∧ item.symbol.toUpper = e.symbol.toUpper ∧
    (entrySide e (ownOrders sync e)).toLower = "buy" ∧ item.side.toLower = "sell" ∧ item.status.toLower = "filled" ∧
    ∃ bought sold, entryTime e (ownOrders sync e) = some bought ∧ snapshotTimestamp item = some sold ∧
      bought ≤ sold := by
  obtain ⟨hawaits, hfirst⟩ := exitOf_eq_some_iff.mp h
  obtain ⟨bought, hbought, hitem, hmatches⟩ := mem_candidates.mp hfirst.mem
  obtain ⟨hside, hstatus, sold, hsold, hafter, _⟩ := matching_sale hmatches
  obtain ⟨hlisted, hsymbol⟩ := List.mem_filter.mp hitem
  exact ⟨hlisted, of_decide_eq_true hsymbol, hawaits.2.1, hside, hstatus, bought, sold, hbought, hsold, hafter⟩

lemma booked_of_exitOf {item : OrderSnapshot} (h : exitOf sync e = some item) :
    (brokerExecutionRecord e (ownOrders sync e) (symbolOrders sync e)).exitFillPrice = item.filledAvgPrice := by
  have hleg : exitLeg e (ownOrders sync e) = none := (exitOf_eq_some_iff.mp h).1.1
  have hpick : separateExit e (ownOrders sync e) (symbolOrders sync e) = some item := h
  rw [exitFillPrice_eq, hleg, hpick]
  rfl

lemma symbolOrders_congr (h : e.symbol.toUpper = f.symbol.toUpper) : symbolOrders sync e = symbolOrders sync f := by
  rw [symbolOrders, symbolOrders, h]

lemma exitTime_eq {item : OrderSnapshot} {sold : Timestamp} (h : snapshotTimestamp item = some sold) :
    exitTime item = sold := by
  rw [exitTime, h, Option.getD_some]

lemma matching_later {filledQty : ℚ} {time time' : Timestamp} {item : OrderSnapshot}
    (h : isMatchingSeparateExitSnapshot filledQty time item = true) (hafter : time' ≤ exitTime item)
    (hweek : exitTime item ≤ time' + separateExitDays * microsPerDay) :
    isMatchingSeparateExitSnapshot filledQty time' item = true := by
  obtain ⟨_, _, sold, hsold, _⟩ := matching_sale h
  rw [exitTime_eq hsold] at hafter hweek
  rw [isMatchingSeparateExitSnapshot, hsold] at h ⊢
  simp only [Bool.and_eq_true, decide_eq_true_eq] at h ⊢
  exact ⟨⟨h.1.1, hafter, hweek⟩, h.2⟩

/-- Two purchases of one size in a symbol, the first not sold when the second is made: both pick the first sale
after the second, if it comes within a week of the first. -/
theorem both_pick {bought bought' : Timestamp} {item : OrderSnapshot} (he : Awaits sync e)
    (hsymbol : e.symbol.toUpper = f.symbol.toUpper)
    (hsize : entryQuantity e (ownOrders sync e) = entryQuantity f (ownOrders sync f))
    (hbought : entryTime e (ownOrders sync e) = some bought) (hbought' : entryTime f (ownOrders sync f) = some bought')
    (horder : bought ≤ bought') (hunsold : ∀ sale ∈ salesFor sync e, bought' ≤ exitTime sale)
    (hpick : exitOf sync f = some item) (hweek : exitTime item ≤ bought + separateExitDays * microsPerDay) :
    exitOf sync e = some item := by
  obtain ⟨_, hfirst⟩ := exitOf_eq_some_iff.mp hpick
  have hsales : salesFor sync f = (symbolOrders sync e).filter
      (isMatchingSeparateExitSnapshot (entryQuantity e (ownOrders sync e)) bought') := by
    rw [salesFor, candidates, hbought', symbolOrders_congr hsymbol, hsize]
  have hsales' : salesFor sync e = (salesFor sync f).filter
      (isMatchingSeparateExitSnapshot (entryQuantity e (ownOrders sync e)) bought) := by
    rw [hsales, List.filter_filter, salesFor, candidates, hbought]
    refine List.filter_congr fun sale hsale => ?_
    rw [Bool.eq_iff_iff, Bool.and_eq_true]
    refine ⟨fun hmatch => ⟨hmatch, ?_⟩, And.left⟩
    have hafter := hunsold sale (mem_candidates.mpr ⟨bought, hbought, hsale, hmatch⟩)
    obtain ⟨_, _, sold, hsold, _, hwithin⟩ := matching_sale hmatch
    refine matching_later hmatch hafter ?_
    rw [exitTime_eq hsold]
    exact hwithin.trans (Int.add_le_add_right horder _)
  have hmatch : isMatchingSeparateExitSnapshot (entryQuantity e (ownOrders sync e)) bought item = true := by
    obtain ⟨time, htime, _, hmatch⟩ := mem_candidates.mp hfirst.mem
    rw [hbought'] at htime
    cases htime
    rw [← hsize] at hmatch
    obtain ⟨_, _, sold, hsold, hafter, _⟩ := matching_sale hmatch
    refine matching_later hmatch ?_ hweek
    rw [exitTime_eq hsold]
    exact horder.trans hafter
  refine exitOf_eq_some_iff.mpr ⟨he, ?_⟩
  rw [hsales']
  exact hfirst.filter hmatch

theorem one_exit_each_iff (sync : Sync) : OneExitEach sync ↔ Uncontested sync := by
  constructor
  · intro h e he f hf hne hawaits hawaits' item _ _
    by_contra hpreceded
    rw [not_or, ← not_first_iff, ← not_first_iff, not_not, not_not] at hpreceded
    exact hne (h.once e he f hf item (exitOf_eq_some_iff.mpr ⟨hawaits, hpreceded.1⟩)
      (exitOf_eq_some_iff.mpr ⟨hawaits', hpreceded.2⟩))
  · intro h
    refine ⟨fun e he f hf item hpick hpick' => ?_, fun e _ item hpick => proper_of_exitOf hpick,
      fun e _ item hpick => booked_of_exitOf hpick⟩
    obtain ⟨hawaits, hfirst⟩ := exitOf_eq_some_iff.mp hpick
    obtain ⟨hawaits', hfirst'⟩ := exitOf_eq_some_iff.mp hpick'
    by_contra hne
    rcases h e he f hf hne hawaits hawaits' item hfirst.mem hfirst'.mem with hpreceded | hpreceded
    · exact not_first_iff.mpr hpreceded hfirst
    · exact not_first_iff.mpr hpreceded hfirst'

end Sync

def purchase (id : String) : ExecutionRow where
  id := id
  brokerOrderId := id
  symbol := "AAPL"
  side := "buy"
  stopLoss := none
  brokerExecution := {}

def order (id executionId side : String) (price : ℚ) (filledAt : IsoText) : OrderSnapshot where
  brokerOrderId := id
  parentOrderId := ""
  executionId := executionId
  symbol := "AAPL"
  side := side
  status := "filled"
  filledQty := some 10
  filledAvgPrice := some price
  createdAt := filledAt
  payload := { filledAt }

def soldTen : OrderSnapshot := order "sale" "" "sell" 120 ⟨"2026-01-07", some 172800000000⟩

def boughtTwiceSoldOnce : Sync where
  executions := [purchase "first", purchase "second"]
  snapshots := [order "first" "first" "buy" 100 ⟨"2026-01-05", some 0⟩,
    order "second" "second" "buy" 110 ⟨"2026-01-06", some 86400000000⟩, soldTen]
  now := "2026-01-08"
  ids_nodup := by decide

/-- Twenty shares bought in two orders, ten of them sold: both positions are booked as sold. -/
theorem one_sale_booked_twice : ¬ OneExitEach boughtTwiceSoldOnce ∧
    (Runs.run Ledger.apply {} (syncBrokerBackedPositions {} boughtTwiceSoldOnce)).trades.map
      (fun trade => (trade.executionId, trade.quantity, trade.exitPrice, trade.realizedPnlUsd)) =
      [(some "first", 10, 120, 200), (some "second", 10, 120, 100)] := by
  constructor
  · intro h
    have hpick : ∀ id ∈ ["first", "second"], exitOf boughtTwiceSoldOnce (purchase id) = some soldTen := by
      have hids : ∀ id ∈ ["first", "second"],
          (exitOf boughtTwiceSoldOnce (purchase id)).map (·.brokerOrderId) = some "sale" := by decide +kernel
      intro id hid
      obtain ⟨item, hitem, hsale⟩ := Option.map_eq_some_iff.mp (hids id hid)
      have hlisted := (proper_of_exitOf hitem).1
      rw [hitem]
      rcases List.mem_cons.mp hlisted with rfl | hlisted
      · exact absurd hsale (by decide)
      rcases List.mem_cons.mp hlisted with rfl | hlisted
      · exact absurd hsale (by decide)
      rw [List.mem_singleton.mp hlisted]
    have heq := h.once (purchase "first") List.mem_cons_self (purchase "second")
      (List.mem_cons_of_mem _ List.mem_cons_self) soldTen (hpick "first" (by decide)) (hpick "second" (by decide))
    exact absurd (congrArg ExecutionRow.id heq) (by decide)
  · decide +kernel

end AlgoTrader.Paper.SeparateExits
