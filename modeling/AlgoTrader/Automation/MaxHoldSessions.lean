import AlgoTrader.Automation.TimedExits
import AlgoTrader.Backtesting.ReachableFills
import AlgoTrader.Lib.Crossings

/-! The max-hold exit counts weekdays since the fill (``app/automation/max_hold_exit.py``), the engine's time stop
counts bars since the entry bar (``_evaluate_exit`` in ``app/backtesting/engine.py``). -/

namespace AlgoTrader.Automation.MaxHoldSessions

open AlgoTrader.Utils.Time (Timestamp NewYorkClock microsPerDay microsPerMinute midnight utcDate)
open AlgoTrader.Backtesting AlgoTrader.Models TimedExits Crossings

/-- Daily bars, one for each session, in order; a session is a weekday, and a weekday without a bar
is a market holiday. -/
structure DailyBars (sessionDate : Bar → ℤ) (bars : Frame) : Prop where
  inOrder : (bars.map sessionDate).Pairwise (· < ·)
  weekdays : ∀ bar ∈ bars, weekday (sessionDate bar) < 5

def AllWeekdaysTrade (sessionDate : Bar → ℤ) (bars : Frame) (first last : ℤ) : Prop :=
  ∀ date, first < date → date ≤ last → weekday date < 5 → date ∈ bars.map sessionDate

section Agreement

variable {newYorkDay : Timestamp → ℤ} {sessionDate : Bar → ℤ} {bars : Frame} {e : TimedExits.Execution}
  {trade : OpenTrade} {executions : List TimedExits.Execution} {tick : Tick}

def fillDay (newYorkDay : Timestamp → ℤ) (e : TimedExits.Execution) : ℤ := newYorkDay (e.filledAt.getD e.createdAt)

-- The paper position and the backtest trade of one signal, filled in the same session.
structure SameTrade (newYorkDay : Timestamp → ℤ) (sessionDate : Bar → ℤ) (bars : Frame) (e : TimedExits.Execution)
    (trade : OpenTrade) : Prop where
  daily : maxHoldTimeframes.contains e.timeframe.toLower
  signalled : ∃ signal : Signal, signal.metadata.maxHoldBars = e.maxHoldBars ∧ trade.maxHoldBars = maxHoldBars signal
  filled : (bars.map sessionDate)[trade.entryBarIndex]? = some (fillDay newYorkDay e)

structure Watched (tick : Tick) (executions : List TimedExits.Execution) (e : TimedExits.Execution) : Prop where
  enabled : tick.paperMaxHoldExitEnabled
  paper : tick.paper
  marketOpen : tick.clock.any Clock.isOpen
  entry : e ∈ openEntries executions
  held : tick.held.contains e.ticker

lemma sessionsSince_eq (entryDay today : ℤ) :
    sessionsSince entryDay today = (crossed (weekday · < 5) entryDay today).card := by
  rw [sessionsSince, ← List.countP_eq_length_filter, ← countP_range_succ_eq_card]
  simp only [List.bind_eq_flatMap, List.pure_def, ← List.map_eq_flatMap, List.countP_map, Function.comp_def]

lemma Watched.mem_dueEntries_iff (h : Watched tick executions e) :
    e ∈ dueEntries newYorkDay tick executions ↔ pastMaxHold newYorkDay tick.now e := by
  rw [dueEntries, if_pos (by simp [h.enabled, h.paper, h.marketOpen]), List.mem_filter, h.held, Bool.and_true]
  exact and_iff_right h.entry

lemma SameTrade.hold (same : SameTrade newYorkDay sessionDate bars e trade) : trade.maxHoldBars = maxHold e := by
  obtain ⟨signal, hbars, htrade⟩ := same.signalled
  rw [htrade, maxHoldBars, maxHold, hbars]

lemma maxHold_pos {hold : ℤ} (h : maxHold e = some hold) : 0 < hold := by
  rw [maxHold, Option.filter_eq_some_iff] at h
  exact of_decide_eq_true h.2

lemma SameTrade.pastMaxHold_iff (same : SameTrade newYorkDay sessionDate bars e trade) {hold : ℤ}
    (hhold : maxHold e = some hold) (now : Timestamp) :
    pastMaxHold newYorkDay now e ↔ hold ≤ sessionsSince (fillDay newYorkDay e) (newYorkDay now) := by
  rw [pastMaxHold, same.daily, hhold, Bool.true_and, Option.any_some, decide_eq_true_eq, fillDay]

lemma timeStopDue_iff {hold : ℤ} (h : trade.maxHoldBars = some hold) (index : ℕ) :
    timeStopDue trade index ↔ trade.entryBarIndex + hold ≤ index := by
  rw [timeStopDue, h]
  simp only [decide_eq_true_eq]
  omega

-- Nothing else in ``_evaluate_exit`` gives the reason, and nothing comes before it.
lemma rawExit_timeStop_iff (bar : Bar) (signal : Option Signal) (index : ℕ) (nextBar : Option Bar) :
    (∃ raw ∈ rawExit trade bar signal index nextBar, raw.reason = .timeStop) ↔ timeStopDue trade index := by
  constructor
  · rintro ⟨raw, hraw, hreason⟩
    cases leaves_of_rawExit hraw with
    | timeStop hdue => exact hdue
    | stop hdue hstop => cases hreason
    | target hdue hstop htarget => cases hreason
    | signal hnext => cases hreason
  · intro hdue
    exact ⟨⟨bar, index, bar.openPrice, .timeStop⟩, if_pos hdue, rfl⟩

lemma priced_reason {raw : RawExit} {clock : NewYorkClock} {config : EngineConfig} {side : Side} {action : ExitAction}
    (h : raw.priced clock config side = .ok action) : action.reason = raw.reason := by
  rw [RawExit.priced] at h
  cases hfill : config.costModel.exitFillPrice raw.price side
      (isExtended clock raw.bar.timestamp config.barsPerYear) with
  | error err =>
    rw [hfill] at h
    cases h
  | ok fill =>
    rw [hfill] at h
    cases h
    rfl

lemma evaluateExit_timeStop_iff {clock : NewYorkClock} {config : EngineConfig} {bar : Bar} {signal : Option Signal}
    {index : ℕ} {nextBar : Option Bar} {result : Option ExitAction}
    (h : evaluateExit clock config trade bar signal index nextBar = .ok result) :
    (∃ action ∈ result, action.reason = .timeStop) ↔ timeStopDue trade index := by
  rw [evaluateExit_eq] at h
  rw [← rawExit_timeStop_iff bar signal index nextBar]
  cases hraw : rawExit trade bar signal index nextBar with
  | none =>
    rw [hraw] at h
    cases h
    simp
  | some raw =>
    rw [hraw] at h
    change (raw.priced clock config trade.side).map some = .ok result at h
    cases hpriced : raw.priced clock config trade.side with
    | error err =>
      rw [hpriced] at h
      cases h
    | ok action =>
      rw [hpriced] at h
      cases h
      simp [priced_reason hpriced]

lemma sessionsSince_ge_iff (daily : DailyBars sessionDate bars) {j i : ℕ} {first last : ℤ}
    (hfirst : (bars.map sessionDate)[j]? = some first) (hlast : (bars.map sessionDate)[i]? = some last) {hold : ℤ}
    (hpos : 0 < hold) (hspan : hold = 1 ∨ AllWeekdaysTrade sessionDate bars first last) :
    hold ≤ sessionsSince first last ↔ j + hold ≤ i := by
  obtain ⟨hj, rfl⟩ := List.getElem?_eq_some_iff.mp hfirst
  obtain ⟨hi, rfl⟩ := List.getElem?_eq_some_iff.mp hlast
  have hmarked : ∀ date ∈ bars.map sessionDate, weekday date < 5 := by
    intro date hdate
    obtain ⟨bar, hbar, rfl⟩ := List.mem_map.mp hdate
    exact daily.weekdays bar hbar
  rw [sessionsSince_eq]
  rcases lt_or_ge j i with hji | hij
  · rcases hspan with rfl | hall
    · have hcount := sub_le_card_crossed (p := (weekday · < 5)) daily.inOrder hmarked hji.le hi
      omega
    · rw [card_crossed_eq_sub daily.inOrder hmarked hji.le hi hall]
      omega
  · have hback := getElem_le_getElem daily.inOrder hij hj
    have hnone : crossed (weekday · < 5) (bars.map sessionDate)[j] (bars.map sessionDate)[i] = ∅ := by
      rw [Finset.eq_empty_iff_forall_notMem]
      intro date hdate
      obtain ⟨hlt, hle, -⟩ := (mem_crossed _).mp hdate
      omega
    rw [hnone, Finset.card_empty]
    omega

theorem due_iff_time_stop (daily : DailyBars sessionDate bars) (same : SameTrade newYorkDay sessionDate bars e trade)
    (watched : Watched tick executions e) {hold : ℤ} (hhold : maxHold e = some hold) {index : ℕ} {bar : Bar}
    (hbar : bars[index]? = some bar) (htoday : newYorkDay tick.now = sessionDate bar)
    (hspan : hold = 1 ∨ AllWeekdaysTrade sessionDate bars (fillDay newYorkDay e) (newYorkDay tick.now)) :
    (e ∈ dueEntries newYorkDay tick executions ↔ trade.entryBarIndex + hold ≤ index) ∧
      ∀ clock config signal nextBar result, evaluateExit clock config trade bar signal index nextBar = .ok result →
        (e ∈ dueEntries newYorkDay tick executions ↔ ∃ action ∈ result, action.reason = .timeStop) := by
  have hlast : (bars.map sessionDate)[index]? = some (newYorkDay tick.now) := by
    rw [List.getElem?_map, hbar, htoday]
    rfl
  have hdue : e ∈ dueEntries newYorkDay tick executions ↔ trade.entryBarIndex + hold ≤ index := by
    rw [watched.mem_dueEntries_iff, same.pastMaxHold_iff hhold]
    exact sessionsSince_ge_iff daily same.filled hlast (maxHold_pos hhold) hspan
  refine ⟨hdue, fun clock config signal nextBar result hresult => ?_⟩
  rw [evaluateExit_timeStop_iff hresult, timeStopDue_iff (same.hold.trans hhold), hdue]

end Agreement

def fridayFill : TimedExits.Execution :=
  { id := "exe_1", symbol := "AAPL", timeframe := "1d", filledQty := 4, maxHoldBars := some 1
    createdAt := midnight 20763 + 15 * 60 * microsPerMinute }

def tuesdayTick : Tick :=
  { now := midnight 20767 + 15 * 60 * microsPerMinute
    clock := some ⟨true, none⟩
    positions := some ["AAPL"] }

-- Friday and Tuesday: the Monday between them is a holiday.
def holidayBars : Frame := [⟨midnight 20763, 100, 101, 99, 100, 0⟩, ⟨midnight 20767, 100, 101, 99, 100, 0⟩]

def fridayTrade : OpenTrade :=
  { entryTime := midnight 20763, entryPrice := 100, quantity := 4, side := .buy, stopLoss := none, takeProfit := none
    entryNotional := 400, entrySpreadUsd := 0, entryBarIndex := 0, maxHoldBars := some 1 }

theorem due_after_holiday :
    (fridayFill ∈ dueEntries utcDate tuesdayTick [fridayFill] ↔ ((0 : ℕ) : ℤ) + 1 ≤ (1 : ℕ)) ∧
      ∀ clock config signal nextBar result,
        evaluateExit clock config fridayTrade ⟨midnight 20767, 100, 101, 99, 100, 0⟩ signal 1 nextBar = .ok result →
        (fridayFill ∈ dueEntries utcDate tuesdayTick [fridayFill] ↔ ∃ action ∈ result, action.reason = .timeStop) := by
  have daily : DailyBars (utcDate ·.timestamp) holidayBars := ⟨by decide, by decide⟩
  have same : SameTrade utcDate (utcDate ·.timestamp) holidayBars fridayFill fridayTrade :=
    ⟨by decide +kernel, ⟨⟨.buy, none, none, none, ⟨none, some 1⟩⟩, rfl, rfl⟩, by decide⟩
  have watched : Watched tuesdayTick [fridayFill] fridayFill :=
    ⟨rfl, by decide +kernel, rfl, by decide +kernel, by decide +kernel⟩
  have hhold : maxHold fridayFill = some 1 := rfl
  have hbar : holidayBars[1]? = some ⟨midnight 20767, 100, 101, 99, 100, 0⟩ := rfl
  exact due_iff_time_stop daily same watched hhold hbar (by decide) (.inl rfl)

end AlgoTrader.Automation.MaxHoldSessions
