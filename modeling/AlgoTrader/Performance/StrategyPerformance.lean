import AlgoTrader.Lib.Drawdown
import AlgoTrader.Lib.Rotation
import AlgoTrader.Lib.Rounding
import AlgoTrader.Lib.Tally
import AlgoTrader.Lib.Text
import Mathlib.Algebra.Group.Action.Defs
import Mathlib.Algebra.Order.Group.MinMax
import Mathlib.Algebra.Order.Ring.Rat
import Mathlib.Data.List.Sort
import Mathlib.Data.String.Basic
import Mathlib.Tactic.Linarith
import Mathlib.Tactic.Ring

/-! The live performance of each strategy and the demotion that follows from it
(``app/performance/strategy_performance.py``), up to the scan that leaves a demoted strategy out
(``app/screener/service.py``). -/

namespace AlgoTrader.Performance

open Rounding (toDigits)

/-- A closed trade of the paper ledger. ``realizedR`` is the payload's ``realized_r_multiple``. -/
structure ClosedTrade where
  strategyName : String
  realizedPnlUsd : ℚ
  closedAt : String
  paperOnly : Bool := false
  realizedR : Option ℚ := none
  deriving DecidableEq

def withoutPaperOnly (trades : List ClosedTrade) : List ClosedTrade := trades.filter fun trade => !trade.paperOnly

def ClosedTrade.name (trade : ClosedTrade) : String :=
  if trade.strategyName = "" then "unknown" else trade.strategyName

structure StrategyLivePerformance where
  strategyName : String
  trades : ℕ
  winRate : ℚ
  expectancyUsd : ℚ
  profitFactor : ℚ
  realizedPnlUsd : ℚ
  grossProfitUsd : ℚ
  grossLossUsd : ℚ
  averageRMultiple : ℚ
  maxDrawdownUsd : ℚ
  deriving DecidableEq

def profitFactorInfSentinel : ℚ := 99

def profitFactor (grossProfit grossLoss : ℚ) : ℚ :=
  if 0 < grossLoss then grossProfit / grossLoss else if 0 < grossProfit then profitFactorInfSentinel else 0

structure EquityLoop where
  equity : ℚ := 0
  peak : ℚ := 0
  maxDd : ℚ := 0

def EquityLoop.step (loop : EquityLoop) (pnl : ℚ) : EquityLoop :=
  let equity := loop.equity + pnl
  let peak := max loop.peak equity
  ⟨equity, peak, min loop.maxDd (equity - peak)⟩

def maxDrawdownUsd (pnls : List ℚ) : ℚ := |(pnls.foldl EquityLoop.step {}).maxDd|

def tradesOf (trades : List ClosedTrade) (name : String) : List ClosedTrade :=
  (trades.filter (·.name = name)).insertionSort (·.closedAt ≤ ·.closedAt)

def performanceOf (name : String) (ordered : List ClosedTrade) : StrategyLivePerformance :=
  let pnls := ordered.map ClosedTrade.realizedPnlUsd
  let n := pnls.length
  let winners := pnls.filter (0 < ·)
  let grossProfit := winners.sum
  let grossLoss := |(pnls.filter (· < 0)).sum|
  let rValues := ordered.filterMap ClosedTrade.realizedR
  { strategyName := name
    trades := n
    winRate := if n = 0 then 0 else toDigits 2 (winners.length / n * 100)
    expectancyUsd := if n = 0 then 0 else toDigits 2 (pnls.sum / n)
    profitFactor := toDigits 2 (profitFactor grossProfit grossLoss)
    realizedPnlUsd := toDigits 2 pnls.sum
    grossProfitUsd := toDigits 2 grossProfit
    grossLossUsd := toDigits 2 grossLoss
    averageRMultiple := if rValues = [] then 0 else toDigits 2 (rValues.sum / rValues.length)
    maxDrawdownUsd := toDigits 2 (maxDrawdownUsd pnls) }

def analyzeByStrategy (trades : List ClosedTrade) : List StrategyLivePerformance :=
  ((trades.map ClosedTrade.name).eraseDups.map fun name => performanceOf name (tradesOf trades name)).insertionSort
    fun a b => b.realizedPnlUsd ≤ a.realizedPnlUsd

inductive DecayStatus
  | insufficientData
  | healthy
  | decaying
  | dead
  deriving DecidableEq, Repr

inductive DecayAction
  | keep
  | watch
  | demote
  deriving DecidableEq, Repr

inductive DecayReason
  | onlyTrades (trades : ℕ) (minTrades : ℤ)
  | notEarning (expectancy : ℚ) (trades : ℕ)
  | eroding (ratio threshold : ℚ)
  | ofBacktest (ratio : ℚ)
  | noBaseline
  deriving DecidableEq

structure StrategyDecayVerdict where
  strategyName : String
  trades : ℕ
  liveExpectancyUsd : ℚ
  backtestExpectancyUsd : Option ℚ
  retentionRatio : Option ℚ
  status : DecayStatus
  action : DecayAction
  reason : DecayReason
  deriving DecidableEq

def retentionRatio (live : StrategyLivePerformance) (backtest : Option ℚ) : Option ℚ :=
  backtest.bind fun expectancy => if 0 < expectancy then some (toDigits 3 (live.expectancyUsd / expectancy)) else none

def judgeDecay (live : StrategyLivePerformance) (ratio : Option ℚ) (minTrades : ℤ) (threshold : ℚ) :
    DecayStatus × DecayAction × DecayReason :=
  if live.trades < minTrades then (.insufficientData, .keep, .onlyTrades live.trades minTrades)
  else if live.expectancyUsd ≤ 0 then (.dead, .demote, .notEarning live.expectancyUsd live.trades)
  else match ratio with
    | none => (.healthy, .keep, .noBaseline)
    | some ratio => if ratio < threshold then (.decaying, .watch, .eroding ratio threshold)
      else (.healthy, .keep, .ofBacktest ratio)

def decayVerdict (live : StrategyLivePerformance) (backtest : Option ℚ) (minTrades : ℤ) (threshold : ℚ) :
    StrategyDecayVerdict :=
  let ratio := retentionRatio live backtest
  let verdict := judgeDecay live ratio minTrades threshold
  ⟨live.strategyName, live.trades, live.expectancyUsd, backtest, ratio, verdict.1, verdict.2.1, verdict.2.2⟩

section Demotion

variable (trades : List ClosedTrade) (baseline : String → Option ℚ) (minTrades : ℤ) (threshold : ℚ)

def strategyDemoteVerdicts : List StrategyDecayVerdict :=
  (analyzeByStrategy (withoutPaperOnly trades)).map fun live =>
    decayVerdict live (baseline live.strategyName) minTrades threshold

def demotedStrategyNames : List String :=
  ((strategyDemoteVerdicts trades baseline minTrades threshold).filter (·.action = .demote)).map
    StrategyDecayVerdict.strategyName

end Demotion

def ClosedTrade.day (trade : ClosedTrade) : String := String.ofList (trade.closedAt.toList.take 10)

structure DayRow where
  date : String
  realizedPnlUsd : ℚ
  trades : ℕ
  cumulativePnlUsd : ℚ
  deriving DecidableEq

def closingDays (trades : List ClosedTrade) : List String :=
  ((trades.map ClosedTrade.day).filter (· ≠ "")).eraseDups.insertionSort (· ≤ ·)

def dayPnls (trades : List ClosedTrade) (day : String) : List ℚ :=
  (trades.filter (·.day = day)).map ClosedTrade.realizedPnlUsd

def rowsFrom (trades : List ClosedTrade) : ℚ → List String → List DayRow
  | _, [] => []
  | cumulative, day :: rest =>
    let pnl := toDigits 2 (dayPnls trades day).sum
    let total := toDigits 2 (cumulative + pnl)
    ⟨day, pnl, (dayPnls trades day).length, total⟩ :: rowsFrom trades total rest

def dailyPnlSeries (trades : List ClosedTrade) : List DayRow := rowsFrom trades 0 (closingDays trades)

structure ScanSettings where
  stage1DecayMinTrades : ℤ := 20
  strategyAutoDemoteEnabled : Bool := false

def ScanSettings.minTrades (settings : ScanSettings) : ℤ :=
  if settings.stage1DecayMinTrades = 0 then 20 else settings.stage1DecayMinTrades

def normalName (name : String) : String := (Text.strip name).toLower

def setDemotedStrategies (names : List String) : List String :=
  (names.filter (Text.strip · ≠ "")).map normalName

def filterOutDemoted {Spec : Type} (name : Spec → String) (specs : List Spec) (demoted : List String)
    (enabled : Bool) : List Spec :=
  if enabled = false ∨ demoted = [] then specs else specs.filter fun spec => normalName (name spec) ∉ demoted

/-- What happens to the names that the screener holds as demoted: a refresh reads the paper ledger and the
backtests' expectancies, or fails, and a restart forgets them. -/
inductive ScreenerEvent
  | refresh (trades : List ClosedTrade) (baseline : String → Option ℚ)
  | refreshFails
  | restart

def screenerStep (settings : ScanSettings) (demoted : List String) : ScreenerEvent → List String
  | .refresh trades baseline => setDemotedStrategies (demotedStrategyNames trades baseline settings.minTrades (1 / 2))
  | .refreshFails => demoted
  | .restart => []

def screenerRun (settings : ScanSettings) (events : List ScreenerEvent) : List String :=
  events.foldl (screenerStep settings) []

/-- The trades that count for a strategy's name: at least as many as needed, of which the average is not
above half a cent. A sum of floats may miss the tie: 50 trades of 0.25 in all average the float 0.005, which lies above
half a cent and keeps the strategy. -/
structure Losing (minTrades : ℤ) (trades : List ClosedTrade) (name : String) : Prop where
  traded : ∃ trade ∈ trades, trade.paperOnly = false ∧ trade.name = name
  enough : minTrades ≤ (trades.filter fun trade => !trade.paperOnly && trade.name = name).length
  average : ((trades.filter fun trade => !trade.paperOnly && trade.name = name).map ClosedTrade.realizedPnlUsd).sum ≤
    (trades.filter fun trade => !trade.paperOnly && trade.name = name).length / 200

section Demoted

variable {trades : List ClosedTrade} {baseline : String → Option ℚ} {minTrades : ℤ} {threshold : ℚ} {name : String}

lemma judgeDecay_demote_iff {live : StrategyLivePerformance} {ratio : Option ℚ} :
    (judgeDecay live ratio minTrades threshold).2.1 = .demote ↔ minTrades ≤ live.trades ∧ live.expectancyUsd ≤ 0 := by
  unfold judgeDecay
  split_ifs with hfew hdead
  · exact iff_of_false (fun h => nomatch h) fun h => absurd h.1 (not_le.mpr hfew)
  · exact iff_of_true rfl ⟨not_lt.mp hfew, hdead⟩
  · refine iff_of_false (fun h => ?_) fun h => hdead h.2
    cases ratio with
    | none => exact nomatch h
    | some ratio =>
      dsimp only at h
      split_ifs at h

lemma tradesOf_perm (trades : List ClosedTrade) (name : String) :
    (tradesOf trades name).Perm (trades.filter (·.name = name)) := List.perm_insertionSort _ _

lemma mem_analyzeByStrategy {live : StrategyLivePerformance} : live ∈ analyzeByStrategy trades ↔
    ∃ name, (∃ trade ∈ trades, trade.name = name) ∧ live = performanceOf name (tradesOf trades name) := by
  rw [analyzeByStrategy, List.mem_insertionSort, List.mem_map]
  simp only [List.mem_eraseDups, List.mem_map, eq_comm]

lemma rounded_average_nonpos_iff {n : ℕ} (hn : n ≠ 0) (total : ℚ) : toDigits 2 (total / n) ≤ 0 ↔ total ≤ n / 200 := by
  have hpos : (0 : ℚ) < n := Nat.cast_pos.mpr (Nat.pos_of_ne_zero hn)
  rw [← not_lt, Rounding.toDigits_pos_iff, not_lt, div_le_iff₀ hpos]
  constructor <;> intro h <;> linarith

lemma performanceOf_tradesOf_dead_iff (hname : ∃ trade ∈ trades, trade.name = name) :
    minTrades ≤ (performanceOf name (tradesOf trades name)).trades ∧
      (performanceOf name (tradesOf trades name)).expectancyUsd ≤ 0 ↔
    minTrades ≤ (trades.filter (·.name = name)).length ∧
      ((trades.filter (·.name = name)).map ClosedTrade.realizedPnlUsd).sum ≤
        (trades.filter (·.name = name)).length / 200 := by
  have hperm := (tradesOf_perm trades name).map ClosedTrade.realizedPnlUsd
  have hlength : ((tradesOf trades name).map ClosedTrade.realizedPnlUsd).length =
      (trades.filter (·.name = name)).length := by
    rw [hperm.length_eq, List.length_map]
  have hne : (trades.filter (·.name = name)).length ≠ 0 := by
    obtain ⟨trade, htrade, hnamed⟩ := hname
    exact (List.length_pos_of_mem (List.mem_filter.mpr ⟨htrade, decide_eq_true hnamed⟩)).ne'
  rw [performanceOf]
  dsimp only
  rw [hlength, hperm.sum_eq, if_neg hne, rounded_average_nonpos_iff hne]

lemma mem_demotedStrategyNames :
    name ∈ demotedStrategyNames trades baseline minTrades threshold ↔ Losing minTrades trades name := by
  have hfilter (name : String) : (withoutPaperOnly trades).filter (·.name = name) =
      trades.filter fun trade => !trade.paperOnly && trade.name = name := by
    rw [withoutPaperOnly, List.filter_filter]
    exact List.filter_congr fun trade _ => Bool.and_comm _ _
  have htraded (name : String) : (∃ trade ∈ withoutPaperOnly trades, trade.name = name) ↔
      ∃ trade ∈ trades, trade.paperOnly = false ∧ trade.name = name := by
    simp only [withoutPaperOnly, List.mem_filter, Bool.not_eq_eq_eq_not, Bool.not_true, and_assoc]
  have hverdict : name ∈ demotedStrategyNames trades baseline minTrades threshold ↔
      ∃ live ∈ analyzeByStrategy (withoutPaperOnly trades), live.strategyName = name ∧
        minTrades ≤ live.trades ∧ live.expectancyUsd ≤ 0 := by
    simp only [demotedStrategyNames, strategyDemoteVerdicts, List.mem_map, List.mem_filter, decide_eq_true_eq]
    constructor
    · rintro ⟨-, ⟨⟨live, hlive, rfl⟩, hdemote⟩, rfl⟩
      exact ⟨live, hlive, rfl, judgeDecay_demote_iff.mp hdemote⟩
    · rintro ⟨live, hlive, rfl, hdead⟩
      exact ⟨_, ⟨⟨live, hlive, rfl⟩, judgeDecay_demote_iff.mpr hdead⟩, rfl⟩
  rw [hverdict]
  constructor
  · rintro ⟨live, hlive, rfl, hdead⟩
    obtain ⟨name, hname, rfl⟩ := mem_analyzeByStrategy.mp hlive
    have h := (performanceOf_tradesOf_dead_iff hname).mp hdead
    rw [hfilter] at h
    exact ⟨(htraded name).mp hname, h.1, h.2⟩
  · intro h
    have hname := (htraded name).mpr h.traded
    refine ⟨_, mem_analyzeByStrategy.mpr ⟨name, hname, rfl⟩, rfl, (performanceOf_tradesOf_dead_iff hname).mpr ?_⟩
    rw [hfilter]
    exact ⟨h.enough, h.average⟩

end Demoted

def lastRead (events : List ScreenerEvent) : Option (List ClosedTrade) :=
  events.foldl (fun last event => match event with
    | .refresh trades _ => some trades
    | .refreshFails => last
    | .restart => none) none

lemma mem_screenerRun {settings : ScanSettings} {events : List ScreenerEvent} {demoted : String} :
    demoted ∈ screenerRun settings events ↔ ∃ trades, lastRead events = some trades ∧ ∃ name,
      Losing settings.minTrades trades name ∧ Text.strip name ≠ "" ∧ normalName name = demoted := by
  induction events using List.reverseRecOn with
  | nil => exact iff_of_false List.not_mem_nil fun ⟨_, h, _⟩ => nomatch h
  | append_singleton events event ih =>
    rw [screenerRun, lastRead, List.foldl_append, List.foldl_append]
    cases event with
    | refresh trades baseline =>
      have hset : demoted ∈ setDemotedStrategies (demotedStrategyNames trades baseline settings.minTrades (1 / 2)) ↔
          ∃ name, Losing settings.minTrades trades name ∧ Text.strip name ≠ "" ∧ normalName name = demoted := by
        simp only [setDemotedStrategies, List.mem_map, List.mem_filter, mem_demotedStrategyNames, decide_eq_true_eq,
          and_assoc]
      refine hset.trans ⟨fun h => ⟨trades, rfl, h⟩, ?_⟩
      rintro ⟨last, hlast, h⟩
      obtain rfl := Option.some.inj hlast
      exact h
    | refreshFails => exact ih
    | restart => exact iff_of_false List.not_mem_nil fun ⟨_, h, _⟩ => nomatch h

/-- After any run, a scan keeps a strategy unless demotion is enforced and the ledger that was last read
shows a name, equal to the strategy's up to case and blanks, whose own counted trades lose. -/
theorem scanned_iff (settings : ScanSettings) (events : List ScreenerEvent) {Spec : Type} (name : Spec → String)
    (specs : List Spec) (spec : Spec) :
    spec ∈ filterOutDemoted name specs (screenerRun settings events) settings.strategyAutoDemoteEnabled ↔
      spec ∈ specs ∧ ¬ (settings.strategyAutoDemoteEnabled = true ∧ ∃ trades, lastRead events = some trades ∧
        ∃ losing, Losing settings.minTrades trades losing ∧ Text.strip losing ≠ "" ∧
          normalName losing = normalName (name spec)) := by
  rw [← mem_screenerRun, filterOutDemoted]
  split_ifs with hinert
  · refine (and_iff_left ?_).symm
    rintro ⟨henabled, hmem⟩
    rcases hinert with hoff | hnone
    · exact absurd henabled (Bool.eq_false_iff.mp hoff)
    · exact List.not_mem_nil (hnone ▸ hmem)
  · rw [not_or, Bool.not_eq_false] at hinert
    rw [List.mem_filter, decide_eq_true_eq]
    exact and_congr_right fun _ => ⟨fun h hdemoted => h hdemoted.2, fun h hmem => h ⟨hinert.1, hmem⟩⟩

lemma equityLoop_eq (pnls : List ℚ) : pnls.foldl EquityLoop.step {} = ⟨(Drawdown.Curve.of pnls).equity,
    (Drawdown.Curve.of pnls).mark.peak, -(Drawdown.Curve.of pnls).mark.worst⟩ := by
  induction pnls using List.reverseRecOn with
  | nil => rfl
  | append_singleton pnls pnl ih =>
    rw [List.foldl_append, List.foldl_cons, List.foldl_nil, ih, Drawdown.Curve.of_concat, EquityLoop.step,
      Drawdown.Curve.add, Drawdown.Mark.see]
    dsimp only
    rw [← neg_sub (max _ _), min_neg_neg]

lemma isGreatest_maxDrawdownUsd (pnls : List ℚ) : IsGreatest (Drawdown.losses pnls) (maxDrawdownUsd pnls) := by
  have h := (Drawdown.Curve.tracks_of pnls).worst
  have hnonneg : 0 ≤ (Drawdown.Curve.of pnls).mark.worst := h.2 ⟨[], List.nil_infix, neg_zero.symm⟩
  rw [maxDrawdownUsd, equityLoop_eq, abs_neg, abs_of_nonneg hnonneg]
  exact h

section Days

variable {trades : List ClosedTrade} {cumulative : ℚ} {days : List String}

lemma rowsFrom_date (trades : List ClosedTrade) (cumulative : ℚ) (days : List String) :
    (rowsFrom trades cumulative days).map DayRow.date = days := by
  induction days generalizing cumulative with
  | nil => rfl
  | cons day rest ih => rw [rowsFrom, List.map_cons, ih]

lemma mem_rowsFrom {row : DayRow} (h : row ∈ rowsFrom trades cumulative days) :
    row.realizedPnlUsd = toDigits 2 (dayPnls trades row.date).sum ∧ row.trades = (dayPnls trades row.date).length := by
  induction days generalizing cumulative with
  | nil => exact absurd h List.not_mem_nil
  | cons day rest ih =>
    rcases List.mem_cons.mp h with rfl | hrest
    · exact ⟨rfl, rfl⟩
    · exact ih hrest

lemma rowsFrom_cumulative (hrounded : Rounding.Rounded 2 cumulative) {before after : List DayRow} {row : DayRow}
    (h : rowsFrom trades cumulative days = before ++ row :: after) :
    row.cumulativePnlUsd = cumulative + (before.map DayRow.realizedPnlUsd).sum + row.realizedPnlUsd := by
  induction days generalizing cumulative before with
  | nil => exact absurd h.symm (List.append_ne_nil_of_right_ne_nil before (List.cons_ne_nil _ _))
  | cons day rest ih =>
    have htotal := hrounded.add (Rounding.rounded_toDigits 2 (dayPnls trades day).sum)
    rw [rowsFrom] at h
    cases before with
    | nil =>
      obtain ⟨rfl, -⟩ := List.cons.inj h
      rw [List.map_nil, List.sum_nil, add_zero]
      exact htotal.toDigits_eq
    | cons first others =>
      obtain ⟨rfl, hrest⟩ := List.cons.inj h
      rw [htotal.toDigits_eq] at hrest
      rw [ih htotal hrest, List.map_cons, List.sum_cons]
      ring

lemma mem_closingDays {day : String} : day ∈ closingDays trades ↔ day ≠ "" ∧ ∃ trade ∈ trades, trade.day = day := by
  rw [closingDays, List.mem_insertionSort, List.mem_eraseDups, List.mem_filter, List.mem_map, decide_eq_true_eq,
    and_comm]

lemma closingDays_pairwise (trades : List ClosedTrade) : (closingDays trades).Pairwise (· < ·) := by
  have hsorted : (closingDays trades).Pairwise (· ≤ ·) := List.pairwise_insertionSort _ _
  have hnodup : (closingDays trades).Nodup := (List.perm_insertionSort _ _).nodup_iff.mpr (Rotation.nodup_eraseDups _)
  exact (hsorted.and hnodup).imp fun h => lt_of_le_of_ne h.1 h.2

def dated (trades : List ClosedTrade) : List ClosedTrade := trades.filter (·.day ≠ "")

structure SeriesOf (trades : List ClosedTrade) (series : List DayRow) : Prop where
  dates : (series.map DayRow.date).Pairwise (· < ·)
  days : ∀ day, day ∈ series.map DayRow.date ↔ day ≠ "" ∧ ∃ trade ∈ trades, trade.day = day
  rows : ∀ row ∈ series, row.realizedPnlUsd = toDigits 2 (dayPnls trades row.date).sum ∧
    row.trades = (dayPnls trades row.date).length
  cumulative : ∀ before row after, series = before ++ row :: after →
    row.cumulativePnlUsd = ((before ++ [row]).map DayRow.realizedPnlUsd).sum
  total : (series.map DayRow.trades).sum = (dated trades).length
  realized : |(series.map DayRow.realizedPnlUsd).sum - ((dated trades).map ClosedTrade.realizedPnlUsd).sum| ≤
    series.length / 200

lemma dayPnls_dated {day : String} (h : day ≠ "") :
    dayPnls trades day = ((dated trades).filter (·.day = day)).map ClosedTrade.realizedPnlUsd := by
  rw [dayPnls, dated, List.filter_filter]
  refine congrArg (List.map ClosedTrade.realizedPnlUsd) (List.filter_congr fun trade _ => ?_)
  rw [Bool.eq_iff_iff, Bool.and_eq_true, decide_eq_true_eq, decide_eq_true_eq]
  exact ⟨fun hday => ⟨hday, hday ▸ h⟩, And.left⟩

lemma dailyPnlSeries_map {β : Type*} (f : DayRow → β) (g : String → β)
    (h : ∀ row ∈ dailyPnlSeries trades, f row = g row.date) :
    (dailyPnlSeries trades).map f = (closingDays trades).map g := by
  rw [← rowsFrom_date trades 0 (closingDays trades), List.map_map]
  exact List.map_congr_left h

lemma sum_days {M : Type*} [AddCommMonoid M] (f : ClosedTrade → M) :
    ((closingDays trades).map fun day => (((dated trades).filter (·.day = day)).map f).sum).sum =
      ((dated trades).map f).sum := by
  refine Tally.sum_parts f ((closingDays_pairwise trades).imp ne_of_lt) fun trade htrade => ?_
  obtain ⟨hmem, hday⟩ := List.mem_filter.mp htrade
  exact mem_closingDays.mpr ⟨of_decide_eq_true hday, trade, hmem, rfl⟩

theorem dailyPnlSeries_of (trades : List ClosedTrade) : SeriesOf trades (dailyPnlSeries trades) where
  dates := by
    rw [dailyPnlSeries, rowsFrom_date]
    exact closingDays_pairwise trades
  days := fun day => by rw [dailyPnlSeries, rowsFrom_date, mem_closingDays]
  rows := fun row hrow => mem_rowsFrom hrow
  cumulative := fun before row after hsplit => by
    rw [rowsFrom_cumulative (Rounding.rounded_zero 2) hsplit, zero_add, List.map_append, List.sum_append,
      List.map_singleton, List.sum_singleton]
  total := by
    have hcount : ((dated trades).map fun _ => 1).sum = (dated trades).length := by
      rw [List.map_const', List.sum_replicate, smul_eq_mul, mul_one]
    rw [dailyPnlSeries_map _ (fun day => (dayPnls trades day).length) fun row hrow => (mem_rowsFrom hrow).2, ← hcount,
      ← sum_days]
    refine congrArg List.sum (List.map_congr_left fun day hday => ?_)
    rw [dayPnls_dated (mem_closingDays.mp hday).1, List.length_map, List.map_const', List.sum_replicate, smul_eq_mul,
      mul_one]
  realized := by
    have hlength : (dailyPnlSeries trades).length = (closingDays trades).length := by
      rw [dailyPnlSeries, ← List.length_map DayRow.date, rowsFrom_date]
    have hdays : (closingDays trades).map (fun day => (dayPnls trades day).sum) = (closingDays trades).map fun day =>
        (((dated trades).filter (·.day = day)).map ClosedTrade.realizedPnlUsd).sum :=
      List.map_congr_left fun day hday => by rw [dayPnls_dated (mem_closingDays.mp hday).1]
    have h := Rounding.abs_sum_toDigits_sub_le 2 ((closingDays trades).map fun day => (dayPnls trades day).sum)
    rw [List.map_map, List.length_map] at h
    rw [dailyPnlSeries_map _ (fun day => toDigits 2 (dayPnls trades day).sum) fun row hrow => (mem_rowsFrom hrow).1,
      ← sum_days, ← hdays, hlength]
    refine h.trans (le_of_eq ?_)
    ring

end Days

end AlgoTrader.Performance
