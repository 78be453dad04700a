import AlgoTrader.Performance.StrategyPerformance
import Mathlib.Tactic.NormNum

/-! The real-capital record (``app/performance/stage3.py``): the capital plan, the Stage 3 gates, the
track-record report and the preflight. -/

namespace AlgoTrader.Performance

open Rounding (toDigits)

def dailyReturnPct (totalRealizedPnlUsd : ℚ) (tradingDays : ℕ) (capitalUsd : ℚ) : ℚ :=
  if tradingDays = 0 ∨ capitalUsd ≤ 0 then 0 else totalRealizedPnlUsd / tradingDays / capitalUsd * 100

def projectedDailyUsd (capitalUsd dailyReturn : ℚ) : ℚ := capitalUsd * (dailyReturn / 100)

def capitalRequiredForDailyTarget (dailyTargetUsd dailyReturn : ℚ) : Option ℚ :=
  if dailyReturn ≤ 0 then none else some (dailyTargetUsd / (dailyReturn / 100))

def tradingDaysPerYear : ℕ := 252

def annualizedReturnPct (dailyReturn : ℚ) : ℚ := ((1 + dailyReturn / 100) ^ tradingDaysPerYear - 1) * 100

inductive Feasibility
  | noEdge
  | implausibleExtrapolation
  | topDecile
  | plausibleBand
  deriving DecidableEq, Repr

structure CapitalPlan where
  dailyTargetUsd : ℚ
  measuredDailyReturnPct : ℚ
  capitalRequiredUsd : Option ℚ
  impliedAnnualizedReturnPct : ℚ
  feasibility : Feasibility
  deriving DecidableEq

def feasibilityOf (measured annualized : ℚ) : Feasibility :=
  if measured ≤ 0 then .noEdge
  else if 300 < annualized then .implausibleExtrapolation
  else if 100 < annualized then .topDecile
  else .plausibleBand

def buildCapitalPlan (dailyTargetUsd totalRealizedPnlUsd : ℚ) (tradingDays : ℕ) (capitalUsd : ℚ) : CapitalPlan :=
  let measured := dailyReturnPct totalRealizedPnlUsd tradingDays capitalUsd
  let annualized := if 0 < measured then annualizedReturnPct measured else 0
  { dailyTargetUsd := toDigits 2 dailyTargetUsd
    measuredDailyReturnPct := toDigits 4 measured
    capitalRequiredUsd := (capitalRequiredForDailyTarget dailyTargetUsd measured).map (toDigits 2)
    impliedAnnualizedReturnPct := toDigits 2 annualized
    feasibility := feasibilityOf measured annualized }

structure Stage3Gates where
  minTrackRecordDays : ℤ := 60
  minTrades : ℤ := 100
  minSharpe : ℚ := 3 / 2
  maxDrawdownPct : ℚ := 8
  requirePositiveExpectancy : Bool := true

structure Stage3Readiness where
  tradingDays : ℕ
  totalTrades : ℕ
  realizedPnlUsd : ℚ
  expectancyUsd : ℚ
  sharpe : ℚ
  maxDrawdownPct : ℚ
  gates : List (String × Bool)
  blockers : List String
  ready : Bool
  capitalPlan : CapitalPlan
  deriving DecidableEq

def blockersOf (gates : List (String × Bool)) : List String := (gates.filter fun gate => !gate.2).map Prod.fst

def returnsPct (pnls : List ℚ) (capitalUsd : ℚ) : List ℚ :=
  if 0 < capitalUsd then pnls.map fun pnl => pnl / capitalUsd * 100 else []

def pctOf (amount capitalUsd : ℚ) : ℚ := if 0 < capitalUsd then toDigits 4 (amount / capitalUsd * 100) else 0

section Record

-- ``math.sqrt``
variable (sqrt : ℚ → ℚ)

def mean (values : List ℚ) : ℚ := values.sum / values.length

def sharpeFromDaily (returns : List ℚ) : ℚ :=
  if returns.length < 3 then 0
  else
    let variance : ℚ := (returns.map fun r => (r - mean returns) ^ 2).sum / (returns.length - 1)
    let std := sqrt variance
    if std = 0 then 0 else mean returns / std * sqrt tradingDaysPerYear

def sortino (returns : List ℚ) : ℚ :=
  if returns.length < 3 then 0
  else
    let downside := returns.filter (· < 0)
    let std := sqrt ((downside.map fun r => r * r).sum / downside.length)
    if downside = [] ∨ std = 0 then 0 else mean returns / std * sqrt tradingDaysPerYear

def realizedPnl (trades : List ClosedTrade) : ℚ := toDigits 2 (trades.map ClosedTrade.realizedPnlUsd).sum

def expectancy (trades : List ClosedTrade) : ℚ :=
  if trades = [] then 0 else toDigits 4 (realizedPnl trades / trades.length)

def dayProfits (trades : List ClosedTrade) : List ℚ := (dailyPnlSeries trades).map DayRow.realizedPnlUsd

def assessStage3 (ledger : List ClosedTrade) (capitalUsd dailyTargetUsd : ℚ) (gates : Stage3Gates) : Stage3Readiness :=
  let trades := withoutPaperOnly ledger
  let days := dayProfits trades
  let sharpe := toDigits 4 (sharpeFromDaily sqrt (returnsPct days capitalUsd))
  let drawdown := pctOf (maxDrawdownUsd days) capitalUsd
  let results := [("track_record_days", decide (gates.minTrackRecordDays ≤ days.length)),
    ("trade_count", decide (gates.minTrades ≤ trades.length)), ("sharpe", decide (gates.minSharpe ≤ sharpe)),
    ("drawdown", decide (drawdown ≤ gates.maxDrawdownPct)),
    ("positive_expectancy", if gates.requirePositiveExpectancy then decide (0 < expectancy trades) else true)]
  { tradingDays := days.length
    totalTrades := trades.length
    realizedPnlUsd := realizedPnl trades
    expectancyUsd := expectancy trades
    sharpe := sharpe
    maxDrawdownPct := drawdown
    gates := results
    blockers := blockersOf results
    ready := blockersOf results = []
    capitalPlan := buildCapitalPlan dailyTargetUsd (realizedPnl trades) days.length capitalUsd }

structure TrackRecordReport where
  tradingDays : ℕ
  totalTrades : ℕ
  realizedPnlUsd : ℚ
  totalReturnPct : ℚ
  annualizedReturnPct : ℚ
  sharpe : ℚ
  sortino : ℚ
  calmar : ℚ
  maxDrawdownUsd : ℚ
  maxDrawdownPct : ℚ
  longestDrawdownDays : ℕ
  winRate : ℚ
  profitFactor : ℚ
  expectancyUsd : ℚ
  avgWinUsd : ℚ
  avgLossUsd : ℚ
  bestDayUsd : ℚ
  worstDayUsd : ℚ
  monthlyReturnsPct : List (String × ℚ)
  profitableMonthsPct : ℚ
  deriving DecidableEq

structure RecordLoop where
  equity : ℚ := 0
  peak : ℚ := 0
  maxDd : ℚ := 0
  longest : ℕ := 0
  current : ℕ := 0

def RecordLoop.step (loop : RecordLoop) (pnl : ℚ) : RecordLoop :=
  let equity := loop.equity + pnl
  if loop.peak ≤ equity then
    { loop with equity := equity, peak := equity, current := 0, maxDd := min loop.maxDd (equity - equity) }
  else
    { loop with
      equity := equity
      current := loop.current + 1
      longest := max loop.longest (loop.current + 1)
      maxDd := min loop.maxDd (equity - loop.peak) }

def monthOf (row : DayRow) : String := String.ofList (row.date.toList.take 7)

def monthlyPnls (series : List DayRow) : List (String × ℚ) :=
  (series.map monthOf).eraseDups.map fun month => (month,
    ((series.filter (monthOf · = month)).map DayRow.realizedPnlUsd).foldl (fun total pnl => toDigits 2 (total + pnl)) 0)

def trackRecordReport (ledger : List ClosedTrade) (capitalUsd : ℚ) : TrackRecordReport :=
  let trades := withoutPaperOnly ledger
  let days := dayProfits trades
  let returns := returnsPct days capitalUsd
  let loop := days.foldl RecordLoop.step {}
  let drawdownUsd := toDigits 2 |loop.maxDd|
  let drawdownPct := pctOf drawdownUsd capitalUsd
  let annual := toDigits 4 ((if returns = [] then 0 else mean returns) * tradingDaysPerYear)
  let winners := (trades.map ClosedTrade.realizedPnlUsd).filter (0 < ·)
  let losers := (trades.map ClosedTrade.realizedPnlUsd).filter (· < 0)
  let monthly := monthlyPnls (dailyPnlSeries trades)
  { tradingDays := days.length
    totalTrades := trades.length
    realizedPnlUsd := realizedPnl trades
    totalReturnPct := pctOf (realizedPnl trades) capitalUsd
    annualizedReturnPct := annual
    sharpe := toDigits 4 (sharpeFromDaily sqrt returns)
    sortino := toDigits 4 (sortino sqrt returns)
    calmar := if 0 < drawdownPct then toDigits 4 (annual / drawdownPct) else 0
    maxDrawdownUsd := drawdownUsd
    maxDrawdownPct := drawdownPct
    longestDrawdownDays := loop.longest
    winRate := if trades = [] then 0 else toDigits 2 (winners.length / trades.length * 100)
    profitFactor := if 0 < |losers.sum| then toDigits 4 (winners.sum / |losers.sum|)
      else if winners.sum = 0 then 0 else 99
    expectancyUsd := expectancy trades
    avgWinUsd := if winners = [] then 0 else toDigits 2 (winners.sum / winners.length)
    avgLossUsd := if losers = [] then 0 else toDigits 2 (losers.sum / losers.length)
    bestDayUsd := toDigits 2 (days.max?.getD 0)
    worstDayUsd := toDigits 2 (days.min?.getD 0)
    monthlyReturnsPct :=
      if 0 < capitalUsd then monthly.map fun (month, pnl) => (month, toDigits 4 (pnl / capitalUsd * 100)) else []
    profitableMonthsPct := if monthly = [] then 0
      else toDigits 2 ((monthly.filter (0 < ·.2)).length / monthly.length * 100) }

end Record

structure RealCapitalPreflight where
  stage3Ready : Bool
  realTradingCurrentlyEnabled : Bool
  checklist : List (String × Bool)
  blockers : List String
  decisionAllowed : Bool
  deriving DecidableEq

def realCapitalPreflight (readiness : Stage3Readiness) (enableRealTrading : Bool) : RealCapitalPreflight :=
  let checklist := [("stage3_gates_met", readiness.ready),
    ("capital_plan_available", readiness.capitalPlan.capitalRequiredUsd.isSome),
    ("edge_is_positive", decide (0 < readiness.expectancyUsd)),
    ("feasibility_not_fantasy", decide (readiness.capitalPlan.feasibility ∈ [Feasibility.plausibleBand, .topDecile]))]
  ⟨readiness.ready, enableRealTrading, checklist, blockersOf checklist, blockersOf checklist = []⟩

section Drawdown

lemma recordLoop_tracks (pnls : List ℚ) :
    ∃ curve : Drawdown.Curve ℚ, curve.Tracks pnls ∧ (pnls.foldl RecordLoop.step {}).equity = curve.equity ∧
      (pnls.foldl RecordLoop.step {}).peak = curve.mark.peak ∧
      (pnls.foldl RecordLoop.step {}).maxDd = -curve.mark.worst ∧ Drawdown.Spells.Tracks
        ⟨(pnls.foldl RecordLoop.step {}).current, (pnls.foldl RecordLoop.step {}).longest⟩ pnls := by
  induction pnls using List.reverseRecOn with
  | nil => exact ⟨.start, Drawdown.Curve.tracks_start, rfl, rfl, neg_zero.symm, Drawdown.Spells.tracks_start⟩
  | append_singleton pnls pnl ih =>
    obtain ⟨curve, htracks, hequity, hpeak, hworst, hspells⟩ := ih
    have hbelow := htracks.below_iff pnl
    have hcount := hspells.count (curve.equity + pnl < curve.mark.peak) hbelow
    rw [List.foldl_append, List.foldl_cons, List.foldl_nil, RecordLoop.step, hequity, hpeak, hworst]
    refine ⟨curve.add pnl, htracks.add pnl, ?_⟩
    rw [Drawdown.Curve.add, Drawdown.Mark.see]
    dsimp only
    rw [Drawdown.Spells.count] at hcount
    split_ifs with hle
    · rw [if_neg (not_lt.mpr hle)] at hcount
      rw [max_eq_right hle, sub_self]
      refine ⟨rfl, rfl, ?_, hcount⟩
      rw [← neg_zero, min_neg_neg, neg_zero]
    · rw [if_pos (not_le.mp hle)] at hcount
      rw [max_eq_left (not_le.mp hle).le]
      refine ⟨rfl, rfl, ?_, hcount⟩
      dsimp only
      rw [← neg_sub curve.mark.peak, min_neg_neg]

lemma rounded_maxDrawdownUsd {pnls : List ℚ} (h : ∀ pnl ∈ pnls, Rounding.Rounded 2 pnl) :
    Rounding.Rounded 2 (maxDrawdownUsd pnls) := by
  obtain ⟨stretch, hstretch, hloss⟩ := (isGreatest_maxDrawdownUsd pnls).1
  rw [hloss]
  exact (Rounding.rounded_sum fun pnl hpnl => h pnl (hstretch.subset hpnl)).neg

lemma rounded_dayProfits {trades : List ClosedTrade} : ∀ pnl ∈ dayProfits trades, Rounding.Rounded 2 pnl := by
  intro pnl hpnl
  obtain ⟨row, hrow, rfl⟩ := List.mem_map.mp hpnl
  rw [((dailyPnlSeries_of trades).rows row hrow).1]
  exact Rounding.rounded_toDigits 2 _

lemma recordLoop_maxDd (pnls : List ℚ) : |(pnls.foldl RecordLoop.step {}).maxDd| = maxDrawdownUsd pnls := by
  obtain ⟨curve, htracks, -, -, hworst, -⟩ := recordLoop_tracks pnls
  have hnonneg : 0 ≤ curve.mark.worst := htracks.worst.2 ⟨[], List.nil_infix, neg_zero.symm⟩
  rw [hworst, abs_neg, abs_of_nonneg hnonneg]
  exact htracks.worst.unique (isGreatest_maxDrawdownUsd pnls)

lemma report_maxDrawdownUsd (sqrt : ℚ → ℚ) (ledger : List ClosedTrade) (capitalUsd : ℚ) :
    (trackRecordReport sqrt ledger capitalUsd).maxDrawdownUsd =
      maxDrawdownUsd (dayProfits (withoutPaperOnly ledger)) := by
  rw [trackRecordReport]
  dsimp only
  rw [recordLoop_maxDd, (rounded_maxDrawdownUsd rounded_dayProfits).toDigits_eq]

end Drawdown

section Decision

lemma blockersOf_eq_nil {gates : List (String × Bool)} : blockersOf gates = [] ↔ ∀ gate ∈ gates, gate.2 = true := by
  rw [blockersOf, List.map_eq_nil_iff, List.filter_eq_nil_iff]
  exact forall₂_congr fun gate _ => by rw [Bool.not_eq_true', Bool.not_eq_false]

lemma dailyReturnPct_pos {total capitalUsd : ℚ} {days : ℕ} (h : 0 < dailyReturnPct total days capitalUsd) :
    0 < total ∧ 0 < capitalUsd := by
  rw [dailyReturnPct] at h
  split_ifs at h with hnone
  · exact absurd h (lt_irrefl 0)
  · rw [not_or, not_le] at hnone
    refine ⟨?_, hnone.2⟩
    have hdays : (0 : ℚ) < days := Nat.cast_pos.mpr (Nat.pos_of_ne_zero hnone.1)
    have hratio : 0 < total / days / capitalUsd := by linarith
    exact (div_pos_iff_of_pos_right hdays).mp ((div_pos_iff_of_pos_right hnone.2).mp hratio)

lemma projectedDailyUsd_required {target measured required : ℚ} (hmeasured : 0 < measured)
    (h : (capitalRequiredForDailyTarget target measured).map (toDigits 2) = some required) :
    |projectedDailyUsd required measured - target| ≤ 1 / 200 * (measured / 100) := by
  rw [capitalRequiredForDailyTarget, if_neg (not_le.mpr hmeasured), Option.map_some, Option.some_inj] at h
  have hrate : 0 < measured / 100 := by linarith
  have hround := Rounding.abs_toDigits_sub_le 2 (target / (measured / 100))
  have hsplit : projectedDailyUsd required measured - target =
      (toDigits 2 (target / (measured / 100)) - target / (measured / 100)) * (measured / 100) := by
    rw [projectedDailyUsd, ← h, sub_mul, div_mul_cancel₀ _ hrate.ne']
  rw [hsplit, abs_mul, abs_of_pos hrate]
  refine mul_le_mul_of_nonneg_right (hround.trans (le_of_eq ?_)) hrate.le
  norm_num

lemma loss_le_of_pctOf_le {amount capitalUsd limit : ℚ} (hcapital : 0 < capitalUsd)
    (h : pctOf amount capitalUsd ≤ limit) :
    amount ≤ (limit + 1 / 20000) / 100 * capitalUsd := by
  rw [pctOf, if_pos hcapital] at h
  have hround := (abs_le.mp (Rounding.abs_toDigits_sub_le 4 (amount / capitalUsd * 100))).1
  have hpct : amount / capitalUsd ≤ (limit + 1 / 20000) / 100 := by norm_num at hround ⊢; linarith
  exact (div_le_iff₀ hcapital).mp hpct

lemma grounded_of_feasibility {measured annualized : ℚ}
    (h : feasibilityOf measured annualized ∈ [Feasibility.plausibleBand, .topDecile]) :
    0 < measured ∧ annualized ≤ 300 := by
  rw [feasibilityOf] at h
  split_ifs at h with hnone hfantasy
  · exact absurd h (by decide)
  · exact absurd h (by decide)
  all_goals exact ⟨not_le.mp hnone, not_lt.mp hfantasy⟩

structure Grounds (trades : List ClosedTrade) (capitalUsd dailyTargetUsd : ℚ) (gates : Stage3Gates) (measured : ℚ) :
    Prop where
  capital : 0 < capitalUsd
  days : gates.minTrackRecordDays ≤ (closingDays trades).length
  count : gates.minTrades ≤ trades.length
  realized : 1 / 200 < (trades.map ClosedTrade.realizedPnlUsd).sum
  losses : ∀ stretch, stretch <:+: dayProfits trades →
    -stretch.sum ≤ (gates.maxDrawdownPct + 1 / 20000) / 100 * capitalUsd
  edge : 0 < measured ∧ annualizedReturnPct measured ≤ 300
  plan : ∀ required, (buildCapitalPlan dailyTargetUsd (realizedPnl trades) (dayProfits trades).length
    capitalUsd).capitalRequiredUsd = some required →
      |projectedDailyUsd required measured - dailyTargetUsd| ≤ 1 / 200 * (measured / 100)

/-- When the preflight allows the decision, the trades that are not paper-only carry it: the days, the
trades, the profit, no stretch of days that lost more than the gate, and a plan that reaches the target. -/
theorem decision_grounds (sqrt : ℚ → ℚ) (ledger : List ClosedTrade) (capitalUsd dailyTargetUsd : ℚ)
    (gates : Stage3Gates) (enableRealTrading : Bool)
    (h : (realCapitalPreflight (assessStage3 sqrt ledger capitalUsd dailyTargetUsd gates)
      enableRealTrading).decisionAllowed = true) :
    Grounds (withoutPaperOnly ledger) capitalUsd dailyTargetUsd gates (dailyReturnPct
      (realizedPnl (withoutPaperOnly ledger)) (dayProfits (withoutPaperOnly ledger)).length capitalUsd) := by
  have hcheck := blockersOf_eq_nil.mp (of_decide_eq_true h)
  have hready : (assessStage3 sqrt ledger capitalUsd dailyTargetUsd gates).ready = true := hcheck _ List.mem_cons_self
  have hplan : (buildCapitalPlan dailyTargetUsd (realizedPnl (withoutPaperOnly ledger))
      (dayProfits (withoutPaperOnly ledger)).length capitalUsd).feasibility ∈ [Feasibility.plausibleBand, .topDecile] :=
    of_decide_eq_true (hcheck ("feasibility_not_fantasy", _)
      (List.mem_cons_of_mem _ (List.mem_cons_of_mem _ (List.mem_cons_of_mem _ List.mem_cons_self))))
  have hgate := blockersOf_eq_nil.mp (of_decide_eq_true hready)
  have hdays : (closingDays (withoutPaperOnly ledger)).length = (dayProfits (withoutPaperOnly ledger)).length := by
    rw [dayProfits, dailyPnlSeries, List.length_map, ← List.length_map DayRow.date, rowsFrom_date]
  have hmeasured : 0 < dailyReturnPct (realizedPnl (withoutPaperOnly ledger))
      (dayProfits (withoutPaperOnly ledger)).length capitalUsd ∧ annualizedReturnPct (dailyReturnPct (realizedPnl (withoutPaperOnly ledger))
        (dayProfits (withoutPaperOnly ledger)).length capitalUsd) ≤ 300 := by
    have hgrounded := grounded_of_feasibility hplan
    rwa [if_pos hgrounded.1] at hgrounded
  obtain ⟨hpnl, hcapital⟩ := dailyReturnPct_pos hmeasured.1
  refine ⟨hcapital, ?_, ?_, ?_, fun stretch hstretch => ?_, hmeasured, fun required hrequired =>
    projectedDailyUsd_required hmeasured.1 hrequired⟩
  · rw [hdays]
    exact of_decide_eq_true (hgate ("track_record_days", _) List.mem_cons_self)
  · exact of_decide_eq_true (hgate ("trade_count", _) (List.mem_cons_of_mem _ List.mem_cons_self))
  · have hlarge := (Rounding.toDigits_pos_iff 2 _).mp hpnl
    norm_num at hlarge ⊢
    exact hlarge
  · have hdrawdown : pctOf (maxDrawdownUsd (dayProfits (withoutPaperOnly ledger))) capitalUsd ≤ gates.maxDrawdownPct :=
      of_decide_eq_true (hgate ("drawdown", _)
        (List.mem_cons_of_mem _ (List.mem_cons_of_mem _ (List.mem_cons_of_mem _ List.mem_cons_self))))
    exact ((isGreatest_maxDrawdownUsd _).2 ⟨stretch, hstretch, rfl⟩).trans (loss_le_of_pctOf_le hcapital hdrawdown)

def decimalRoot (x : ℚ) : ℚ := ⌊x * 10 ^ 20⌋.toNat.sqrt / 10 ^ 10

def threeDays : List ClosedTrade :=
  [⟨"breakout", 12, "2026-01-06T20:00:00", false, none⟩, ⟨"breakout", 10, "2026-01-05T20:00:00", false, none⟩,
    ⟨"pullback", -40, "2026-01-06T18:00:00", true, none⟩, ⟨"pullback", 11, "2026-01-07T20:00:00", false, none⟩]

theorem decision_grounds_threeDays :
    Grounds (withoutPaperOnly threeDays) 10000 11 { minTrackRecordDays := 3, minTrades := 3 } (dailyReturnPct
      (realizedPnl (withoutPaperOnly threeDays)) (dayProfits (withoutPaperOnly threeDays)).length 10000) :=
  decision_grounds decimalRoot threeDays 10000 11 { minTrackRecordDays := 3, minTrades := 3 } false (by decide +kernel)

end Decision

end AlgoTrader.Performance
