import AlgoTrader.Backtesting.Frame
import AlgoTrader.Indicators.Enrich
import AlgoTrader.Lib.Rounding
import AlgoTrader.Lib.Windowed
import AlgoTrader.Models.Signal

/-! The strategies generated from a long-only rule language (``app/strategy_lab/dsl.py``,
``app/models/strategy_lab.py``): how a rule set is read against a frame of bars. -/

namespace AlgoTrader.StrategyLab

open Indicators Models

inductive IndicatorKind
  | sma
  | ema
  | rsi
  | volumeSma
  | atr
  | roc
  | bbUpper
  | bbLower
  | bbWidth
  | donchianHigh
  | donchianLow
  | relativeVolume
  | vwap
  deriving DecidableEq, Repr

inductive PriceColumn
  | open_
  | high
  | low
  | close
  | volume
  deriving DecidableEq, Repr

def PriceColumn.name : PriceColumn → String
  | .open_ => "open"
  | .high => "high"
  | .low => "low"
  | .close => "close"
  | .volume => "volume"

def priceColumns : List String := ["open", "high", "low", "close", "volume"]

structure StrategyLabIndicator where
  name : String
  kind : IndicatorKind
  source : PriceColumn := .close
  period : ℕ
  two_le_period : 2 ≤ period
  period_le : period ≤ 250
  deriving DecidableEq

inductive ConditionKind
  | above
  | below
  | crossesAbove
  | crossesBelow
  deriving DecidableEq, Repr

inductive Operand
  | column (name : String)
  | number (value : ℚ)
  deriving DecidableEq, Repr

structure StrategyLabCondition where
  kind : ConditionKind
  left : String
  right : Operand
  deriving DecidableEq, Repr

def StrategyLabCondition.columns (condition : StrategyLabCondition) : List String :=
  match condition.right with
  | .column name => [condition.left, name]
  | .number _ => [condition.left]

inductive Timeframe
  | oneMinute
  | fiveMinutes
  | tenMinutes
  | fifteenMinutes
  | oneHour
  | oneDay
  | oneWeek
  deriving DecidableEq, Repr

structure StrategyLabDsl where
  name : String
  timeframe : Timeframe := .oneDay
  indicators : List StrategyLabIndicator
  entryConditions : List StrategyLabCondition
  stopLossPct : ℚ
  takeProfitPct : ℚ
  maxHoldBars : ℕ := 20
  indicators_count : 1 ≤ indicators.length ∧ indicators.length ≤ 8
  conditions_count : 1 ≤ entryConditions.length ∧ entryConditions.length ≤ 8
  stop_bounds : 0 < stopLossPct ∧ stopLossPct ≤ 20
  target_bounds : 0 < takeProfitPct ∧ takeProfitPct ≤ 50
  hold_bounds : 1 ≤ maxHoldBars ∧ maxHoldBars ≤ 500
  available : ∀ condition ∈ entryConditions, ∀ column ∈ condition.columns,
    column ∈ priceColumns ++ indicators.map StrategyLabIndicator.name

def frameOf (data : Backtesting.Frame) : Frame where
  rows := data.length
  names := insert "timestamp" priceColumns.toFinset
  column name :=
    if name = "timestamp" then some (.times (data.map fun bar => some bar.timestamp))
    else if name = "open" then some (.numbers (data.map fun bar => some bar.openPrice))
    else if name = "high" then some (.numbers (data.map fun bar => some bar.high))
    else if name = "low" then some (.numbers (data.map fun bar => some bar.low))
    else if name = "close" then some (.numbers (data.map fun bar => some bar.close))
    else if name = "volume" then some (.numbers (data.map fun bar => some bar.volume))
    else none
  mem_names name := by
    simp only [priceColumns]
    split_ifs <;> simp_all

def numbersOf : Option Column → Series
  | some (.numbers values) => values
  | _ => []

/-- ``frame[name].astype(float)``, of a column that is there. -/
def floats (frame : Frame) (name : String) : Series := numbersOf (frame.column name)

def bandStd (sqrt : ℚ → ℚ) (prices : Prices) (period : ℕ) : Series := prices.close.rollingStd sqrt period

def bandUpper (sqrt : ℚ → ℚ) (prices : Prices) (period : ℕ) : Series :=
  (prices.close.rollingMean period).add ((bandStd sqrt prices period).apply (· * 2))

def bandLower (sqrt : ℚ → ℚ) (prices : Prices) (period : ℕ) : Series :=
  (prices.close.rollingMean period).sub ((bandStd sqrt prices period).apply (· * 2))

def relativeStrength (source : Series) (period : ℕ) : Series :=
  let delta := source.diff 1
  let gains := (delta.clipLower 0).rollingMean period
  let losses := ((delta.apply (min 0)).neg.rollingMean period).replaceZero
  (gains.div losses).apply fun rs => 100 - 100 / (1 + rs)

-- ``pct_change`` of closes none of which is missing. The infinity after a zero close is a missing value here.
def pctChange (close : Series) (period : ℕ) : Series := (close.div (close.shift period).replaceZero).apply (· - 1)

def StrategyLabIndicator.values (sqrt : ℚ → ℚ) (indicator : StrategyLabIndicator) (source : Series)
    (prices : Prices) : Series :=
  let period := indicator.period
  match indicator.kind with
  | .sma => source.rollingMean period
  | .ema => source.ewmSpan period
  | .rsi => relativeStrength source period
  | .volumeSma => prices.volume.rollingMean period
  | .atr => prices.trueRange.rollingMean period
  | .roc => (pctChange prices.close period).apply (· * 100)
  | .bbUpper => bandUpper sqrt prices period
  | .bbLower => bandLower sqrt prices period
  | .bbWidth =>
    (((bandUpper sqrt prices period).sub (bandLower sqrt prices period)).div
      (prices.close.rollingMean period).replaceZero).apply (· * 100)
  | .donchianHigh => (prices.high.rollingMax period).shift 1
  | .donchianLow => (prices.low.rollingMin period).shift 1
  | .relativeVolume => prices.volume.div (prices.volume.rollingMean period).replaceZero
  | .vwap => (prices.close.mul prices.volume).cumsum.div prices.volume.cumsum.replaceZero

def pricesOf (frame : Frame) : Prices where
  close := floats frame "close"
  high := floats frame "high"
  low := floats frame "low"
  volume := floats frame "volume"
  sessions := none

-- An indicator may overwrite a price column, and a later one then reads what it wrote; the four
-- price columns themselves are read once, before the loop.
def addIndicator (sqrt : ℚ → ℚ) (prices : Prices) (frame : Frame) (indicator : StrategyLabIndicator) : Frame :=
  frame.set indicator.name
    (.numbers (indicator.values sqrt (floats frame indicator.source.name) prices))

def withIndicators (sqrt : ℚ → ℚ) (frame : Frame) (dsl : StrategyLabDsl) : Frame :=
  dsl.indicators.foldl (addIndicator sqrt (pricesOf frame)) frame

/-- ``_value`` in the row so many rows before the last. -/
def value (frame : Frame) (back : ℕ) : Operand → Option ℚ
  | .number value => some value
  | .column name => (numbersOf (frame.column name)).reverse[back]?.join

def conditionPassed (frame : Frame) (condition : StrategyLabCondition) : Bool :=
  match value frame 0 (.column condition.left), value frame 0 condition.right with
  | some leftNow, some rightNow =>
    match condition.kind with
    | .above => rightNow < leftNow
    | .below => leftNow < rightNow
    | .crossesAbove =>
      match value frame 1 (.column condition.left), value frame 1 condition.right with
      | some leftPrev, some rightPrev => leftPrev ≤ rightPrev ∧ rightNow < leftNow
      | _, _ => false
    | .crossesBelow =>
      match value frame 1 (.column condition.left), value frame 1 condition.right with
      | some leftPrev, some rightPrev => rightPrev ≤ leftPrev ∧ leftNow < rightNow
      | _, _ => false
  | _, _ => false

def lastMissing : Column → Bool
  | .numbers values => values.getLast? = some none
  | .times values => values.getLast? = some none
  | .dates values => values.getLast? = some none
  | .flags _ => false
  | .texts _ => false

def tailMissing (frame : Frame) : Prop := ∃ name ∈ frame.names, (frame.column name).any lastMissing = true

instance (frame : Frame) : Decidable (tailMissing frame) := inferInstanceAs (Decidable (∃ name ∈ frame.names, _))

inductive Outcome
  | insufficientData
  | indicatorUnavailable
  | noSignal (failed : List StrategyLabCondition)
  | signal (signal : Option Signal)
  deriving DecidableEq

namespace StrategyLabDsl

variable (dsl : StrategyLabDsl)

def requiredBars : ℕ := (dsl.indicators.map StrategyLabIndicator.period).foldr max 20 + 2

def plan (price : ℚ) : Signal where
  action := .buy
  price := some price
  stopLoss := some (Rounding.toDigits 4 (price * (1 - dsl.stopLossPct / 100)))
  takeProfit := some (Rounding.toDigits 4 (price * (1 + dsl.takeProfitPct / 100)))
  metadata := { maxHoldBars := some dsl.maxHoldBars }

def buildSignal (signal : Signal) : Option Signal := if signal.validPlan then some signal else none

def judge (frame : Frame) : Outcome :=
  if frame.rows < 2 ∨ tailMissing frame then .indicatorUnavailable
  else
    match dsl.entryConditions.filter fun condition => !conditionPassed frame condition with
    | [] => .signal (buildSignal (dsl.plan ((value frame 0 (.column "close")).getD 0)))
    | failed => .noSignal failed

def generateSignal (sqrt : ℚ → ℚ) (data : Backtesting.Frame) : Outcome :=
  if data.length < dsl.requiredBars then .insufficientData
  else dsl.judge (withIndicators sqrt (frameOf data) dsl)

end StrategyLabDsl

section Memory

open Windowed Causal

variable {k a b n : ℕ} {ys xs ys' xs' : Series} {sqrt : ℚ → ℚ}

lemma agree_apply (h : Agree k a ys xs) (f : ℚ → ℚ) : Agree k a (Series.apply ys f) (Series.apply xs f) := h.map _

lemma agree_combine (h : Agree k a ys xs) (h' : Agree k a ys' xs') (f : ℚ → ℚ → ℚ) :
    Agree k a (Series.combine ys ys' f) (Series.combine xs xs' f) := h.zipWith h' _

lemma agree_replaceZero (h : Agree k a ys xs) : Agree k a (Series.replaceZero ys) (Series.replaceZero xs) := h.map _

lemma looksBack_shift (i : ℕ) : LooksBack (i + 1) fun past : Series => past.reverse[i]?.join := by
  intro past hpast
  have hdrop : (past.drop (past.length - (i + 1))).length = i + 1 := by
    rw [List.length_drop]
    omega
  change past.reverse[i]?.join = (past.drop (past.length - (i + 1))).reverse[i]?.join
  rw [List.getElem?_reverse (by omega), List.getElem?_reverse (by omega), List.getElem?_drop, hdrop]
  congr 2
  omega

lemma agree_shift (h : Agree k a ys xs) (i : ℕ) (hb : a + i ≤ b) : Agree k b (Series.shift ys i) (Series.shift xs i) :=
  h.onPast (looksBack_shift i) (by omega) (by omega)

lemma agree_diff (h : Agree k a ys xs) (i : ℕ) (hb : a + i ≤ b) : Agree k b (Series.diff ys i) (Series.diff xs i) :=
  (h.mono (by omega)).zipWith (agree_shift h i hb) _

lemma agree_rolling (h : Agree k a ys xs) (window : ℕ) (aggregate : List ℚ → Option ℚ) (hab : a ≤ b)
    (hb : a + window ≤ b + 1) : Agree k b (Series.rolling ys window aggregate) (Series.rolling xs window aggregate) :=
  h.onPast (LooksBack.of_drop fun recent : Series =>
    if window ≤ recent.reduceOption.length then aggregate recent.reduceOption else none) hab hb

structure PricesAgree (k : ℕ) (p' p : Prices) : Prop where
  close : Agree k 0 p'.close p.close
  high : Agree k 0 p'.high p.high
  low : Agree k 0 p'.low p.low
  volume : Agree k 0 p'.volume p.volume

variable {p' p : Prices}

lemma agree_trueRange (h : PricesAgree k p' p) : Agree k 1 p'.trueRange p.trueRange := by
  have hprev := agree_shift (b := 1) h.close 1 (by omega)
  have hhigh := h.high.mono (Nat.zero_le 1)
  have hlow := h.low.mono (Nat.zero_le 1)
  have hrange := (agree_combine hhigh hlow (· - ·)).zipWith
    (agree_apply (agree_combine hhigh hprev (· - ·)) (fun x => |x|)) Prod.mk
  exact hrange.zipWith (agree_apply (agree_combine hlow hprev (· - ·)) (fun x => |x|)) _

lemma agree_relativeStrength (h : Agree k 0 ys xs) {period : ℕ} (hperiod : 1 ≤ period) :
    Agree k period (relativeStrength ys period) (relativeStrength xs period) := by
  have hdelta := agree_diff (b := 1) h 1 (by omega)
  have hgains := agree_rolling (b := period) (agree_apply hdelta (max 0)) period Series.mean (by omega) (by omega)
  have hlosses := agree_rolling (b := period) (agree_apply (agree_apply hdelta (min 0)) (-·)) period Series.mean
    (by omega) (by omega)
  exact agree_apply (agree_combine hgains (agree_replaceZero hlosses) (· / ·)) _

lemma agree_mean (h : Agree k 0 ys xs) {period : ℕ} :
    Agree k period (Series.rollingMean ys period) (Series.rollingMean xs period) :=
  agree_rolling h period Series.mean (by omega) (by omega)

lemma agree_std (sqrt : ℚ → ℚ) (h : PricesAgree k p' p) {period : ℕ} :
    Agree k period (bandStd sqrt p' period) (bandStd sqrt p period) :=
  agree_rolling h.close period (Series.std sqrt) (by omega) (by omega)

lemma agree_upper (sqrt : ℚ → ℚ) (h : PricesAgree k p' p) {period : ℕ} :
    Agree k period (bandUpper sqrt p' period) (bandUpper sqrt p period) :=
  agree_combine (agree_mean h.close) (agree_apply (agree_std sqrt h) _) _

lemma agree_lower (sqrt : ℚ → ℚ) (h : PricesAgree k p' p) {period : ℕ} :
    Agree k period (bandLower sqrt p' period) (bandLower sqrt p period) :=
  agree_combine (agree_mean h.close) (agree_apply (agree_std sqrt h) _) _

def IndicatorKind.unbounded : IndicatorKind → Bool
  | .ema => true
  | .vwap => true
  | _ => false

/-- Every other indicator of period `n` is settled from its row `n` on. -/
lemma agree_values (sqrt : ℚ → ℚ) (indicator : StrategyLabIndicator) (hkind : indicator.kind.unbounded = false)
    (hsource : Agree k 0 ys xs) (h : PricesAgree k p' p) :
    Agree k indicator.period (indicator.values sqrt ys p') (indicator.values sqrt xs p) := by
  have hperiod := indicator.two_le_period
  rw [StrategyLabIndicator.values, StrategyLabIndicator.values]
  cases hcase : indicator.kind with
  | sma => exact agree_mean hsource
  | ema => simp [hcase, IndicatorKind.unbounded] at hkind
  | rsi => exact agree_relativeStrength hsource (by omega)
  | volumeSma => exact agree_mean h.volume
  | atr => exact agree_rolling (agree_trueRange h) _ Series.mean (by omega) (by omega)
  | roc =>
    have hratio := agree_combine (h.close.mono (Nat.zero_le indicator.period))
      (agree_replaceZero (agree_shift (b := indicator.period) h.close indicator.period (by omega))) (· / ·)
    exact agree_apply (agree_apply hratio _) _
  | bbUpper => exact agree_upper sqrt h
  | bbLower => exact agree_lower sqrt h
  | bbWidth =>
    have hwidth := agree_combine (a := indicator.period) (agree_upper sqrt h) (agree_lower sqrt h) (· - ·)
    exact agree_apply (agree_combine hwidth (agree_replaceZero (agree_mean h.close)) _) _
  | donchianHigh =>
    have hhigh := agree_rolling (b := indicator.period - 1) h.high indicator.period List.max? (by omega) (by omega)
    exact agree_shift hhigh 1 (by omega)
  | donchianLow =>
    have hlow := agree_rolling (b := indicator.period - 1) h.low indicator.period List.min? (by omega) (by omega)
    exact agree_shift hlow 1 (by omega)
  | relativeVolume =>
    exact agree_combine (h.volume.mono (Nat.zero_le _)) (agree_replaceZero (agree_mean h.volume)) _
  | vwap => simp [hcase, IndicatorKind.unbounded] at hkind

/-- A column of the shorter frame of `n` rows, and that of the longer one. -/
inductive ColumnAgree (k a n : ℕ) : Option Column → Option Column → Prop
  | missing : ColumnAgree k a n none none
  | numbers {ys xs : Series} (h : Agree k a ys xs) (hlength : ys.length = n) :
      ColumnAgree k a n (some (.numbers ys)) (some (.numbers xs))
  | times {ys xs : List (Option Utils.Time.Timestamp)} (h : Agree k a ys xs) (hlength : ys.length = n) :
      ColumnAgree k a n (some (.times ys)) (some (.times xs))

lemma ColumnAgree.mono {c' c : Option Column} (h : ColumnAgree k a n c' c) (hab : a ≤ b) : ColumnAgree k b n c' c := by
  cases h with
  | missing => exact .missing
  | numbers h hlength => exact .numbers (h.mono hab) hlength
  | times h hlength => exact .times (h.mono hab) hlength

/-- Columns not `written` yet agree on every row, the others from row `a` on. -/
structure FrameAgree (k a n : ℕ) (written : List String) (f' f : Frame) : Prop where
  names : f'.names = f.names
  filled : ∀ column : PriceColumn, (floats f' column.name).length = n
  untouched : ∀ name, name ∉ written → ColumnAgree k 0 n (f'.column name) (f.column name)
  settled : ∀ name, ColumnAgree k a n (f'.column name) (f.column name)

lemma frameAgree_frameOf (k a : ℕ) (data : Backtesting.Frame) :
    FrameAgree k a (data.drop k).length [] (frameOf (data.drop k)) (frameOf data) := by
  have hcolumn (name : String) :
      ColumnAgree k 0 (data.drop k).length ((frameOf (data.drop k)).column name) ((frameOf data).column name) := by
    have hnumbers (read : Backtesting.Bar → Option ℚ) : ColumnAgree k 0 (data.drop k).length
        (some (.numbers ((data.drop k).map read))) (some (.numbers (data.map read))) :=
      .numbers ((agree_drop k data).map read) (List.length_map _)
    have htimes : ColumnAgree k 0 (data.drop k).length
        (some (.times ((data.drop k).map fun bar => some bar.timestamp)))
        (some (.times (data.map fun bar => some bar.timestamp))) :=
      .times ((agree_drop k data).map _) (List.length_map _)
    simp only [frameOf]
    split_ifs
    · exact htimes
    · exact hnumbers _
    · exact hnumbers _
    · exact hnumbers _
    · exact hnumbers _
    · exact hnumbers _
    · exact .missing
  have hfilled (column : PriceColumn) : (floats (frameOf (data.drop k)) column.name).length = (data.drop k).length := by
    cases column <;> simp [floats, numbersOf, frameOf, PriceColumn.name]
  exact ⟨rfl, hfilled, fun name _ => hcolumn name, fun name => (hcolumn name).mono (Nat.zero_le a)⟩

lemma ColumnAgree.numbersOf {c' c : Option Column} (h : ColumnAgree k a n c' c) :
    Agree k a (numbersOf c') (numbersOf c) := by
  cases h with
  | missing => simp [Agree, StrategyLab.numbersOf]
  | numbers h hlength => exact h
  | times h hlength => simp [Agree, StrategyLab.numbersOf]

lemma ColumnAgree.fromEnd {c' c : Option Column} (h : ColumnAgree k a n c' c) {i : ℕ} (hi : a + i < n) :
    (StrategyLab.numbersOf c').reverse[i]? = (StrategyLab.numbersOf c).reverse[i]? := by
  cases h with
  | missing => rfl
  | numbers h hlength => exact h.fromEnd (by omega)
  | times h hlength => rfl

lemma getLast?_eq_of_agree {α : Type*} {ys xs : List α} (h : Agree k a ys xs) (ha : a < ys.length) :
    ys.getLast? = xs.getLast? := by
  rw [← List.head?_reverse, ← List.head?_reverse, List.head?_eq_getElem?, List.head?_eq_getElem?]
  exact h.fromEnd (by omega)

lemma ColumnAgree.lastMissing {c' c : Option Column} (h : ColumnAgree k a n c' c) (ha : a < n) :
    c'.any lastMissing = c.any lastMissing := by
  cases h with
  | missing => rfl
  | numbers h hlength => simp [StrategyLab.lastMissing, getLast?_eq_of_agree h (by omega)]
  | times h hlength => simp [StrategyLab.lastMissing, getLast?_eq_of_agree h (by omega)]

variable {f' f : Frame} {written : List String}

lemma pricesAgree (h : FrameAgree k a n [] f' f) : PricesAgree k (pricesOf f') (pricesOf f) where
  close := (h.untouched "close" List.not_mem_nil).numbersOf
  high := (h.untouched "high" List.not_mem_nil).numbersOf
  low := (h.untouched "low" List.not_mem_nil).numbersOf
  volume := (h.untouched "volume" List.not_mem_nil).numbersOf

structure Filled (n : ℕ) (p : Prices) : Prop where
  close : p.close.length = n
  high : p.high.length = n
  low : p.low.length = n
  volume : p.volume.length = n

lemma length_onPast {α β : Type*} (f : List α → β) (l : List α) : (onPast f l).length = l.length := by
  rw [onPast, List.length_map, List.length_range]

lemma length_values (indicator : StrategyLabIndicator) (hsource : xs.length = n) (h : Filled n p) :
    (indicator.values sqrt xs p).length = n := by
  obtain ⟨hclose, hhigh, hlow, hvolume⟩ := h
  rw [StrategyLabIndicator.values]
  cases indicator.kind <;>
    simp [relativeStrength, pctChange, bandUpper, bandLower, bandStd, Prices.trueRange, Series.apply, Series.combine,
      Series.replaceZero, Series.rowMax, Series.shift, Series.diff, Series.rolling, Series.ewm, Series.cumsum,
      length_onPast, hsource, hclose, hhigh, hlow, hvolume]

lemma filled_pricesOf (h : FrameAgree k a n written f' f) : Filled n (pricesOf f') where
  close := h.filled .close
  high := h.filled .high
  low := h.filled .low
  volume := h.filled .volume

lemma FrameAgree.set (h : FrameAgree k a n written f' f) (name : String) (hagree : Agree k a ys xs)
    (hlength : ys.length = n) :
    FrameAgree k a n (name :: written) (f'.set name (.numbers ys)) (f.set name (.numbers xs)) where
  names := by
    change insert name f'.names = insert name f.names
    rw [h.names]
  filled column := by
    rw [floats, Frame.column_set]
    split_ifs
    · exact hlength
    · exact h.filled column
  untouched other hother := by
    rw [List.mem_cons, not_or] at hother
    rw [Frame.column_set, Frame.column_set, if_neg hother.1, if_neg hother.1]
    exact h.untouched other hother.2
  settled other := by
    rw [Frame.column_set, Frame.column_set]
    split_ifs
    · exact .numbers hagree hlength
    · exact h.settled other

def Unchained (indicators : List StrategyLabIndicator) : Prop :=
  indicators.Pairwise fun earlier later => earlier.name ≠ later.source.name

instance (indicators : List StrategyLabIndicator) : Decidable (Unchained indicators) :=
  inferInstanceAs (Decidable (indicators.Pairwise _))

lemma FrameAgree.addIndicators (sqrt : ℚ → ℚ) (hprices : PricesAgree k p' p) (hfilled : Filled n p')
    {indicators : List StrategyLabIndicator} (hkind : ∀ indicator ∈ indicators, indicator.kind.unbounded = false)
    (hperiod : ∀ indicator ∈ indicators, indicator.period ≤ a) (hchain : Unchained indicators)
    (hsources : ∀ indicator ∈ indicators, indicator.source.name ∉ written) (h : FrameAgree k a n written f' f) :
    ∃ written', FrameAgree k a n written' (indicators.foldl (addIndicator sqrt p') f')
      (indicators.foldl (addIndicator sqrt p) f) := by
  induction indicators generalizing written f' f with
  | nil => exact ⟨written, h⟩
  | cons indicator rest ih =>
    obtain ⟨hhead, hrest⟩ := List.pairwise_cons.mp hchain
    have hsource := (h.untouched _ (hsources indicator List.mem_cons_self)).numbersOf
    have hvalues := agree_values sqrt indicator (hkind indicator List.mem_cons_self) hsource hprices
    have hnext := h.set indicator.name (hvalues.mono (hperiod indicator List.mem_cons_self))
      (length_values indicator (h.filled indicator.source) hfilled)
    refine ih (fun other hother => hkind other (List.mem_cons_of_mem _ hother))
      (fun other hother => hperiod other (List.mem_cons_of_mem _ hother)) hrest (fun other hother => ?_) hnext
    rw [List.mem_cons, not_or]
    exact ⟨(hhead other hother).symm, hsources other (List.mem_cons_of_mem _ hother)⟩

end Memory

section Judged

open Windowed

variable {k a n : ℕ} {written : List String} {f' f : Frame} {sqrt : ℚ → ℚ}

lemma value_congr (h : FrameAgree k a n written f' f) (back : ℕ) (hback : a + back < n) (operand : Operand) :
    value f' back operand = value f back operand := by
  cases operand with
  | column name => exact congrArg Option.join ((h.settled name).fromEnd hback)
  | number value => rfl

lemma conditionPassed_congr (h : FrameAgree k a n written f' f) (hn : a + 2 ≤ n) (condition : StrategyLabCondition) :
    conditionPassed f' condition = conditionPassed f condition := by
  have hnow := value_congr h 0 (by omega)
  have hprev := value_congr h 1 (by omega)
  simp only [conditionPassed, hnow, hprev]

lemma tailMissing_congr (h : FrameAgree k a n written f' f) (hn : a + 2 ≤ n) : tailMissing f' ↔ tailMissing f := by
  rw [tailMissing, tailMissing, h.names]
  have hlast (name : String) := (h.settled name).lastMissing (by omega)
  simp only [hlast]

lemma judge_congr (dsl : StrategyLabDsl) (h : FrameAgree k a n written f' f) (hn : a + 2 ≤ n) (hrows : n ≤ f'.rows)
    (hrows' : n ≤ f.rows) : dsl.judge f' = dsl.judge f := by
  have hshort : f'.rows < 2 ↔ f.rows < 2 := by omega
  have hcondition := conditionPassed_congr h hn
  have hprice := value_congr h 0 (by omega) (.column "close")
  simp only [StrategyLabDsl.judge, hshort, tailMissing_congr h hn, hcondition, hprice]

lemma rows_addIndicators (p : Prices) (indicators : List StrategyLabIndicator) (f : Frame) :
    (indicators.foldl (addIndicator sqrt p) f).rows = f.rows := by
  induction indicators generalizing f with
  | nil => rfl
  | cons indicator rest ih => exact ih (addIndicator sqrt p f indicator)

lemma le_foldr_max {l : List ℕ} {base x : ℕ} (h : x ∈ l) : x ≤ l.foldr max base := by
  induction l with
  | nil => exact absurd h List.not_mem_nil
  | cons first rest ih =>
    rcases List.mem_cons.mp h with rfl | hrest
    · exact le_max_left _ _
    · exact (ih hrest).trans (le_max_right _ _)

end Judged

def pullback : StrategyLabDsl where
  name := "generated_pullback"
  indicators := [⟨"sma_5", .sma, .close, 5, by decide, by decide⟩, ⟨"rsi_14", .rsi, .close, 14, by decide, by decide⟩,
    ⟨"high_20", .donchianHigh, .high, 20, by decide, by decide⟩]
  entryConditions := [⟨.crossesAbove, "close", .column "sma_5"⟩, ⟨.below, "rsi_14", .number 60⟩]
  stopLossPct := 2
  takeProfitPct := 4
  indicators_count := by decide
  conditions_count := by decide
  stop_bounds := by decide +kernel
  target_bounds := by decide +kernel
  hold_bounds := by decide
  available := by decide

def thirtyBars : Backtesting.Frame :=
  (List.range 30).map fun (day : ℕ) => ⟨day, 100, 103 + (day % 3 : ℕ), 98, 100 + (day % 4 : ℕ), 1000⟩

-- Exact on the squares; none of the indicators of ``pullback`` takes a root.
def squareRoot (x : ℚ) : ℚ := x.num.toNat.sqrt / x.den.sqrt

-- A rule set that buys on every bar.
def alwaysLong : StrategyLabDsl where
  name := "generated_always_long"
  indicators := [⟨"sma_5", .sma, .close, 5, by decide, by decide⟩]
  entryConditions := [⟨.above, "close", .number 0⟩]
  stopLossPct := 5
  takeProfitPct := 5
  indicators_count := by decide
  conditions_count := by decide
  stop_bounds := by decide +kernel
  target_bounds := by decide +kernel
  hold_bounds := by decide
  available := by decide

end AlgoTrader.StrategyLab
