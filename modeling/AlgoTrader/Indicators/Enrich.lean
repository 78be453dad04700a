import AlgoTrader.Indicators.Series
import AlgoTrader.Utils.Time
import Mathlib.Data.Finset.Insert
import Mathlib.Logic.Function.Basic

/-! The indicators of an OHLCV frame (``_enrich``). Each is causal: the frame cut off at a row has the
indicators cut off there. -/

namespace AlgoTrader.Indicators

open Causal Utils.Time

inductive Column
  | numbers (values : Series)
  | times (values : List (Option Timestamp))
  | dates (values : List (Option ℤ))
  | flags (values : List Bool)
  | texts (values : List String)
  deriving DecidableEq

def Column.head (n : ℕ) : Column → Column
  | numbers values => numbers (values.take n)
  | times values => times (values.take n)
  | dates values => dates (values.take n)
  | flags values => flags (values.take n)
  | texts values => texts (values.take n)

structure Frame where
  rows : ℕ
  names : Finset String
  column : String → Option Column
  mem_names : ∀ name, name ∈ names ↔ (column name).isSome = true

namespace Frame

variable {f g : Frame}

lemma ext_column (hrows : f.rows = g.rows) (hcolumn : ∀ name, f.column name = g.column name) : f = g := by
  obtain ⟨rows, names, column, hnames⟩ := f
  obtain ⟨rows', names', column', hnames'⟩ := g
  obtain rfl : rows = rows' := hrows
  obtain rfl : column = column' := funext hcolumn
  obtain rfl : names = names' := by
    ext name
    rw [hnames, hnames']
  rfl

def set (f : Frame) (name : String) (c : Column) : Frame where
  rows := f.rows
  names := insert name f.names
  column := Function.update f.column name (some c)
  mem_names other := by
    rw [Finset.mem_insert, f.mem_names, Function.update_apply]
    split_ifs with h <;> simp [h]

def setAll (f : Frame) (columns : List (String × Column)) : Frame := columns.foldl (fun f c => f.set c.1 c.2) f

/-- ``iloc[:n]``. -/
def head (f : Frame) (n : ℕ) : Frame where
  rows := min n f.rows
  names := f.names
  column name := (f.column name).map (Column.head n)
  mem_names name := by rw [f.mem_names, Option.isSome_map]

def headColumns (n : ℕ) (columns : List (String × Column)) : List (String × Column) :=
  columns.map fun c => (c.1, c.2.head n)

@[simp]
lemma column_head (f : Frame) (n : ℕ) (name : String) :
    (f.head n).column name = (f.column name).map (Column.head n) := rfl

@[simp]
lemma column_set (f : Frame) (name other : String) (c : Column) :
    (f.set name c).column other = if other = name then some c else f.column other := Function.update_apply _ _ _ _

lemma set_head (f : Frame) (n : ℕ) (name : String) (c : Column) :
    (f.head n).set name (c.head n) = (f.set name c).head n := by
  refine ext_column rfl fun other => ?_
  rw [column_set, column_head, column_head, column_set]
  split_ifs
  · rfl
  · rfl

lemma setAll_head (f : Frame) (n : ℕ) (columns : List (String × Column)) :
    (f.head n).setAll (headColumns n columns) = (f.setAll columns).head n := by
  induction columns generalizing f with
  | nil => rfl
  | cons c columns ih =>
    change ((f.head n).set c.1 (c.2.head n)).setAll (headColumns n columns) = _
    rw [set_head, ih]
    rfl

lemma setAll_rows (f : Frame) (columns : List (String × Column)) : (f.setAll columns).rows = f.rows := by
  induction columns generalizing f with
  | nil => rfl
  | cons c columns ih => exact ih (f.set c.1 c.2)

end Frame

inductive FrameError
  | keyError (column : String)
  | conversion (column : String)
  deriving DecidableEq

def intradayTimeframes : List String := ["1m", "5m", "10m", "15m"]

structure Prices where
  close : Series
  high : Series
  low : Series
  volume : Series
  -- the times of an intraday frame that has them
  sessions : Option (List (Option Timestamp))

namespace Frame

variable (f : Frame)

def numbers (name : String) : Except FrameError Series :=
  match f.column name with
  | none => .error (.keyError name)
  | some (.numbers values) => .ok values
  | some _ => .error (.conversion name)

def sessions (timeframe : String) : Except FrameError (Option (List (Option Timestamp))) :=
  if timeframe.toLower ∈ intradayTimeframes then
    match f.column "timestamp" with
    | none => .ok none
    | some (.times values) => .ok (some values)
    | some _ => .error (.conversion "timestamp")
  else .ok none

def prices (timeframe : String) : Except FrameError Prices := do
  let close ← f.numbers "close"
  let high ← f.numbers "high"
  let low ← f.numbers "low"
  let volume ← f.numbers "volume"
  let sessions ← f.sessions timeframe
  return { close, high, low, volume, sessions }

end Frame

def Prices.head (p : Prices) (n : ℕ) : Prices where
  close := p.close.take n
  high := p.high.take n
  low := p.low.take n
  volume := p.volume.take n
  sessions := p.sessions.map (List.take n)

lemma numbers_head (f : Frame) (n : ℕ) (name : String) :
    (f.head n).numbers name = (f.numbers name).map (List.take n) := by
  rw [Frame.numbers, Frame.column_head, Frame.numbers]
  cases f.column name with
  | none => rfl
  | some c => cases c <;> rfl

lemma sessions_head (f : Frame) (n : ℕ) (timeframe : String) :
    (f.head n).sessions timeframe = (f.sessions timeframe).map (Option.map (List.take n)) := by
  rw [Frame.sessions, Frame.column_head, Frame.sessions]
  split_ifs
  · cases f.column "timestamp" with
    | none => rfl
    | some c => cases c <;> rfl
  · rfl

lemma prices_head (f : Frame) (n : ℕ) (timeframe : String) :
    (f.head n).prices timeframe = (f.prices timeframe).map (·.head n) := by
  simp only [Frame.prices, numbers_head, sessions_head]
  cases f.numbers "close" <;> cases f.numbers "high" <;> cases f.numbers "low" <;> cases f.numbers "volume" <;>
    cases f.sessions timeframe <;> rfl

section Indicators

variable (sqrt : ℚ → ℚ) (p : Prices) (n : ℕ)

def trendColumns : List (String × Column) :=
  let ema9 := p.close.ewmSpan 9
  let ema20 := p.close.ewmSpan 20
  let ema50 := p.close.ewmSpan 50
  [("sma_20", .numbers (p.close.rollingMean 20)),
    ("sma_50", .numbers (p.close.rollingMean 50)),
    ("ema_9", .numbers ema9),
    ("ema_20", .numbers ema20),
    ("ema_50", .numbers ema50),
    ("ema_200", .numbers (p.close.ewmSpan 200)),
    ("ema_9_slope", .numbers (ema9.diff 3)),
    ("ema_20_slope", .numbers (ema20.diff 5)),
    ("ema_50_slope", .numbers (ema50.diff 8))]

def momentumColumns : List (String × Column) :=
  let delta := p.close.diff 1
  let gains := delta.clipLower 0
  let losses := delta.neg.clipLower 0
  let avgGain := gains.ewm (1 / 14) 14
  let avgLoss := losses.ewm (1 / 14) 14
  let rs := avgGain.div avgLoss.replaceZero
  let rsi14 := rs.apply fun x => 100 - 100 / (1 + x)
  let rsiMin := rsi14.rollingMin 14
  let rsiMax := rsi14.rollingMax 14
  let macdLine := (p.close.ewmSpan 12).sub (p.close.ewmSpan 26)
  let macdSignal := macdLine.ewmSpan 9
  [("rsi_14", .numbers rsi14),
    ("stoch_rsi", .numbers (((rsi14.sub rsiMin).div (rsiMax.sub rsiMin).replaceZero).clip 0 1)),
    ("macd_line", .numbers macdLine),
    ("macd_signal", .numbers macdSignal),
    ("macd_hist", .numbers (macdLine.sub macdSignal))]

def bandColumns : List (String × Column) :=
  let mid := p.close.rollingMean 20
  let std := p.close.rollingStd sqrt 20
  let upper := mid.add (std.apply (· * 2))
  let lower := mid.sub (std.apply (· * 2))
  [("bb_mid", .numbers mid),
    ("bb_std", .numbers std),
    ("bb_upper", .numbers upper),
    ("bb_lower", .numbers lower),
    ("bb_width_pct", .numbers (((upper.sub lower).div mid.replaceZero).apply (· * 100)))]

def Prices.trueRange : Series :=
  let prevClose := p.close.shift 1
  (p.high.sub p.low).rowMax (p.high.sub prevClose).abs (p.low.sub prevClose).abs

def rangeColumns : List (String × Column) :=
  let atr14 := p.trueRange.rollingMean 14
  [("prev_close", .numbers (p.close.shift 1)),
    ("true_range", .numbers p.trueRange),
    ("atr_14", .numbers atr14),
    ("atr_pct", .numbers ((atr14.div p.close.replaceZero).apply (· * 100)))]

def directionColumns : List (String × Column) :=
  let plusDm := (p.high.diff 1).clipLower 0
  let minusDm := (p.low.diff 1).neg.clipLower 0
  let plusDm := plusDm.keepWhere (plusDm.gt minusDm) (some 0)
  -- compared with the rows of the other direction as they are after the line above
  let minusDm := minusDm.keepWhere (minusDm.gt plusDm) (some 0)
  let atrSmooth := p.trueRange.ewm (1 / 14) 1
  let plusDi := ((plusDm.ewm (1 / 14) 1).div atrSmooth.replaceZero).apply (100 * ·)
  let minusDi := ((minusDm.ewm (1 / 14) 1).div atrSmooth.replaceZero).apply (100 * ·)
  let dx := ((plusDi.sub minusDi).abs.div (plusDi.add minusDi).replaceZero).apply (· * 100)
  [("adx_14", .numbers (dx.ewm (1 / 14) 1))]

def volumeColumns : List (String × Column) :=
  let direction := (p.close.diff 1).fillna 0
  let sign := direction.apply fun x => (if 0 < x then 1 else 0) - (if x < 0 then 1 else 0)
  let avgVolume20 := p.volume.rollingMean 20
  let dollarVolume := p.close.mul p.volume
  [("obv", .numbers (sign.mul p.volume).cumsum),
    ("avg_volume_20", .numbers avgVolume20),
    ("relative_volume", .numbers (p.volume.div avgVolume20.replaceZero)),
    ("dollar_volume", .numbers dollarVolume),
    ("avg_dollar_volume_20", .numbers (dollarVolume.rollingMean 20)),
    ("volume_spike", .flags (p.volume.ge (avgVolume20.apply (· * (3 / 2)))))]

def levelColumns : List (String × Column) :=
  [("swing_high_10", .numbers ((p.high.rollingMax 10).shift 1)),
    ("swing_low_10", .numbers ((p.low.rollingMin 10).shift 1)),
    ("range_high_20", .numbers ((p.high.rollingMax 20).shift 1)),
    ("range_low_20", .numbers ((p.low.rollingMin 20).shift 1)),
    ("prior_day_high", .numbers ((p.high.shift 1).rollingMax 1)),
    ("prior_day_low", .numbers ((p.low.shift 1).rollingMin 1))]

def sessionColumns (times : List (Option Timestamp)) : List (String × Column) :=
  let sessionDate := times.map (Option.map utcDate)
  let cumulativeVolume := Series.replaceZero (grouped sessionDate Series.lastSum none p.volume)
  let cumulativePriceVolume : Series := grouped sessionDate Series.lastSum none (p.close.mul p.volume)
  let sessionBar : Series := grouped sessionDate (fun rows => some (rows.length : ℚ)) none p.close
  let inRange := sessionBar.map fun bar => bar.any (· ≤ 5)
  let rangeHigh : Series := grouped sessionDate Series.lastMax none (p.high.keepWhere inRange none)
  let rangeLow : Series := grouped sessionDate Series.lastMin none (p.low.keepWhere inRange none)
  [("session_date", .dates sessionDate),
    ("vwap", .numbers (cumulativePriceVolume.div cumulativeVolume)),
    ("session_bar", .numbers sessionBar),
    ("opening_range_high", .numbers (grouped sessionDate Series.lastSeen none rangeHigh)),
    ("opening_range_low", .numbers (grouped sessionDate Series.lastSeen none rangeLow))]

def wholeFrameColumns : List (String × Column) :=
  [("vwap", .numbers ((p.close.mul p.volume).cumsum.div p.volume.cumsum.replaceZero)),
    ("opening_range_high", .numbers (p.close.map fun _ => none)),
    ("opening_range_low", .numbers (p.close.map fun _ => none))]

def vwapColumns : List (String × Column) :=
  match p.sessions with
  | some times => sessionColumns p times
  | none => wholeFrameColumns p

def indicators : List (String × Column) :=
  trendColumns p ++ momentumColumns p ++ bandColumns sqrt p ++ rangeColumns p ++ directionColumns p ++
    volumeColumns p ++ levelColumns p ++ vwapColumns p

lemma trendColumns_head : trendColumns (p.head n) = Frame.headColumns n (trendColumns p) := by
  simp [trendColumns, Frame.headColumns, Column.head, Prices.head]

lemma momentumColumns_head : momentumColumns (p.head n) = Frame.headColumns n (momentumColumns p) := by
  simp [momentumColumns, Frame.headColumns, Column.head, Prices.head]

lemma bandColumns_head : bandColumns sqrt (p.head n) = Frame.headColumns n (bandColumns sqrt p) := by
  simp [bandColumns, Frame.headColumns, Column.head, Prices.head]

lemma trueRange_head : (p.head n).trueRange = p.trueRange.take n := by
  simp [Prices.trueRange, Prices.head]

lemma rangeColumns_head : rangeColumns (p.head n) = Frame.headColumns n (rangeColumns p) := by
  rw [rangeColumns, trueRange_head]
  simp [rangeColumns, Frame.headColumns, Column.head, Prices.head]

lemma directionColumns_head : directionColumns (p.head n) = Frame.headColumns n (directionColumns p) := by
  rw [directionColumns, trueRange_head]
  simp [directionColumns, Frame.headColumns, Column.head, Prices.head]

lemma volumeColumns_head : volumeColumns (p.head n) = Frame.headColumns n (volumeColumns p) := by
  simp [volumeColumns, Frame.headColumns, Column.head, Prices.head]

lemma levelColumns_head : levelColumns (p.head n) = Frame.headColumns n (levelColumns p) := by
  simp [levelColumns, Frame.headColumns, Column.head, Prices.head]

lemma sessionColumns_head (times : List (Option Timestamp)) :
    sessionColumns (p.head n) (times.take n) = Frame.headColumns n (sessionColumns p times) := by
  simp [sessionColumns, Frame.headColumns, Column.head, Prices.head]

lemma wholeFrameColumns_head : wholeFrameColumns (p.head n) = Frame.headColumns n (wholeFrameColumns p) := by
  simp [wholeFrameColumns, Frame.headColumns, Column.head, Prices.head]

lemma vwapColumns_head : vwapColumns (p.head n) = Frame.headColumns n (vwapColumns p) := by
  rw [vwapColumns, vwapColumns, Prices.head]
  cases p.sessions with
  | none => exact wholeFrameColumns_head p n
  | some times => exact sessionColumns_head p n times

lemma headColumns_append (columns rest : List (String × Column)) :
    Frame.headColumns n (columns ++ rest) = Frame.headColumns n columns ++ Frame.headColumns n rest := List.map_append

theorem indicators_head : indicators sqrt (p.head n) = Frame.headColumns n (indicators sqrt p) := by
  simp only [indicators, headColumns_append, trendColumns_head, momentumColumns_head, bandColumns_head,
    rangeColumns_head, directionColumns_head, volumeColumns_head, levelColumns_head, vwapColumns_head]

end Indicators

variable (sqrt : ℚ → ℚ)

def enrich (data : Frame) (timeframe : String) : Except FrameError Frame :=
  if data.rows = 0 then .ok data else (data.prices timeframe).map fun p => data.setAll (indicators sqrt p)

lemma enrich_of_rows {data : Frame} (h : 0 < data.rows) (timeframe : String) :
    enrich sqrt data timeframe = (data.prices timeframe).map fun p => data.setAll (indicators sqrt p) :=
  if_neg h.ne'

lemma enrich_congr {timeframe timeframe' : String} (h : timeframe.toLower = timeframe'.toLower) (data : Frame) :
    enrich sqrt data timeframe = enrich sqrt data timeframe' := by
  rw [enrich, enrich, Frame.prices, Frame.prices, Frame.sessions, Frame.sessions, h]

theorem enrich_head {data : Frame} {n : ℕ} (hn : 0 < n) (h : 0 < data.rows) (timeframe : String) :
    enrich sqrt (data.head n) timeframe = (enrich sqrt data timeframe).map (·.head n) := by
  have hrows : 0 < (data.head n).rows := Nat.lt_min.mpr ⟨hn, h⟩
  rw [enrich_of_rows sqrt hrows, enrich_of_rows sqrt h, prices_head]
  cases data.prices timeframe with
  | error e => rfl
  | ok p =>
    change Except.ok ((data.head n).setAll (indicators sqrt (p.head n))) =
      Except.ok ((data.setAll (indicators sqrt p)).head n)
    rw [indicators_head, Frame.setAll_head]

end AlgoTrader.Indicators
