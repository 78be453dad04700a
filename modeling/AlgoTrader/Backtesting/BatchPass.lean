import Mathlib.Algebra.Order.Ring.Rat
import Mathlib.Data.List.Basic

/-! One pass of the batch backtester (``BatchBacktestService.run``): symbols, their timeframes and
the strategies of each, bounded by a deadline and resumed inside the first symbol. -/

namespace AlgoTrader.Backtesting

def minuteBarTimeframes : List String := ["1m", "5m", "10m", "15m"]

def isMinuteBar (timeframe : String) : Bool := timeframe.toLower ∈ minuteBarTimeframes

structure TimedCall where
  seconds : ℚ
  error : Option String := none

-- A strategy of a timeframe of a symbol, by their positions in the pass.
structure UnitAt where
  symbol : ℕ
  timeframe : ℕ
  spec : ℕ
  deriving DecidableEq

structure BatchPass where
  symbols : List String
  timeframes : List String
  strategySpecsFor : String → List String
  deadlineSeconds : Option ℚ := none
  startOffset : ℤ := 0
  startUnit : ℤ := 0
  getHistory : ℕ → ℕ → TimedCall
  runStrategy : UnitAt → TimedCall

-- `attempted` and `failedFetches` log what the pass did; the other fields are its local variables.
structure PassState where
  elapsed : ℚ := 0
  symbolsCovered : ℕ := 0
  runCount : ℕ := 0
  errors : List String := []
  resumeUnit : ℕ := 0
  stoppedMidSymbol : Bool := false
  truncated : Bool := false
  attempted : List UnitAt := []
  failedFetches : List (ℕ × ℕ) := []
  deriving DecidableEq

namespace PassState

variable (s : PassState)

def exceedDeadline : PassState :=
  { s with truncated := true, errors := s.errors ++ ["backtest_deadline_exceeded"] }

def stopAt (unit : ℕ) : PassState :=
  { s.exceedDeadline with resumeUnit := unit, stoppedMidSymbol := true }

def coverSymbol : PassState := { s with symbolsCovered := s.symbolsCovered + 1 }

def spend (call : TimedCall) : PassState := { s with elapsed := s.elapsed + call.seconds }

def fetchFailed (i j : ℕ) (message : String) : PassState :=
  { s with errors := s.errors ++ [message], failedFetches := s.failedFetches ++ [(i, j)] }

def attempt (unit : UnitAt) (error : Option String) : PassState :=
  { s with
    runCount := s.runCount + 1
    errors := s.errors ++ error.toList
    attempted := s.attempted ++ [unit] }

end PassState

namespace BatchPass

variable (b : BatchPass)

def rotatedUniverse : List String :=
  let upper := b.symbols.map String.toUpper
  let offset := (b.startOffset % upper.length).toNat
  if b.startOffset ≠ 0 ∧ upper ≠ [] then upper.drop offset ++ upper.take offset else upper

def scanTimeframes : List String :=
  (if b.timeframes = [] then ["1d"] else b.timeframes).map String.toLower

def skipUnits : ℕ := (max b.startUnit 0).toNat

def late (s : PassState) : Bool :=
  match b.deadlineSeconds with
  | some deadline => 0 < deadline ∧ deadline ≤ s.elapsed
  | none => false

-- The loop over the strategies of timeframe `j`; `k` is the position of the next one.
def runSpecs (symbol timeframe : String) (i j skipUnits : ℕ) : List String → ℕ → ℕ → PassState → ℕ × PassState
  | [], _, unit, s => (unit, s)
  | spec :: specs, k, unit, s =>
    let unit := unit + 1
    if unit ≤ skipUnits then runSpecs symbol timeframe i j skipUnits specs (k + 1) unit s
    else if b.late s then (unit, s.stopAt (unit - 1))
    else
      let call := b.runStrategy ⟨i, j, k⟩
      let error := call.error.map fun message => s!"{symbol} {timeframe} {spec}: {message}"
      runSpecs symbol timeframe i j skipUnits specs (k + 1) unit ((s.spend call).attempt ⟨i, j, k⟩ error)

def runTimeframes (symbol : String) (i skipUnits : ℕ) : List String → ℕ → ℕ → PassState → PassState
  | [], _, _, s => s
  | timeframe :: timeframes, j, unit, s =>
    let specs := b.strategySpecsFor timeframe
    if unit + specs.length ≤ skipUnits then
      runTimeframes symbol i skipUnits timeframes (j + 1) (unit + specs.length) s
    else if isMinuteBar timeframe ∧ b.late s then s.stopAt (max unit skipUnits)
    else
      let call := b.getHistory i j
      let s := s.spend call
      match call.error with
      | some message =>
        runTimeframes symbol i skipUnits timeframes (j + 1) unit (s.fetchFailed i j s!"{symbol} {timeframe}: {message}")
      | none =>
        let (unit, s) := b.runSpecs symbol timeframe i j skipUnits specs 0 unit s
        if s.truncated then s else runTimeframes symbol i skipUnits timeframes (j + 1) unit s

def runSymbols : List String → ℕ → ℕ → PassState → PassState
  | [], _, _, s => s
  | symbol :: symbols, i, skipUnits, s =>
    if b.late s then s.exceedDeadline
    else
      let s := b.runTimeframes symbol i skipUnits b.scanTimeframes 0 0 s.coverSymbol
      if s.truncated then s else runSymbols symbols (i + 1) 0 s

def run : PassState := b.runSymbols b.rotatedUniverse 0 b.skipUnits {}

end BatchPass

end AlgoTrader.Backtesting
