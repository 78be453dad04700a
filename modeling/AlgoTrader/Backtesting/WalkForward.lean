import AlgoTrader.Backtesting.Frame

/-! Walk-forward splitting (``app/backtesting/walk_forward.py``). Windows are cut out of a
sorted frame by timestamp; a day is 24 hours, as in ``pd.Timedelta``. -/

namespace AlgoTrader.Backtesting

open Utils.Time

def days (n : ℤ) : ℤ := n * microsPerDay

inductive SplitError
  | notPositive (field : String)
  | negative (field : String)
  | overlappingTrainTest
  | trainEndAfterTestStart (trainEnd testStart : Timestamp)
  | testEndBeforeTestStart
  deriving DecidableEq

structure WalkForwardWindow where
  trainStart : Timestamp
  trainEnd : Timestamp
  testStart : Timestamp
  testEnd : Timestamp
  trainDf : Frame
  testDf : Frame
  trainEnd_le : trainEnd ≤ testStart
  testStart_le : testStart ≤ testEnd
  deriving DecidableEq

structure WalkForwardSplitter where
  trainDays : ℤ := 180
  testDays : ℤ := 14
  stepDays : ℤ := 14
  embargoDays : ℤ := 1
  holdoutDays : ℤ := 28

def earliest (frame : Frame) : Option Timestamp := (frame.map (·.timestamp)).min?

def latest (frame : Frame) : Option Timestamp := (frame.map (·.timestamp)).max?

def trainBars (frame : Frame) (trainStart trainEnd : Timestamp) : Frame :=
  frame.filter fun bar => trainStart ≤ bar.timestamp ∧ bar.timestamp < trainEnd

def testBars (frame : Frame) (testStart testEnd : Timestamp) : Frame :=
  frame.filter fun bar => testStart ≤ bar.timestamp ∧ bar.timestamp ≤ testEnd

def slice (frame : Frame) (trainStart trainEnd testStart testEnd : Timestamp) :
    Except SplitError (Option WalkForwardWindow) :=
  let trainDf := trainBars frame trainStart trainEnd
  let testDf := testBars frame testStart testEnd
  match latest trainDf, earliest testDf with
  | some trainMax, some testMin =>
    if testMin ≤ trainMax then .error .overlappingTrainTest
    else if htrain : trainEnd ≤ testStart then
      if htest : testStart ≤ testEnd then
        .ok (some ⟨trainStart, trainEnd, testStart, testEnd, trainDf, testDf, htrain, htest⟩)
      else .error .testEndBeforeTestStart
    else .error (.trainEndAfterTestStart trainEnd testStart)
  | _, _ => .ok none

namespace WalkForwardSplitter

variable (splitter : WalkForwardSplitter)

def check : Except SplitError Unit :=
  if splitter.trainDays ≤ 0 then .error (.notPositive "train_days")
  else if splitter.testDays ≤ 0 then .error (.notPositive "test_days")
  else if splitter.stepDays ≤ 0 then .error (.notPositive "step_days")
  else if splitter.embargoDays < 0 then .error (.negative "embargo_days")
  else if splitter.holdoutDays < 0 then .error (.negative "holdout_days")
  else .ok ()

-- The source loops until a test window ends past the holdout boundary; `fuel` counts rounds.
def folds (frame : Frame) (holdoutBoundary : Timestamp) :
    ℕ → Timestamp → Timestamp → Except SplitError (List WalkForwardWindow)
  | 0, _, _ => .ok []
  | fuel + 1, trainStart, trainEnd =>
    let testStart := trainEnd + days splitter.embargoDays
    let testEnd := testStart + days splitter.testDays
    if holdoutBoundary < testEnd then .ok []
    else do
      let fold ← slice frame trainStart trainEnd testStart testEnd
      let nextEnd := trainEnd + days splitter.stepDays
      let rest ← folds frame holdoutBoundary fuel (nextEnd - days splitter.trainDays) nextEnd
      pure (fold.toList ++ rest)

def split (frame : Frame) : Except SplitError (List WalkForwardWindow) := do
  splitter.check
  match earliest frame, latest frame with
  | some trainStart, some datasetEnd =>
    let holdoutBoundary := datasetEnd - days splitter.holdoutDays
    let trainEnd := trainStart + days splitter.trainDays
    let rounds := ((holdoutBoundary - trainEnd) / microsPerDay + 1).toNat
    splitter.folds (normalizeData frame) holdoutBoundary rounds trainStart trainEnd
  | _, _ => pure []

def holdoutWindow (frame : Frame) : Except SplitError (Option WalkForwardWindow) :=
  match latest frame with
  | none => .ok none
  | some datasetEnd =>
    if splitter.holdoutDays ≤ 0 then .ok none
    else
      let holdoutStart := datasetEnd - days splitter.holdoutDays
      let embargoEnd := holdoutStart + days splitter.embargoDays
      let trainEnd := holdoutStart - days splitter.embargoDays
      let trainStart := trainEnd - days splitter.trainDays
      slice (normalizeData frame) trainStart trainEnd embargoEnd datasetEnd

end WalkForwardSplitter

end AlgoTrader.Backtesting
