import AlgoTrader.Backtesting.WalkForward
import Mathlib.Order.Monotone.Basic
import Mathlib.Tactic.Linarith
import Mathlib.Tactic.Ring

/-! The folds of a split. The windows are cut at regular days from the first bar, so what two
of them share is decided by their boundaries alone. -/

namespace AlgoTrader.Backtesting

open Utils.Time

section Slice

variable {frame : Frame} {trainStart trainEnd testStart testEnd : Timestamp}

@[simp] lemma mem_trainBars {bar : Bar} : bar ∈ trainBars frame trainStart trainEnd ↔
    bar ∈ frame ∧ trainStart ≤ bar.timestamp ∧ bar.timestamp < trainEnd := by
  simp [trainBars]

@[simp] lemma mem_testBars {bar : Bar} : bar ∈ testBars frame testStart testEnd ↔
    bar ∈ frame ∧ testStart ≤ bar.timestamp ∧ bar.timestamp ≤ testEnd := by
  simp [testBars]

@[simp] lemma mem_normalizeData {bar : Bar} : bar ∈ normalizeData frame ↔ bar ∈ frame :=
  List.mem_insertionSort _

lemma latest_spec {t : Timestamp} (h : latest frame = some t) :
    (∃ bar ∈ frame, bar.timestamp = t) ∧ ∀ bar ∈ frame, bar.timestamp ≤ t := by
  obtain ⟨hmem, hle⟩ := List.max?_eq_some_iff.mp h
  exact ⟨List.mem_map.mp hmem, fun bar hbar => hle _ (List.mem_map_of_mem hbar)⟩

lemma earliest_spec {t : Timestamp} (h : earliest frame = some t) :
    (∃ bar ∈ frame, bar.timestamp = t) ∧ ∀ bar ∈ frame, t ≤ bar.timestamp := by
  obtain ⟨hmem, hle⟩ := List.min?_eq_some_iff.mp h
  exact ⟨List.mem_map.mp hmem, fun bar hbar => hle _ (List.mem_map_of_mem hbar)⟩

lemma latest_eq_none : latest frame = none ↔ frame = [] := by
  rw [latest, List.max?_eq_none_iff, List.map_eq_nil_iff]

lemma earliest_eq_none : earliest frame = none ↔ frame = [] := by
  rw [earliest, List.min?_eq_none_iff, List.map_eq_nil_iff]

structure SlicedTo (frame : Frame) (trainStart trainEnd testStart testEnd : Timestamp) (w : WalkForwardWindow) :
    Prop where
  trainStart_eq : w.trainStart = trainStart
  trainEnd_eq : w.trainEnd = trainEnd
  testStart_eq : w.testStart = testStart
  testEnd_eq : w.testEnd = testEnd
  train : w.trainDf = trainBars frame trainStart trainEnd
  test : w.testDf = testBars frame testStart testEnd
  train_ne : trainBars frame trainStart trainEnd ≠ []
  test_ne : testBars frame testStart testEnd ≠ []

lemma slice_sliced {w : WalkForwardWindow}
    (h : slice frame trainStart trainEnd testStart testEnd = .ok (some w)) :
    SlicedTo frame trainStart trainEnd testStart testEnd w := by
  unfold slice at h
  dsimp only at h
  cases hmax : latest (trainBars frame trainStart trainEnd) with
  | none => simp [hmax] at h
  | some trainMax =>
    cases hmin : earliest (testBars frame testStart testEnd) with
    | none => simp [hmax, hmin] at h
    | some testMin =>
      simp only [hmax, hmin] at h
      split_ifs at h with hoverlap htrain htest
      obtain rfl := Option.some.inj (Except.ok.inj h)
      refine ⟨rfl, rfl, rfl, rfl, rfl, rfl, ?_, ?_⟩
      · intro hnil
        simp [latest_eq_none.mpr hnil] at hmax
      · intro hnil
        simp [earliest_eq_none.mpr hnil] at hmin

/-- With ordered boundaries the slice never raises: the bars on its two sides do not meet. -/
lemma slice_total (frame : Frame) (trainStart : Timestamp) (htrain : trainEnd ≤ testStart)
    (htest : testStart ≤ testEnd) :
    ∃ fold, slice frame trainStart trainEnd testStart testEnd = .ok fold ∧
      (fold = none → trainBars frame trainStart trainEnd = [] ∨ testBars frame testStart testEnd = []) := by
  unfold slice
  dsimp only
  cases hmax : latest (trainBars frame trainStart trainEnd) with
  | none => exact ⟨none, rfl, fun _ => .inl (latest_eq_none.mp hmax)⟩
  | some trainMax =>
    cases hmin : earliest (testBars frame testStart testEnd) with
    | none => exact ⟨none, rfl, fun _ => .inr (earliest_eq_none.mp hmin)⟩
    | some testMin =>
      obtain ⟨⟨a, ha, rfl⟩, _⟩ := latest_spec hmax
      obtain ⟨⟨b, hb, rfl⟩, _⟩ := earliest_spec hmin
      obtain ⟨_, _, hatrain⟩ := mem_trainBars.mp ha
      obtain ⟨_, hbtest, _⟩ := mem_testBars.mp hb
      have hdisjoint : ¬ b.timestamp ≤ a.timestamp := not_le.mpr (hatrain.trans_le (htrain.trans hbtest))
      simp only [if_neg hdisjoint, dif_pos htrain, dif_pos htest]
      exact ⟨_, rfl, by simp⟩

lemma slice_some (htrain : trainEnd ≤ testStart) (htest : testStart ≤ testEnd)
    (htrainBars : trainBars frame trainStart trainEnd ≠ []) (htestBars : testBars frame testStart testEnd ≠ []) :
    ∃ w, slice frame trainStart trainEnd testStart testEnd = .ok (some w) := by
  obtain ⟨fold, hfold, hnone⟩ := slice_total frame trainStart htrain htest
  cases fold with
  | none => exact absurd (hnone rfl) (by simp [htrainBars, htestBars])
  | some w => exact ⟨w, hfold⟩

end Slice

@[simp] lemma days_zero : days 0 = 0 := rfl

lemma days_add (a b : ℤ) : days (a + b) = days a + days b := Int.add_mul a b _

lemma days_le_days {a b : ℤ} : days a ≤ days b ↔ a ≤ b :=
  mul_le_mul_iff_left₀ (by decide)

lemma days_pos {n : ℤ} : 0 < days n ↔ 0 < n := by
  rw [← not_le, ← not_le, not_iff_not]
  exact days_le_days (b := 0)

namespace WalkForwardSplitter

variable (splitter : WalkForwardSplitter) (start : Timestamp)

def trainEndAt (k : ℕ) : Timestamp := start + days splitter.trainDays + days (k * splitter.stepDays)

def trainStartAt (k : ℕ) : Timestamp := splitter.trainEndAt start k - days splitter.trainDays

def testStartAt (k : ℕ) : Timestamp := splitter.trainEndAt start k + days splitter.embargoDays

def testEndAt (k : ℕ) : Timestamp := splitter.testStartAt start k + days splitter.testDays

def foldAt (frame : Frame) (k : ℕ) : Except SplitError (Option WalkForwardWindow) :=
  slice frame (splitter.trainStartAt start k) (splitter.trainEndAt start k) (splitter.testStartAt start k)
    (splitter.testEndAt start k)

structure Yields (boundary : Timestamp) (frame : Frame) (k : ℕ) (w : WalkForwardWindow) : Prop where
  ends : splitter.testEndAt start k ≤ boundary
  fold : splitter.foldAt start frame k = .ok (some w)

structure Accepted : Prop where
  train : 0 < splitter.trainDays
  test : 0 < splitter.testDays
  step : 0 < splitter.stepDays
  embargo : 0 ≤ splitter.embargoDays
  holdout : 0 ≤ splitter.holdoutDays

end WalkForwardSplitter

section Folds

variable {splitter : WalkForwardSplitter} {start boundary : Timestamp} {frame : Frame} {k fuel : ℕ}
  {windows : List WalkForwardWindow}

lemma check_ok : splitter.check = .ok () ↔ splitter.Accepted := by
  rw [WalkForwardSplitter.check]
  constructor
  · intro h
    split_ifs at h
    constructor <;> omega
  · rintro ⟨htrain, htest, hstep, hembargo, hholdout⟩
    rw [if_neg (by omega), if_neg (by omega), if_neg (by omega), if_neg (by omega), if_neg (by omega)]

lemma trainEndAt_zero : splitter.trainEndAt start 0 = start + days splitter.trainDays := by
  simp [WalkForwardSplitter.trainEndAt]

lemma trainStartAt_zero : splitter.trainStartAt start 0 = start := by
  simp [WalkForwardSplitter.trainStartAt, trainEndAt_zero]

lemma trainEndAt_succ : splitter.trainEndAt start (k + 1) = splitter.trainEndAt start k + days splitter.stepDays := by
  unfold WalkForwardSplitter.trainEndAt
  rw [Nat.cast_succ, Int.add_mul, one_mul, days_add, ← add_assoc]

lemma testStartAt_succ :
    splitter.testStartAt start (k + 1) = splitter.testStartAt start k + days splitter.stepDays := by
  unfold WalkForwardSplitter.testStartAt
  rw [trainEndAt_succ]
  ring

lemma testStartAt_lt (h : splitter.Accepted) (start : Timestamp) {j k : ℕ} (hjk : j < k) :
    splitter.testStartAt start j < splitter.testStartAt start k := by
  refine strictMono_nat_of_lt_succ (fun k => ?_) hjk
  rw [testStartAt_succ]
  have := days_pos.mpr h.step
  linarith

lemma testStartAt_le (h : splitter.Accepted) (start : Timestamp) {j k : ℕ} (hjk : j ≤ k) :
    splitter.testStartAt start j ≤ splitter.testStartAt start k := by
  rcases hjk.eq_or_lt with rfl | hlt
  · exact le_rfl
  · exact (testStartAt_lt h start hlt).le

lemma foldAt_ordered (h : splitter.Accepted) (start : Timestamp) (k : ℕ) :
    splitter.trainEndAt start k ≤ splitter.testStartAt start k ∧
      splitter.testStartAt start k < splitter.testEndAt start k := by
  have hembargo := days_le_days.mpr h.embargo
  have htest := days_pos.mpr h.test
  rw [WalkForwardSplitter.testEndAt, WalkForwardSplitter.testStartAt]
  rw [days_zero] at hembargo
  exact ⟨by linarith, by linarith⟩

structure FoldsFrom (splitter : WalkForwardSplitter) (start boundary : Timestamp) (frame : Frame) (k : ℕ)
    (windows : List WalkForwardWindow) : Prop where
  mem : ∀ w, w ∈ windows ↔ ∃ j, k ≤ j ∧ splitter.Yields start boundary frame j w
  ordered : windows.Pairwise fun a b => ∃ i j, i < j ∧ splitter.Yields start boundary frame i a ∧
    splitter.Yields start boundary frame j b

lemma FoldsFrom.empty (h : splitter.Accepted) (hpast : boundary < splitter.testEndAt start k) :
    FoldsFrom splitter start boundary frame k [] := by
  refine ⟨fun w => ?_, .nil⟩
  simp only [List.not_mem_nil, false_iff, not_exists, not_and]
  rintro j hj ⟨hend, _⟩
  have hmono := testStartAt_le h start hj
  rw [WalkForwardSplitter.testEndAt] at hpast hend
  linarith

lemma FoldsFrom.cons {rest : List WalkForwardWindow} {fold : Option WalkForwardWindow}
    (hfold : splitter.foldAt start frame k = .ok fold) (hend : splitter.testEndAt start k ≤ boundary)
    (hrest : FoldsFrom splitter start boundary frame (k + 1) rest) :
    FoldsFrom splitter start boundary frame k (fold.toList ++ rest) := by
  constructor
  · intro w
    rw [List.mem_append, hrest.mem, Option.mem_toList]
    constructor
    · rintro (hw | ⟨j, hj, hyields⟩)
      · exact ⟨k, le_rfl, hend, hw ▸ hfold⟩
      · exact ⟨j, Nat.le_of_succ_le hj, hyields⟩
    · rintro ⟨j, hj, hyields⟩
      rcases hj.eq_or_lt with rfl | hlt
      · exact .inl (Except.ok.inj (hfold.symm.trans hyields.fold))
      · exact .inr ⟨j, hlt, hyields⟩
  · refine List.pairwise_append.mpr ⟨?_, hrest.ordered, ?_⟩
    · cases fold with
      | none => exact .nil
      | some w => exact List.pairwise_singleton _ w
    · intro a ha b hb
      obtain ⟨j, hj, hyields⟩ := (hrest.mem b).mp hb
      obtain rfl := Option.mem_toList.mp ha
      exact ⟨k, j, hj, ⟨hend, hfold⟩, hyields⟩

theorem folds_spec (h : splitter.Accepted) (hfuel : boundary < splitter.trainEndAt start k + days fuel) :
    ∃ windows, splitter.folds frame boundary fuel (splitter.trainStartAt start k) (splitter.trainEndAt start k) =
      .ok windows ∧ FoldsFrom splitter start boundary frame k windows := by
  induction fuel generalizing k with
  | zero =>
    obtain ⟨htrain, htest⟩ := foldAt_ordered h start k
    simp only [Nat.cast_zero, days_zero, add_zero] at hfuel
    exact ⟨[], rfl, .empty h (by linarith)⟩
  | succ fuel ih =>
    have htestEnd : splitter.trainEndAt start k + days splitter.embargoDays + days splitter.testDays =
      splitter.testEndAt start k := rfl
    simp only [WalkForwardSplitter.folds, htestEnd]
    split_ifs with hpast
    · exact ⟨[], rfl, .empty h hpast⟩
    · obtain ⟨htrain, htest⟩ := foldAt_ordered h start k
      obtain ⟨fold, hfold, _⟩ := slice_total frame (splitter.trainStartAt start k) htrain htest.le
      have hstep : days 1 ≤ days splitter.stepDays := days_le_days.mpr h.step
      have hnext : boundary < splitter.trainEndAt start (k + 1) + days fuel := by
        rw [trainEndAt_succ]
        rw [Nat.cast_succ, days_add] at hfuel
        linarith
      obtain ⟨rest, hrest, hspec⟩ := ih hnext
      refine ⟨fold.toList ++ rest, ?_, .cons hfold (not_lt.mp hpast) hspec⟩
      rw [trainEndAt_succ, WalkForwardSplitter.trainStartAt, trainEndAt_succ] at hrest
      have hfold' : slice frame (splitter.trainStartAt start k) (splitter.trainEndAt start k)
          (splitter.trainEndAt start k + days splitter.embargoDays) (splitter.testEndAt start k) = .ok fold := hfold
      rw [hfold']
      change (splitter.folds frame boundary fuel _ _ >>= _) = _
      rw [hrest]
      rfl

end Folds

section Split

variable {splitter : WalkForwardSplitter} {start datasetEnd : Timestamp} {frame : Frame}
  {windows : List WalkForwardWindow}

def WalkForwardSplitter.holdoutBoundary (splitter : WalkForwardSplitter) (datasetEnd : Timestamp) : Timestamp :=
  datasetEnd - days splitter.holdoutDays

lemma lt_rounds (gap : ℤ) : gap < days ((gap / microsPerDay + 1).toNat : ℕ) := by
  have hlt : gap < (gap / microsPerDay + 1) * microsPerDay := Int.lt_ediv_add_one_mul_self gap (by decide)
  exact hlt.trans_le (days_le_days.mpr (Int.self_le_toNat _))

theorem split_spec (h : splitter.Accepted) (hstart : earliest frame = some start)
    (hend : latest frame = some datasetEnd) : ∃ windows, splitter.split frame = .ok windows ∧
      FoldsFrom splitter start (splitter.holdoutBoundary datasetEnd) (normalizeData frame) 0 windows := by
  have hrounds := lt_rounds (splitter.holdoutBoundary datasetEnd - (start + days splitter.trainDays))
  have hfuel : splitter.holdoutBoundary datasetEnd < splitter.trainEndAt start 0 + days
      ((splitter.holdoutBoundary datasetEnd - (start + days splitter.trainDays)) / microsPerDay + 1).toNat := by
    rw [trainEndAt_zero]
    linarith
  obtain ⟨windows, hfolds, hwindows⟩ := folds_spec h hfuel
  rw [trainStartAt_zero, trainEndAt_zero] at hfolds
  refine ⟨windows, ?_, hwindows⟩
  rw [WalkForwardSplitter.split, check_ok.mpr h, hstart, hend]
  exact hfolds

lemma split_nil (h : splitter.Accepted) : splitter.split [] = .ok [] := by
  rw [WalkForwardSplitter.split, check_ok.mpr h]
  rfl

lemma split_accepted (h : splitter.split frame = .ok windows) : splitter.Accepted := by
  rw [WalkForwardSplitter.split] at h
  cases hcheck : splitter.check with
  | error e =>
    rw [hcheck] at h
    cases h
  | ok u => exact check_ok.mp hcheck

lemma bounds_of_ne_nil (h : frame ≠ []) : ∃ start datasetEnd, earliest frame = some start ∧
    latest frame = some datasetEnd := by
  obtain ⟨start, hstart⟩ := Option.ne_none_iff_exists'.mp (earliest_eq_none.not.mpr h)
  obtain ⟨datasetEnd, hend⟩ := Option.ne_none_iff_exists'.mp (latest_eq_none.not.mpr h)
  exact ⟨start, datasetEnd, hstart, hend⟩

theorem split_total (h : splitter.Accepted) (frame : Frame) : ∃ windows, splitter.split frame = .ok windows := by
  by_cases hframe : frame = []
  · rw [hframe]
    exact ⟨[], split_nil h⟩
  · obtain ⟨start, datasetEnd, hstart, hend⟩ := bounds_of_ne_nil hframe
    obtain ⟨windows, hsplit, _⟩ := split_spec h hstart hend
    exact ⟨windows, hsplit⟩

theorem split_cases (h : splitter.split frame = .ok windows) : (frame = [] ∧ windows = []) ∨
    ∃ start datasetEnd, earliest frame = some start ∧ latest frame = some datasetEnd ∧
      FoldsFrom splitter start (splitter.holdoutBoundary datasetEnd) (normalizeData frame) 0 windows := by
  have haccepted := split_accepted h
  by_cases hframe : frame = []
  · rw [hframe, split_nil haccepted] at h
    exact .inl ⟨hframe, (Except.ok.inj h).symm⟩
  · obtain ⟨start, datasetEnd, hstart, hend⟩ := bounds_of_ne_nil hframe
    obtain ⟨windows', hsplit, hspec⟩ := split_spec haccepted hstart hend
    obtain rfl := Except.ok.inj (h.symm.trans hsplit)
    exact .inr ⟨start, datasetEnd, hstart, hend, hspec⟩

structure HoldoutOf (splitter : WalkForwardSplitter) (frame : Frame) (datasetEnd : Timestamp) (h : WalkForwardWindow) :
    Prop where
  end_eq : latest frame = some datasetEnd
  positive : 0 < splitter.holdoutDays
  sliced : SlicedTo (normalizeData frame)
    (splitter.holdoutBoundary datasetEnd - days splitter.embargoDays - days splitter.trainDays)
    (splitter.holdoutBoundary datasetEnd - days splitter.embargoDays)
    (splitter.holdoutBoundary datasetEnd + days splitter.embargoDays) datasetEnd h

lemma holdoutWindow_some {h : WalkForwardWindow} (hholdout : splitter.holdoutWindow frame = .ok (some h)) :
    ∃ datasetEnd, HoldoutOf splitter frame datasetEnd h := by
  rw [WalkForwardSplitter.holdoutWindow] at hholdout
  cases hend : latest frame with
  | none => simp [hend] at hholdout
  | some datasetEnd =>
    simp only [hend] at hholdout
    split_ifs at hholdout with hpositive
    · simp at hholdout
    · exact ⟨datasetEnd, hend, not_le.mp hpositive, slice_sliced hholdout⟩

end Split

end AlgoTrader.Backtesting
