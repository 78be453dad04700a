import AlgoTrader.Backtesting.WalkForwardFolds
import Mathlib.Data.List.Pairwise

/-! Which bars the folds of a split share, with the sealed holdout and with one another. Test
windows are closed at both ends, so windows that touch share the bars at their boundary. -/

namespace AlgoTrader.Backtesting

open Utils.Time

variable {splitter : WalkForwardSplitter} {frame : Frame} {windows : List WalkForwardWindow}
  {start datasetEnd boundary : Timestamp} {k : ℕ} {w : WalkForwardWindow}

def HasBars (frame : Frame) (first last : Timestamp) : Prop :=
  ∃ bar ∈ frame, first ≤ bar.timestamp ∧ bar.timestamp < last

lemma trainBars_ne_nil {first last : Timestamp} :
    trainBars (normalizeData frame) first last ≠ [] ↔ HasBars frame first last := by
  rw [Ne, List.eq_nil_iff_forall_not_mem]
  simp [HasBars]

namespace WalkForwardSplitter.Yields

variable (h : splitter.Yields start boundary (normalizeData frame) k w)
include h

lemma sliced : SlicedTo (normalizeData frame) (splitter.trainStartAt start k) (splitter.trainEndAt start k)
    (splitter.testStartAt start k) (splitter.testEndAt start k) w := slice_sliced h.fold

lemma mem_train {bar : Bar} : bar ∈ w.trainDf ↔
    bar ∈ frame ∧ splitter.trainStartAt start k ≤ bar.timestamp ∧ bar.timestamp < splitter.trainEndAt start k := by
  rw [h.sliced.train, mem_trainBars, mem_normalizeData]

lemma mem_test {bar : Bar} : bar ∈ w.testDf ↔
    bar ∈ frame ∧ splitter.testStartAt start k ≤ bar.timestamp ∧ bar.timestamp ≤ splitter.testEndAt start k := by
  rw [h.sliced.test, mem_testBars, mem_normalizeData]

lemma hasBars : HasBars frame (splitter.trainStartAt start k) (splitter.trainEndAt start k) :=
  trainBars_ne_nil.mp h.sliced.train_ne

end WalkForwardSplitter.Yields

lemma yields_of_bar (h : splitter.Accepted) (hend : splitter.testEndAt start k ≤ boundary)
    (htrain : HasBars frame (splitter.trainStartAt start k) (splitter.trainEndAt start k)) {bar : Bar}
    (hbar : bar ∈ frame) (hfirst : splitter.testStartAt start k ≤ bar.timestamp)
    (hlast : bar.timestamp ≤ splitter.testEndAt start k) :
    ∃ w, splitter.Yields start boundary (normalizeData frame) k w ∧ bar ∈ w.testDf := by
  obtain ⟨hordered, htest⟩ := foldAt_ordered h start k
  have htestBars : bar ∈ testBars (normalizeData frame) (splitter.testStartAt start k) (splitter.testEndAt start k) :=
    mem_testBars.mpr ⟨mem_normalizeData.mpr hbar, hfirst, hlast⟩
  obtain ⟨w, hw⟩ := slice_some hordered htest.le (trainBars_ne_nil.mpr htrain) (List.ne_nil_of_mem htestBars)
  have hyields : splitter.Yields start boundary (normalizeData frame) k w := ⟨hend, hw⟩
  exact ⟨w, hyields, hyields.mem_test.mpr ⟨hbar, hfirst, hlast⟩⟩

structure Sealed (splitter : WalkForwardSplitter) (frame : Frame) (windows : List WalkForwardWindow) : Prop where
  ordered : ∀ w ∈ windows, ∀ a ∈ w.trainDf, ∀ b ∈ w.testDf, a.timestamp < b.timestamp
  embargo : ∀ w ∈ windows, w.testStart = w.trainEnd + days splitter.embargoDays ∧
    ∀ bar, bar ∈ w.trainDf ∨ bar ∈ w.testDf → ¬ (w.trainEnd ≤ bar.timestamp ∧ bar.timestamp < w.testStart)
  holdout : ∀ w ∈ windows, ∀ h, splitter.holdoutWindow frame = .ok (some h) → ∀ bar ∈ h.testDf,
    bar ∉ w.trainDf ∧ bar ∉ w.testDf

/-- Without an embargo a fold ends exactly where the holdout starts, a bar lies there, and
both have bars to train on. -/
structure TouchesHoldout (splitter : WalkForwardSplitter) (frame : Frame) (start datasetEnd : Timestamp) (k : ℕ)
    (bar : Bar) : Prop where
  start_eq : earliest frame = some start
  end_eq : latest frame = some datasetEnd
  no_embargo : splitter.embargoDays = 0
  positive : 0 < splitter.holdoutDays
  touches : splitter.testEndAt start k = splitter.holdoutBoundary datasetEnd
  mem : bar ∈ frame
  at_boundary : bar.timestamp = splitter.holdoutBoundary datasetEnd
  fold_train : HasBars frame (splitter.trainStartAt start k) (splitter.trainEndAt start k)
  holdout_train : HasBars frame (splitter.holdoutBoundary datasetEnd - days splitter.trainDays)
    (splitter.holdoutBoundary datasetEnd)

lemma TouchesHoldout.shared {bar : Bar} (h : TouchesHoldout splitter frame start datasetEnd k bar)
    (hsplit : splitter.split frame = .ok windows) : ¬ Sealed splitter frame windows := by
  intro hsealed
  have haccepted := split_accepted hsplit
  obtain ⟨windows', hsplit', hspec⟩ := split_spec haccepted h.start_eq h.end_eq
  obtain rfl := Except.ok.inj (hsplit.symm.trans hsplit')
  obtain ⟨_, htest⟩ := foldAt_ordered haccepted start k
  have hbar := h.at_boundary.trans h.touches.symm
  obtain ⟨w, hyields, hmem⟩ := yields_of_bar haccepted h.touches.le h.fold_train h.mem (hbar ▸ htest.le) hbar.le
  have hbefore : splitter.holdoutBoundary datasetEnd ≤ datasetEnd := by
    have := days_le_days.mpr haccepted.holdout
    rw [days_zero] at this
    rw [WalkForwardSplitter.holdoutBoundary]
    linarith
  have hholdout : bar ∈ testBars (normalizeData frame) (splitter.holdoutBoundary datasetEnd) datasetEnd :=
    mem_testBars.mpr ⟨mem_normalizeData.mpr h.mem, h.at_boundary.ge, h.at_boundary.trans_le hbefore⟩
  obtain ⟨holdout, hslice⟩ := slice_some le_rfl hbefore (trainBars_ne_nil.mpr h.holdout_train)
    (List.ne_nil_of_mem hholdout)
  have hwindow : splitter.holdoutWindow frame = .ok (some holdout) := by
    rw [WalkForwardSplitter.holdoutWindow]
    simp only [h.end_eq, if_neg h.positive.not_ge, h.no_embargo, days_zero, sub_zero, add_zero]
    exact hslice
  have hmemHoldout : bar ∈ holdout.testDf := by
    rw [(slice_sliced hslice).test]
    exact hholdout
  exact (hsealed.holdout w ((hspec.mem w).mpr ⟨k, Nat.zero_le k, hyields⟩) holdout hwindow bar hmemHoldout).2 hmem

theorem folds_sealed_iff (hsplit : splitter.split frame = .ok windows) :
    Sealed splitter frame windows ↔ ∀ start datasetEnd k bar, ¬ TouchesHoldout splitter frame start datasetEnd k bar := by
  constructor
  · intro hsealed start datasetEnd k bar htouches
    exact htouches.shared hsplit hsealed
  · intro hapart
    have haccepted := split_accepted hsplit
    have hembargo := days_le_days.mpr haccepted.embargo
    rw [days_zero] at hembargo
    rcases split_cases hsplit with ⟨_, rfl⟩ | ⟨start, datasetEnd, hstart, hend, hspec⟩
    · exact ⟨by simp, by simp, by simp⟩
    refine ⟨?_, ?_, ?_⟩
    · intro w hw a ha b hb
      obtain ⟨k, _, hyields⟩ := (hspec.mem w).mp hw
      have hordered := (foldAt_ordered haccepted start k).1
      exact (hyields.mem_train.mp ha).2.2.trans_le (hordered.trans (hyields.mem_test.mp hb).2.1)
    · intro w hw
      obtain ⟨k, _, hyields⟩ := (hspec.mem w).mp hw
      rw [hyields.sliced.testStart_eq, hyields.sliced.trainEnd_eq]
      refine ⟨rfl, ?_⟩
      rintro bar (hbar | hbar) ⟨hafter, hbefore⟩
      · exact absurd hafter (hyields.mem_train.mp hbar).2.2.not_ge
      · exact absurd hbefore (hyields.mem_test.mp hbar).2.1.not_gt
    · intro w hw holdout hholdout bar hbar
      obtain ⟨k, _, hyields⟩ := (hspec.mem w).mp hw
      obtain ⟨datasetEnd', hof⟩ := holdoutWindow_some hholdout
      obtain rfl := Option.some.inj (hend.symm.trans hof.end_eq)
      rw [hof.sliced.test, mem_testBars, mem_normalizeData] at hbar
      obtain ⟨hmem, hfirst, _⟩ := hbar
      obtain ⟨hordered, htest⟩ := foldAt_ordered haccepted start k
      have hends := hyields.ends
      constructor
      · intro htrain
        have hlt := (hyields.mem_train.mp htrain).2.2
        linarith
      · intro htestMem
        have hle := (hyields.mem_test.mp htestMem).2.2
        have hzero : splitter.embargoDays = 0 := by
          have hnonpos : days splitter.embargoDays ≤ days 0 := by
            rw [days_zero]
            linarith
          exact le_antisymm (days_le_days.mp hnonpos) haccepted.embargo
        have htrainBars := trainBars_ne_nil.mp hof.sliced.train_ne
        rw [hzero, days_zero, sub_zero] at htrainBars
        rw [hzero, days_zero, add_zero] at hfirst
        have hat : bar.timestamp = splitter.holdoutBoundary datasetEnd :=
          le_antisymm (hle.trans hends) hfirst
        have htouches : splitter.testEndAt start k = splitter.holdoutBoundary datasetEnd :=
          le_antisymm hends (hat ▸ hle)
        exact hapart start datasetEnd k bar
          ⟨hstart, hend, hzero, hof.positive, htouches, hmem, hat, hyields.hasBars, htrainBars⟩

def dailyBar (day : ℕ) : Bar := { timestamp := days day, openPrice := 100, high := 101, low := 99, close := 100 }

def dailyBars (n : ℕ) : Frame := (List.range n).map dailyBar

def dailySplitter (embargoDays holdoutDays : ℤ) : WalkForwardSplitter :=
  { trainDays := 2, testDays := 1, stepDays := 1, embargoDays, holdoutDays }

lemma dailySplitter_accepted {embargoDays holdoutDays : ℤ} (hembargo : 0 ≤ embargoDays)
    (hholdout : 0 ≤ holdoutDays) : (dailySplitter embargoDays holdoutDays).Accepted :=
  ⟨zero_lt_two, zero_lt_one, zero_lt_one, hembargo, hholdout⟩

theorem midnight_bar_leaves_holdout : ∃ windows, (dailySplitter 0 1).split (dailyBars 5) = .ok windows ∧
    ¬ Sealed (dailySplitter 0 1) (dailyBars 5) windows := by
  obtain ⟨windows, hsplit⟩ := split_total (dailySplitter_accepted le_rfl zero_le_one) (dailyBars 5)
  have htouches : TouchesHoldout (dailySplitter 0 1) (dailyBars 5) (days 0) (days 4) 0 (dailyBar 3) :=
    { start_eq := by decide, end_eq := by decide, no_embargo := rfl, positive := by decide, touches := by decide,
      mem := by decide, at_boundary := by decide, fold_train := ⟨dailyBar 0, by decide⟩,
      holdout_train := ⟨dailyBar 1, by decide⟩ }
  exact ⟨windows, hsplit, htouches.shared hsplit⟩

theorem folds_sealed_iff_dailyBars : ∃ windows, (dailySplitter 1 1).split (dailyBars 6) = .ok windows ∧
    windows.length = 1 ∧ Sealed (dailySplitter 1 1) (dailyBars 6) windows := by
  have hsplit : (dailySplitter 1 1).split (dailyBars 6) =
      .ok (((dailySplitter 1 1).split (dailyBars 6)).toOption.getD []) := by decide +kernel
  refine ⟨_, hsplit, by decide +kernel, (folds_sealed_iff hsplit).mpr ?_⟩
  intro start datasetEnd k bar htouches
  exact absurd htouches.no_embargo (by decide)

/-- Consecutive folds whose test windows touch, both with bars to train on, and a bar there. -/
structure SharesTestBar (splitter : WalkForwardSplitter) (frame : Frame) (start datasetEnd : Timestamp) (k : ℕ)
    (bar : Bar) : Prop where
  start_eq : earliest frame = some start
  end_eq : latest frame = some datasetEnd
  back_to_back : splitter.stepDays = splitter.testDays
  mem : bar ∈ frame
  at_end : bar.timestamp = splitter.testEndAt start k
  next_ends : splitter.testEndAt start (k + 1) ≤ splitter.holdoutBoundary datasetEnd
  train : HasBars frame (splitter.trainStartAt start k) (splitter.trainEndAt start k)
  next_train : HasBars frame (splitter.trainStartAt start (k + 1)) (splitter.trainEndAt start (k + 1))

def BarsCountedOnce (windows : List WalkForwardWindow) : Prop :=
  windows.Pairwise fun a b => ∀ bar ∈ a.testDf, bar ∉ b.testDf

instance (windows : List WalkForwardWindow) : Decidable (BarsCountedOnce windows) :=
  inferInstanceAs (Decidable (windows.Pairwise fun a b => ∀ bar ∈ a.testDf, bar ∉ b.testDf))

lemma BarsCountedOnce.eq_of_mem (h : BarsCountedOnce windows) {a b : WalkForwardWindow} {bar : Bar}
    (ha : a ∈ windows) (hb : b ∈ windows) (hbarA : bar ∈ a.testDf) (hbarB : bar ∈ b.testDf) : a = b := by
  by_contra hne
  have : Std.Symm fun a b : WalkForwardWindow => ∀ bar ∈ a.testDf, bar ∉ b.testDf :=
    ⟨fun _ _ hab bar hb ha => hab bar ha hb⟩
  exact List.Pairwise.forall h ha hb hne bar hbarA hbarB

lemma testEndAt_eq_of_step (h : splitter.stepDays = splitter.testDays) :
    splitter.testEndAt start k = splitter.testStartAt start (k + 1) := by
  rw [testStartAt_succ, h]
  rfl

lemma testEndAt_le_testStartAt (h : splitter.Accepted) (start : Timestamp)
    (hstep : splitter.testDays ≤ splitter.stepDays) {i j : ℕ} (hij : i < j) :
    splitter.testEndAt start i ≤ splitter.testStartAt start j ∧
      (splitter.testStartAt start j ≤ splitter.testEndAt start i →
        j = i + 1 ∧ splitter.stepDays = splitter.testDays) := by
  have hsucc : splitter.testStartAt start (i + 1) = splitter.testStartAt start i + days splitter.stepDays :=
    testStartAt_succ
  have hdays := days_le_days.mpr hstep
  have hle : splitter.testStartAt start (i + 1) ≤ splitter.testStartAt start j := testStartAt_le h start hij
  have hend : splitter.testEndAt start i = splitter.testStartAt start i + days splitter.testDays := rfl
  refine ⟨by linarith, fun hmeet => ?_⟩
  have hback : days splitter.stepDays ≤ days splitter.testDays := by linarith
  refine ⟨?_, le_antisymm (days_le_days.mp hback) hstep⟩
  rcases (Nat.succ_le_of_lt hij).eq_or_lt with heq | hlt
  · exact heq.symm
  · have := testStartAt_lt h start hlt
    linarith

lemma SharesTestBar.shared {bar : Bar} (h : SharesTestBar splitter frame start datasetEnd k bar)
    (hsplit : splitter.split frame = .ok windows) : ¬ BarsCountedOnce windows := by
  intro honce
  have haccepted := split_accepted hsplit
  obtain ⟨windows', hsplit', hspec⟩ := split_spec haccepted h.start_eq h.end_eq
  obtain rfl := Except.ok.inj (hsplit.symm.trans hsplit')
  obtain ⟨_, htest⟩ := foldAt_ordered haccepted start k
  obtain ⟨_, htest'⟩ := foldAt_ordered haccepted start (k + 1)
  have hnext := h.at_end.trans (testEndAt_eq_of_step h.back_to_back)
  have hends : splitter.testEndAt start k ≤ splitter.holdoutBoundary datasetEnd := by
    rw [testEndAt_eq_of_step h.back_to_back]
    exact htest'.le.trans h.next_ends
  obtain ⟨a, ha, hbarA⟩ := yields_of_bar haccepted hends h.train h.mem (h.at_end ▸ htest.le) h.at_end.le
  obtain ⟨b, hb, hbarB⟩ := yields_of_bar haccepted h.next_ends h.next_train h.mem hnext.ge (hnext.trans_le htest'.le)
  have hne : a ≠ b := by
    rintro rfl
    have hstart := ha.sliced.testStart_eq.symm.trans hb.sliced.testStart_eq
    exact (testStartAt_lt haccepted start (Nat.lt_succ_self k)).ne hstart
  exact hne (honce.eq_of_mem ((hspec.mem a).mpr ⟨k, Nat.zero_le _, ha⟩)
    ((hspec.mem b).mpr ⟨k + 1, Nat.zero_le _, hb⟩) hbarA hbarB)

theorem test_bars_once_iff (hsplit : splitter.split frame = .ok windows)
    (hstep : splitter.testDays ≤ splitter.stepDays) : BarsCountedOnce windows ↔
      ∀ start datasetEnd k bar, ¬ SharesTestBar splitter frame start datasetEnd k bar := by
  constructor
  · intro honce start datasetEnd k bar hshares
    exact hshares.shared hsplit honce
  · intro hapart
    have haccepted := split_accepted hsplit
    rcases split_cases hsplit with ⟨_, rfl⟩ | ⟨start, datasetEnd, hstart, hend, hspec⟩
    · exact .nil
    refine hspec.ordered.imp ?_
    rintro a b ⟨i, j, hij, ha, hb⟩ bar hbarA hbarB
    obtain ⟨hmem, _, hlast⟩ := ha.mem_test.mp hbarA
    obtain ⟨_, hfirst, _⟩ := hb.mem_test.mp hbarB
    obtain ⟨hle, hmeet⟩ := testEndAt_le_testStartAt haccepted start hstep hij
    obtain ⟨rfl, hback⟩ := hmeet (hfirst.trans hlast)
    have hat : bar.timestamp = splitter.testEndAt start i := le_antisymm hlast (hle.trans hfirst)
    exact hapart start datasetEnd i bar ⟨hstart, hend, hback, hmem, hat, hb.ends, ha.hasBars, hb.hasBars⟩

theorem midnight_bar_tested_twice : ∃ windows, (dailySplitter 1 0).split (dailyBars 6) = .ok windows ∧
    ¬ BarsCountedOnce windows := by
  obtain ⟨windows, hsplit⟩ := split_total (dailySplitter_accepted zero_le_one le_rfl) (dailyBars 6)
  have hshares : SharesTestBar (dailySplitter 1 0) (dailyBars 6) (days 0) (days 5) 0 (dailyBar 4) :=
    { start_eq := by decide, end_eq := by decide, back_to_back := rfl, mem := by decide, at_end := by decide,
      next_ends := by decide, train := ⟨dailyBar 0, by decide⟩, next_train := ⟨dailyBar 1, by decide⟩ }
  exact ⟨windows, hsplit, hshares.shared hsplit⟩

theorem test_bars_once_iff_dailyBars : ∃ windows,
    ({ dailySplitter 1 0 with stepDays := 2 }).split (dailyBars 8) = .ok windows ∧ windows.length = 2 ∧
      BarsCountedOnce windows := by
  have hsplit : ({ dailySplitter 1 0 with stepDays := 2 }).split (dailyBars 8) =
      .ok ((({ dailySplitter 1 0 with stepDays := 2 }).split (dailyBars 8)).toOption.getD []) := by decide +kernel
  refine ⟨_, hsplit, by decide +kernel, (test_bars_once_iff hsplit (by decide)).mpr ?_⟩
  intro start datasetEnd k bar hshares
  exact absurd hshares.back_to_back (by decide)

end AlgoTrader.Backtesting
