import AlgoTrader.Backtesting.WarmUp
import AlgoTrader.Lib.Memo

/-! The signals kept for a re-run (``RecordedSignals`` in ``app/backtesting/venue_costs.py``): a
window is recognized by its symbol, its length and its first and last timestamp. -/

namespace AlgoTrader.Backtesting

open Utils.Time Models

abbrev RecordingKey := String × ℕ × Option Timestamp × Option Timestamp

-- ``iloc`` raises on an empty window, which the engine never asks for: it holds the bar evaluated.
def recordingKey (symbol : String) (window : Frame) : RecordingKey :=
  (symbol, window.length, window.head?.map (·.timestamp), window.getLast?.map (·.timestamp))

structure RecordedSignals where
  strategy : Frame → String → Option Signal
  signals : Memo RecordingKey (Option Signal) := []

namespace RecordedSignals

def generateSignal (recorded : RecordedSignals) (window : Frame) (symbol : String) : Option Signal × RecordedSignals :=
  match Table.find Prod.fst recorded.signals (recordingKey symbol window) with
  | some kept => (kept.2, recorded)
  | none =>
    let signal := recorded.strategy window symbol
    (signal, { recorded with signals := recorded.signals ++ [(recordingKey symbol window, signal)] })

def replay (symbol : String) : RecordedSignals → List Frame → List (Option Signal)
  | _, [] => []
  | recorded, window :: rest =>
    let answer := recorded.generateSignal window symbol
    answer.1 :: replay symbol answer.2 rest

lemma replay_eq_memo (recorded : RecordedSignals) (symbol : String) (windows : List Frame) :
    replay symbol recorded windows =
      Memo.replay (recordingKey symbol) (recorded.strategy · symbol) recorded.signals windows := by
  induction windows generalizing recorded with
  | nil => rfl
  | cons window rest ih =>
    rw [replay, Memo.replay, generateSignal, Memo.ask]
    cases Table.find Prod.fst recorded.signals (recordingKey symbol window) with
    | none => exact congrArg (List.cons _) (ih _)
    | some kept => exact congrArg (List.cons _) (ih _)

end RecordedSignals

def RunInput.windows (r : RunInput) : List Frame :=
  r.evaluatedBars.map fun index => r.normalized.take (index + 1)

namespace StrategyRun

variable (b : StrategyRun)

def scoredWindows : List WalkForwardWindow :=
  match b.splitter.split b.history with
  | .ok windows => windows ++ (b.splitter.holdoutWindow b.history).toOption.join.toList
  | .error _ => []

def askedWindows : List Frame := b.scoredWindows.flatMap fun w => (b.windowRun w).windows

-- The eToro-priced run, then one re-run of the same folds and holdout for each cost profile.
def replayedWindows (profiles : ℕ) : List Frame := (List.replicate (profiles + 1) b.askedWindows).flatten

def Transparent : Prop := ∀ (strategy : Frame → String → Option Signal) (symbol : String) (profiles : ℕ),
  RecordedSignals.replay symbol { strategy := strategy } (b.replayedWindows profiles) =
    (b.replayedWindows profiles).map (strategy · symbol)

end StrategyRun

section Windows

variable {r : RunInput} {index : ℕ}

lemma mem_evaluatedBars : index ∈ r.evaluatedBars ↔ r.evaluated index := by
  rw [RunInput.evaluatedBars, List.mem_filter, isEvaluated_iff, List.mem_range, and_iff_right_iff_imp]
  rintro ⟨bar, hbar, _⟩
  exact (List.getElem?_eq_some_iff.mp hbar).1

lemma processBar_of_windows {strategy : Strategy} (h : ∀ window ∈ r.windows, strategy window = r.strategy window)
    (index : ℕ) (s : LoopState) : { r with strategy := strategy }.processBar index s = r.processBar index s := by
  have hsignal (he : r.evaluated index) : { r with strategy := strategy }.signalAt index = r.signalAt index :=
    h _ (List.mem_map_of_mem (mem_evaluatedBars.mpr he))
  have hnormalized : { r with strategy := strategy }.normalized = r.normalized := rfl
  rw [RunInput.processBar, RunInput.processBar, hnormalized]
  cases hbar : r.normalized[index]? with
  | none => rfl
  | some bar =>
    dsimp only
    by_cases hwarm : r.inWarmup bar = true
    · rw [if_pos hwarm]
      exact if_pos hwarm
    · rw [if_neg hwarm]
      refine (if_neg hwarm).trans ?_
      unfold RunInput.settleBar RunInput.handleExit
      rw [hsignal ⟨bar, hbar, by simpa using hwarm⟩]
      rfl

theorem run_of_windows {strategy : Strategy} (h : ∀ window ∈ r.windows, strategy window = r.strategy window) :
    { r with strategy := strategy }.run = r.run := by
  have hprocess : { r with strategy := strategy }.processBar = r.processBar := by
    funext index s
    exact processBar_of_windows h index s
  have hstate (index : ℕ) : { r with strategy := strategy }.stateAt index = r.stateAt index := by
    rw [RunInput.stateAt, RunInput.stateAt, hprocess]
    rfl
  unfold RunInput.run
  rw [hstate]
  rfl

end Windows

def earlierBars (frame : Frame) (t : Timestamp) : Frame := frame.filter (·.timestamp < t)

def stampedBars (frame : Frame) (t : Timestamp) : Frame := frame.filter (·.timestamp = t)

section Stamps

variable {frame : Frame} {t : Timestamp} {bar : Bar}

@[simp] lemma mem_earlierBars : bar ∈ earlierBars frame t ↔ bar ∈ frame ∧ bar.timestamp < t := by
  simp [earlierBars]

@[simp] lemma mem_stampedBars : bar ∈ stampedBars frame t ↔ bar ∈ frame ∧ bar.timestamp = t := by
  simp [stampedBars]

lemma TimeSorted.split_at (h : TimeSorted frame) (t : Timestamp) :
    frame = earlierBars frame t ++ (stampedBars frame t ++ frame.filter (t < ·.timestamp)) := by
  have hlater : stampedBars frame t ++ frame.filter (t < ·.timestamp) = frame.filter (t ≤ ·.timestamp) := by
    rw [stampedBars, filter_append_filter]
    · refine List.filter_congr fun bar _ => ?_
      simp [le_iff_eq_or_lt, eq_comm]
    · refine h.imp fun {a c} hac => ?_
      simp only [decide_eq_true_eq]
      intro ha hc
      exact absurd (hac.trans_eq hc) ha.not_ge
    · intro a
      simp only [decide_eq_true_eq]
      exact fun ha hc => ha.ne' hc
  rw [hlater, earlierBars, filter_append_filter]
  · refine (List.filter_eq_self.mpr fun bar _ => ?_).symm
    simp [lt_or_ge]
  · refine h.imp fun {a c} hac => ?_
    simp only [decide_eq_true_eq]
    intro ha hc
    exact absurd (ha.trans hac) hc.not_ge
  · intro a
    simp only [decide_eq_true_eq]
    exact fun ha hc => absurd ha hc.not_ge

/-- The frame up to one of its bars: all bars before its stamp and the first few at it. -/
lemma TimeSorted.take_eq (h : TimeSorted frame) {index : ℕ} (hbar : frame[index]? = some bar) :
    ∃ d, 0 < d ∧ d ≤ (stampedBars frame bar.timestamp).length ∧
      frame.take (index + 1) = earlierBars frame bar.timestamp ++ (stampedBars frame bar.timestamp).take d := by
  have hsplit := h.split_at bar.timestamp
  set before := earlierBars frame bar.timestamp
  set stamped := stampedBars frame bar.timestamp
  have hle : before.length ≤ index := by
    by_contra hlt
    rw [hsplit, List.getElem?_append_left (not_le.mp hlt)] at hbar
    exact absurd (mem_earlierBars.mp (List.mem_of_getElem? hbar)).2 (lt_irrefl _)
  rw [hsplit, List.getElem?_append_right hle] at hbar
  have hlt : index - before.length < stamped.length := by
    by_contra hge
    rw [List.getElem?_append_right (not_lt.mp hge)] at hbar
    have hlater := List.of_mem_filter (List.mem_of_getElem? hbar)
    simp at hlater
  refine ⟨index - before.length + 1, by omega, hlt, ?_⟩
  conv_lhs => rw [hsplit]
  have hindex : index + 1 = before.length + (index - before.length + 1) := by omega
  rw [hindex, List.take_length_add_append, List.take_append_of_le_length hlt]

lemma TimeSorted.take_of_stamped (h : TimeSorted frame) {d : ℕ} (hpos : 0 < d)
    (hd : d ≤ (stampedBars frame t).length) : ∃ index bar, frame[index]? = some bar ∧ bar.timestamp = t ∧
      frame.take (index + 1) = earlierBars frame t ++ (stampedBars frame t).take d := by
  have hsplit := h.split_at t
  set before := earlierBars frame t
  set stamped := stampedBars frame t
  have hlt : d - 1 < stamped.length := by omega
  have hbar : stamped[d - 1]? = some stamped[d - 1] := List.getElem?_eq_getElem hlt
  refine ⟨before.length + (d - 1), stamped[d - 1], ?_, (mem_stampedBars.mp (List.mem_of_getElem? hbar)).2, ?_⟩
  · rw [hsplit, List.getElem?_append_right (Nat.le_add_right _ _), Nat.add_sub_cancel_left,
      List.getElem?_append_left hlt]
    exact hbar
  · conv_lhs => rw [hsplit]
    have hindex : before.length + (d - 1) + 1 = before.length + d := by omega
    rw [hindex, List.take_length_add_append, List.take_append_of_le_length hd]

end Stamps

def WalkForwardWindow.inEmbargo (w : WalkForwardWindow) (bar : Bar) : Bool :=
  w.trainEnd ≤ bar.timestamp ∧ bar.timestamp < w.testStart

def WalkForwardWindow.embargoBars (w : WalkForwardWindow) (history : Frame) : Frame :=
  (normalizeData history).filter w.inEmbargo

def StrategyRun.startsAt (b : StrategyRun) (w : WalkForwardWindow) : Option Timestamp :=
  (b.windowRun w).data.head?.map (·.timestamp)

section Handed

variable {b : StrategyRun} {w : WalkForwardWindow} {first t : Timestamp}

structure StartsAt (b : StrategyRun) (w : WalkForwardWindow) (first : Timestamp) : Prop where
  start_eq : b.startsAt w = some first
  before_end : first < w.trainEnd
  from_start : w.trainDf.length < b.warmupBars ∨ w.trainStart ≤ first
  first_le : ∀ bar ∈ (b.windowRun w).data, first ≤ bar.timestamp

lemma mem_handed (h : CutFrom b.history w) {bar : Bar} : bar ∈ (b.windowRun w).data ↔
    bar ∈ normalizeData b.history ∧
      (((w.trainDf.length < b.warmupBars ∨ w.trainStart ≤ bar.timestamp) ∧ bar.timestamp < w.trainEnd) ∨
        (w.testStart ≤ bar.timestamp ∧ bar.timestamp ≤ w.testEnd)) := by
  rw [windowRun_data h, List.mem_filter]
  simp [WalkForwardWindow.reaches]

lemma handed_sorted (h : CutFrom b.history w) : TimeSorted (b.windowRun w).data := by
  rw [windowRun_data h]
  exact (normalizeData_sorted b.history).filter _

lemma CutFrom.startsAt (h : CutFrom b.history w) : ∃ first, StartsAt b w first := by
  obtain ⟨bar, hbar⟩ := List.exists_mem_of_ne_nil _ h.train_ne
  obtain ⟨hmem, hfrom, hbefore⟩ := mem_trainBars.mp hbar
  have hhanded : bar ∈ (b.windowRun w).data := (mem_handed h).mpr ⟨hmem, .inl ⟨.inr hfrom, hbefore⟩⟩
  have hsorted := handed_sorted h
  cases hdata : (b.windowRun w).data with
  | nil => simp [hdata] at hhanded
  | cons head rest =>
    have hle : ∀ bar ∈ (b.windowRun w).data, head.timestamp ≤ bar.timestamp := by
      rw [hdata] at hsorted ⊢
      intro bar hbar
      rcases List.mem_cons.mp hbar with rfl | hrest
      · exact le_rfl
      · exact (List.pairwise_cons.mp hsorted).1 bar hrest
    have hend : head.timestamp < w.trainEnd := (hle bar hhanded).trans_lt hbefore
    have hhead : head ∈ (b.windowRun w).data := hdata ▸ List.mem_cons_self
    refine ⟨head.timestamp, ?_, hend, ?_, hle⟩
    · rw [StrategyRun.startsAt, hdata]
      rfl
    · obtain ⟨_, ⟨hstart, _⟩ | ⟨htest, _⟩⟩ := (mem_handed h).mp hhead
      · exact hstart
      · exact absurd (hend.trans_le (w.trainEnd_le.trans htest)) (lt_irrefl _)

lemma stampedBars_handed (h : CutFrom b.history w) (hstart : w.testStart ≤ t) (hend : t ≤ w.testEnd) :
    stampedBars (b.windowRun w).data t = stampedBars (normalizeData b.history) t := by
  rw [windowRun_data h, stampedBars, stampedBars, List.filter_filter]
  refine List.filter_congr fun bar _ => ?_
  by_cases hbar : bar.timestamp = t
  · simp [WalkForwardWindow.reaches, hbar, hstart, hend]
  · simp [hbar]

lemma earlierBars_handed (h : CutFrom b.history w) (hfirst : StartsAt b w first) (hend : t ≤ w.testEnd) :
    earlierBars (b.windowRun w).data t =
      (trainBars (normalizeData b.history) first t).filter fun bar => !w.inEmbargo bar := by
  rw [earlierBars, trainBars, windowRun_data h, List.filter_filter, List.filter_filter]
  refine List.filter_congr fun bar hbar => Bool.eq_iff_iff.mpr ?_
  have hle : w.reaches (decide (w.trainDf.length < b.warmupBars)) bar = true → first ≤ bar.timestamp := by
    intro hreach
    apply hfirst.first_le
    rw [windowRun_data h]
    exact List.mem_filter.mpr ⟨hbar, hreach⟩
  have htrain := w.trainEnd_le
  simp only [Bool.and_eq_true, Bool.not_eq_true', WalkForwardWindow.inEmbargo, decide_eq_true_eq,
    decide_eq_false_iff_not]
  constructor
  · rintro ⟨hbefore, hreach⟩
    refine ⟨?_, hle hreach, hbefore⟩
    rintro ⟨hgap, hgap'⟩
    simp only [WalkForwardWindow.reaches, decide_eq_true_eq] at hreach
    rcases hreach with ⟨_, hlt⟩ | ⟨htest, _⟩
    · exact absurd hlt hgap.not_gt
    · exact absurd hgap' htest.not_gt
  · rintro ⟨hgap, hfrom, hbefore⟩
    refine ⟨hbefore, ?_⟩
    simp only [WalkForwardWindow.reaches, decide_eq_true_eq]
    by_cases htest : w.testStart ≤ bar.timestamp
    · exact .inr ⟨htest, hbefore.le.trans hend⟩
    · refine .inl ⟨hfirst.from_start.imp_right (le_trans · hfrom), ?_⟩
      by_contra hlate
      exact hgap ⟨not_lt.mp hlate, not_le.mp htest⟩

lemma embargoBars_eq (hfirst : StartsAt b w first) (hstart : w.testStart ≤ t) :
    w.embargoBars b.history = (trainBars (normalizeData b.history) first t).filter w.inEmbargo := by
  rw [WalkForwardWindow.embargoBars, trainBars, List.filter_filter]
  refine List.filter_congr fun bar _ => ?_
  by_cases hgap : w.inEmbargo bar = true
  · obtain ⟨hend, htest⟩ := of_decide_eq_true hgap
    have hfrom : first ≤ bar.timestamp := hfirst.before_end.le.trans hend
    simp [hgap, hfrom, htest.trans_le hstart]
  · simp [hgap]

lemma length_earlier_add (h : CutFrom b.history w) (hfirst : StartsAt b w first) (hstart : w.testStart ≤ t)
    (hend : t ≤ w.testEnd) : (earlierBars (b.windowRun w).data t).length + (w.embargoBars b.history).length =
      (trainBars (normalizeData b.history) first t).length := by
  rw [earlierBars_handed h hfirst hend, embargoBars_eq hfirst hstart, add_comm]
  exact (List.length_eq_length_filter_add w.inEmbargo).symm

end Handed

def StrategyRun.windowAt (b : StrategyRun) (w : WalkForwardWindow) (t : Timestamp) (d : ℕ) : Frame :=
  earlierBars (b.windowRun w).data t ++ (stampedBars (normalizeData b.history) t).take d

structure AskedAt (b : StrategyRun) (w : WalkForwardWindow) (t : Timestamp) (d : ℕ) : Prop where
  start : w.testStart ≤ t
  ends : t ≤ w.testEnd
  positive : 0 < d
  le : d ≤ (stampedBars (normalizeData b.history) t).length

section Asked

variable {b : StrategyRun} {w w' : WalkForwardWindow} {first t t' : Timestamp} {d d' : ℕ} {window : Frame}

lemma mem_windows (h : CutFrom b.history w) : window ∈ (b.windowRun w).windows ↔
    ∃ index bar, (b.windowRun w).data[index]? = some bar ∧ w.testStart ≤ bar.timestamp ∧
      window = (b.windowRun w).data.take (index + 1) := by
  have hnormalized : (b.windowRun w).normalized = (b.windowRun w).data := normalizeData_of_sorted (handed_sorted h)
  simp only [RunInput.windows, List.mem_map, mem_evaluatedBars, RunInput.evaluated, hnormalized]
  have hwarm (bar : Bar) : (b.windowRun w).inWarmup bar = false ↔ w.testStart ≤ bar.timestamp := by
    simp [RunInput.inWarmup, StrategyRun.windowRun]
  constructor
  · rintro ⟨index, ⟨bar, hbar, hlate⟩, rfl⟩
    exact ⟨index, bar, hbar, (hwarm bar).mp hlate, rfl⟩
  · rintro ⟨index, bar, hbar, hlate, rfl⟩
    exact ⟨index, ⟨bar, hbar, (hwarm bar).mpr hlate⟩, rfl⟩

lemma mem_windows_iff (h : CutFrom b.history w) : window ∈ (b.windowRun w).windows ↔
    ∃ t d, AskedAt b w t d ∧ window = b.windowAt w t d := by
  rw [mem_windows h]
  constructor
  · rintro ⟨index, bar, hbar, hstart, rfl⟩
    obtain ⟨_, ⟨_, hbefore⟩ | ⟨_, hend⟩⟩ := (mem_handed h).mp (List.mem_of_getElem? hbar)
    · exact absurd (hbefore.trans_le (w.trainEnd_le.trans hstart)) (lt_irrefl _)
    · obtain ⟨d, hpos, hle, htake⟩ := (handed_sorted h).take_eq hbar
      rw [stampedBars_handed h hstart hend] at hle htake
      exact ⟨bar.timestamp, d, ⟨hstart, hend, hpos, hle⟩, htake⟩
  · rintro ⟨t, d, ⟨hstart, hend, hpos, hle⟩, rfl⟩
    rw [← stampedBars_handed h hstart hend] at hle
    obtain ⟨index, bar, hbar, rfl, htake⟩ := (handed_sorted h).take_of_stamped hpos hle
    rw [stampedBars_handed h hstart hend] at htake
    exact ⟨index, bar, hbar, hstart, htake.symm⟩

lemma AskedAt.length_take (h : AskedAt b w t d) : ((stampedBars (normalizeData b.history) t).take d).length = d := by
  rw [List.length_take]
  exact min_eq_left h.le

lemma recordingKey_windowAt (h : CutFrom b.history w) (hfirst : StartsAt b w first) (hasked : AskedAt b w t d)
    (symbol : String) : recordingKey symbol (b.windowAt w t d) =
      (symbol, (earlierBars (b.windowRun w).data t).length + d, some first, some t) := by
  obtain ⟨hstart, hend, hpos, hle⟩ := hasked
  have hhead : (b.windowAt w t d).head?.map (·.timestamp) = some first := by
    rw [← stampedBars_handed h hstart hend] at hle
    obtain ⟨index, bar, _, _, htake⟩ := (handed_sorted h).take_of_stamped hpos hle
    rw [stampedBars_handed h hstart hend] at htake
    rw [StrategyRun.windowAt, ← htake, List.head?_take, if_neg (Nat.succ_ne_zero _)]
    exact hfirst.start_eq
  have hlast : (b.windowAt w t d).getLast?.map (·.timestamp) = some t := by
    have hne : (stampedBars (normalizeData b.history) t).take d ≠ [] := by
      apply List.ne_nil_of_length_pos
      rw [List.length_take]
      omega
    obtain ⟨bar, hbar⟩ := Option.isSome_iff_exists.mp (List.getLast?_isSome.mpr hne)
    rw [StrategyRun.windowAt, List.getLast?_append_of_ne_nil _ hne, hbar, Option.map_some]
    exact congrArg some (mem_stampedBars.mp (List.mem_of_mem_take (List.mem_of_getLast? hbar))).2
  have hlength : (b.windowAt w t d).length = (earlierBars (b.windowRun w).data t).length + d := by
    rw [StrategyRun.windowAt, List.length_append, List.length_take, min_eq_left hle]
  rw [recordingKey, hhead, hlast, hlength]

lemma filter_eq_iff {α : Type*} {p q : α → Bool} {l : List α} : l.filter p = l.filter q ↔ ∀ a ∈ l, p a = q a := by
  constructor
  · intro h a ha
    have hmem : a ∈ l.filter p ↔ a ∈ l.filter q := by rw [h]
    rw [List.mem_filter, List.mem_filter] at hmem
    exact Bool.eq_iff_iff.mpr ⟨fun hp => (hmem.mp ⟨ha, hp⟩).2, fun hq => (hmem.mpr ⟨ha, hq⟩).2⟩
  · exact List.filter_congr

lemma earlierBars_windowAt : earlierBars (b.windowAt w t d) t = earlierBars (b.windowRun w).data t := by
  have hlate : ((stampedBars (normalizeData b.history) t).take d).filter (·.timestamp < t) = [] := by
    refine List.filter_eq_nil_iff.mpr fun bar hbar => ?_
    simp [(mem_stampedBars.mp (List.mem_of_mem_take hbar)).2]
  rw [StrategyRun.windowAt, earlierBars, List.filter_append, hlate, List.append_nil]
  exact List.filter_eq_self.mpr fun _ hbar => decide_eq_true (mem_earlierBars.mp hbar).2

lemma windowAt_eq_iff (h : CutFrom b.history w) (h' : CutFrom b.history w') (hfirst : StartsAt b w first)
    (hfirst' : StartsAt b w' first) (hasked : AskedAt b w t d) (hasked' : AskedAt b w' t d') :
    b.windowAt w t d = b.windowAt w' t d' ↔ w.embargoBars b.history = w'.embargoBars b.history ∧ d = d' := by
  have hearlier : earlierBars (b.windowRun w).data t = earlierBars (b.windowRun w').data t ↔
      w.embargoBars b.history = w'.embargoBars b.history := by
    rw [earlierBars_handed h hfirst hasked.ends, earlierBars_handed h' hfirst' hasked'.ends,
      embargoBars_eq hfirst hasked.start, embargoBars_eq hfirst' hasked'.start, filter_eq_iff, filter_eq_iff]
    exact forall₂_congr fun _ _ => Bool.not_inj_iff
  rw [← hearlier]
  constructor
  · intro hsame
    have hbefore : earlierBars (b.windowRun w).data t = earlierBars (b.windowRun w').data t := by
      rw [← earlierBars_windowAt (d := d), hsame, earlierBars_windowAt]
    rw [StrategyRun.windowAt, StrategyRun.windowAt, hbefore] at hsame
    have htake := List.append_cancel_left hsame
    refine ⟨hbefore, ?_⟩
    rw [← hasked.length_take, ← hasked'.length_take, htake]
  · rintro ⟨hbefore, rfl⟩
    rw [StrategyRun.windowAt, StrategyRun.windowAt, hbefore]

end Asked

/-- Two scored windows that begin at one bar and share a test bar leave the same bars to the embargo, or
so many more than the other that the bars of one stamp cannot make up for it. -/
def StrategyRun.EmbargoesApart (b : StrategyRun) : Prop :=
  ∀ w ∈ b.scoredWindows, ∀ w' ∈ b.scoredWindows, b.startsAt w = b.startsAt w' →
    ∀ bar ∈ w.testDf, bar ∈ w'.testDf → w.embargoBars b.history = w'.embargoBars b.history ∨
      (stampedBars b.history bar.timestamp).length ≤
        ((w.embargoBars b.history).length - (w'.embargoBars b.history).length : ℤ).natAbs

section Keys

variable {b : StrategyRun} {w w' : WalkForwardWindow} {first first' t t' : Timestamp} {d d' : ℕ} {symbol : String}

lemma scoredWindows_cases (h : w ∈ b.scoredWindows) : b.splitter.Accepted ∧
    ∃ start datasetEnd, earliest b.history = some start ∧ latest b.history = some datasetEnd ∧
      ((∃ k, b.splitter.Yields start (b.splitter.holdoutBoundary datasetEnd) (normalizeData b.history) k w) ∨
        b.splitter.holdoutWindow b.history = .ok (some w)) := by
  rw [StrategyRun.scoredWindows] at h
  cases hsplit : b.splitter.split b.history with
  | error e => simp [hsplit] at h
  | ok windows =>
    refine ⟨split_accepted hsplit, ?_⟩
    simp only [hsplit, List.mem_append] at h
    rcases h with hfold | hholdout
    · rcases split_cases hsplit with ⟨_, rfl⟩ | ⟨start, datasetEnd, hstart, hend, hspec⟩
      · cases hfold
      · obtain ⟨k, _, hyields⟩ := (hspec.mem w).mp hfold
        exact ⟨start, datasetEnd, hstart, hend, .inl ⟨k, hyields⟩⟩
    · cases hwindow : b.splitter.holdoutWindow b.history with
      | error e => simp [hwindow, Except.toOption] at hholdout
      | ok window =>
        obtain rfl : window = some w := by simpa [hwindow, Except.toOption] using hholdout
        obtain ⟨datasetEnd, hof⟩ := holdoutWindow_some hwindow
        have hne : b.history ≠ [] := by
          intro hnil
          simpa [hnil, latest] using hof.end_eq
        obtain ⟨start, _, hstart, _⟩ := bounds_of_ne_nil hne
        exact ⟨start, datasetEnd, hstart, hof.end_eq, .inr rfl⟩

lemma cutFrom_scored (h : w ∈ b.scoredWindows) : CutFrom b.history w := by
  obtain ⟨_, _, _, _, _, ⟨k, hyields⟩ | hholdout⟩ := scoredWindows_cases h
  · exact (slice_sliced hyields.fold).cutFrom
  · obtain ⟨_, hof⟩ := holdoutWindow_some hholdout
    exact hof.sliced.cutFrom

lemma stampedBars_length (b : StrategyRun) (t : Timestamp) :
    (stampedBars (normalizeData b.history) t).length = (stampedBars b.history t).length :=
  ((List.perm_insertionSort _ b.history).filter _).length_eq

lemma recordingKey_eq_iff (h : CutFrom b.history w) (h' : CutFrom b.history w') (hfirst : StartsAt b w first)
    (hfirst' : StartsAt b w' first') (hasked : AskedAt b w t d) (hasked' : AskedAt b w' t' d') :
    recordingKey symbol (b.windowAt w t d) = recordingKey symbol (b.windowAt w' t' d') ↔
      (earlierBars (b.windowRun w).data t).length + d = (earlierBars (b.windowRun w').data t').length + d' ∧
        first = first' ∧ t = t' := by
  rw [recordingKey_windowAt h hfirst hasked, recordingKey_windowAt h' hfirst' hasked']
  simp

lemma injOn_of_embargoesApart (h : b.EmbargoesApart) (symbol : String) :
    Set.InjOn (recordingKey symbol) {window | window ∈ b.askedWindows} := by
  intro window hwindow window' hwindow' hkey
  obtain ⟨w, hw, hasked⟩ := List.mem_flatMap.mp hwindow
  obtain ⟨w', hw', hasked'⟩ := List.mem_flatMap.mp hwindow'
  have hcut := cutFrom_scored hw
  have hcut' := cutFrom_scored hw'
  obtain ⟨t, d, hat, rfl⟩ := (mem_windows_iff hcut).mp hasked
  obtain ⟨t', d', hat', rfl⟩ := (mem_windows_iff hcut').mp hasked'
  obtain ⟨first, hfirst⟩ := hcut.startsAt
  obtain ⟨first', hfirst'⟩ := hcut'.startsAt
  obtain ⟨hlength, rfl, rfl⟩ := (recordingKey_eq_iff hcut hcut' hfirst hfirst' hat hat').mp hkey
  obtain ⟨bar, hbar⟩ := List.exists_mem_of_length_pos (hat.positive.trans_le hat.le)
  obtain ⟨hmem, rfl⟩ := mem_stampedBars.mp hbar
  have htest : bar ∈ w.testDf := hcut.test ▸ mem_testBars.mpr ⟨hmem, hat.start, hat.ends⟩
  have htest' : bar ∈ w'.testDf := hcut'.test ▸ mem_testBars.mpr ⟨hmem, hat'.start, hat'.ends⟩
  have hcount := length_earlier_add hcut hfirst hat.start hat.ends
  have hcount' := length_earlier_add hcut' hfirst' hat'.start hat'.ends
  rw [windowAt_eq_iff hcut hcut' hfirst hfirst' hat hat']
  rcases h w hw w' hw' (hfirst.start_eq.trans hfirst'.start_eq.symm) bar htest htest' with hsame | hfar
  · rw [hsame] at hcount
    exact ⟨hsame, by omega⟩
  · have hle := hat.le
    have hle' := hat'.le
    have hpos := hat.positive
    have hpos' := hat'.positive
    rw [stampedBars_length] at hle hle'
    omega

lemma embargoesApart_of_injOn (h : Set.InjOn (recordingKey symbol) {window | window ∈ b.askedWindows}) :
    b.EmbargoesApart := by
  intro w hw w' hw' hstart bar htest htest'
  by_contra hclash
  obtain ⟨hdiffer, hnear⟩ := not_or.mp hclash
  have hcut := cutFrom_scored hw
  have hcut' := cutFrom_scored hw'
  obtain ⟨first, hfirst⟩ := hcut.startsAt
  obtain ⟨first', hfirst'⟩ := hcut'.startsAt
  obtain rfl : first = first' := Option.some.inj (hfirst.start_eq.symm.trans (hstart.trans hfirst'.start_eq))
  obtain ⟨_, hfrom, hupto⟩ := mem_testBars.mp (hcut.test ▸ htest)
  obtain ⟨_, hfrom', hupto'⟩ := mem_testBars.mp (hcut'.test ▸ htest')
  have hcount := length_earlier_add hcut hfirst hfrom hupto
  have hcount' := length_earlier_add hcut' hfirst' hfrom' hupto'
  -- the window that leaves fewer bars to the embargo is read up to an earlier bar of the stamp
  let d := (w.embargoBars b.history).length - (w'.embargoBars b.history).length + 1
  let d' := (w'.embargoBars b.history).length - (w.embargoBars b.history).length + 1
  have hat : AskedAt b w bar.timestamp d := by
    refine ⟨hfrom, hupto, Nat.succ_pos _, ?_⟩
    rw [stampedBars_length]
    omega
  have hat' : AskedAt b w' bar.timestamp d' := by
    refine ⟨hfrom', hupto', Nat.succ_pos _, ?_⟩
    rw [stampedBars_length]
    omega
  have hmem : b.windowAt w bar.timestamp d ∈ b.askedWindows :=
    List.mem_flatMap.mpr ⟨w, hw, (mem_windows_iff hcut).mpr ⟨_, _, hat, rfl⟩⟩
  have hmem' : b.windowAt w' bar.timestamp d' ∈ b.askedWindows :=
    List.mem_flatMap.mpr ⟨w', hw', (mem_windows_iff hcut').mpr ⟨_, _, hat', rfl⟩⟩
  have hkey : recordingKey symbol (b.windowAt w bar.timestamp d) =
      recordingKey symbol (b.windowAt w' bar.timestamp d') := by
    rw [recordingKey_eq_iff hcut hcut' hfirst hfirst' hat hat']
    exact ⟨by omega, rfl, rfl⟩
  exact hdiffer ((windowAt_eq_iff hcut hcut' hfirst hfirst' hat hat').mp (h hmem hmem' hkey)).1

lemma mem_replayedWindows {window : Frame} {profiles : ℕ} :
    window ∈ b.replayedWindows profiles ↔ window ∈ b.askedWindows := by
  simp [StrategyRun.replayedWindows]

lemma transparent_iff_injOn :
    b.Transparent ↔ ∀ symbol, Set.InjOn (recordingKey symbol) {window | window ∈ b.askedWindows} := by
  have : Nontrivial (Option Signal) := ⟨none, some { action := .buy }, by simp⟩
  constructor
  · intro h symbol
    have hreplay := Memo.transparent_iff.mp fun answer : Frame → Option Signal =>
      (RecordedSignals.replay_eq_memo _ _ _).symm.trans (h (fun window _ => answer window) symbol 0)
    exact hreplay.mono fun window hwindow => mem_replayedWindows.mpr hwindow
  · intro h strategy symbol profiles
    rw [RecordedSignals.replay_eq_memo]
    exact Memo.replay_eq_map (h symbol) (by simp [Memo.Sound]) fun window hwindow => mem_replayedWindows.mp hwindow

end Keys

section Splitters

variable {b : StrategyRun} {w w' : WalkForwardWindow} {start boundary : Timestamp} {i j : ℕ}

lemma embargoBars_of_no_embargo (hnone : b.splitter.embargoDays = 0) (h : w ∈ b.scoredWindows) :
    w.embargoBars b.history = [] := by
  have hgap : w.testStart ≤ w.trainEnd := by
    obtain ⟨_, _, _, _, _, ⟨k, hyields⟩ | hholdout⟩ := scoredWindows_cases h
    · have hsliced := slice_sliced hyields.fold
      rw [hsliced.testStart_eq, hsliced.trainEnd_eq, WalkForwardSplitter.testStartAt, hnone, days_zero, add_zero]
    · obtain ⟨_, hof⟩ := holdoutWindow_some hholdout
      rw [hof.sliced.testStart_eq, hof.sliced.trainEnd_eq, hnone, days_zero, add_zero, sub_zero]
  refine List.filter_eq_nil_iff.mpr fun bar _ hbar => ?_
  obtain ⟨hend, hstart⟩ := of_decide_eq_true hbar
  exact absurd (hgap.trans hend) hstart.not_ge

theorem embargoesApart_of_no_embargo (hnone : b.splitter.embargoDays = 0) : b.EmbargoesApart := by
  intro w hw w' hw' _ _ _ _
  rw [embargoBars_of_no_embargo hnone hw, embargoBars_of_no_embargo hnone hw']
  exact .inl rfl

lemma startsAt_ne_of_lt (hwarmup : b.warmupBars = 0) (haccepted : b.splitter.Accepted)
    (htrain : b.splitter.trainDays ≤ b.splitter.stepDays)
    (hi : b.splitter.Yields start boundary (normalizeData b.history) i w)
    (hj : b.splitter.Yields start boundary (normalizeData b.history) j w') (hij : i < j) :
    b.startsAt w ≠ b.startsAt w' := by
  intro hsame
  have hsliced := slice_sliced hi.fold
  have hsliced' := slice_sliced hj.fold
  obtain ⟨first, hfirst⟩ := hsliced.cutFrom.startsAt
  obtain ⟨first', hfirst'⟩ := hsliced'.cutFrom.startsAt
  obtain rfl : first = first' := Option.some.inj (hfirst.start_eq.symm.trans (hsame.trans hfirst'.start_eq))
  have hend := hfirst.before_end
  have hfrom := hfirst'.from_start.resolve_left (by rw [hwarmup]; exact Nat.not_lt_zero _)
  have hstep := testStartAt_le haccepted start (Nat.succ_le_of_lt hij)
  have hdays := days_le_days.mpr htrain
  rw [hsliced.trainEnd_eq] at hend
  rw [hsliced'.trainStart_eq, WalkForwardSplitter.trainStartAt] at hfrom
  rw [testStartAt_succ, WalkForwardSplitter.testStartAt, WalkForwardSplitter.testStartAt] at hstep
  linarith

lemma no_embargo_of_holdout_shared (haccepted : b.splitter.Accepted) {datasetEnd : Timestamp}
    (hend : latest b.history = some datasetEnd)
    (hfold : b.splitter.Yields start (b.splitter.holdoutBoundary datasetEnd) (normalizeData b.history) i w)
    (hholdout : b.splitter.holdoutWindow b.history = .ok (some w')) {bar : Bar} (hbar : bar ∈ w.testDf)
    (hbar' : bar ∈ w'.testDf) : b.splitter.embargoDays = 0 := by
  obtain ⟨datasetEnd', hof⟩ := holdoutWindow_some hholdout
  obtain rfl := Option.some.inj (hof.end_eq.symm.trans hend)
  have hsliced := slice_sliced hfold.fold
  obtain ⟨_, _, hupto⟩ := mem_testBars.mp (hsliced.test ▸ hbar)
  obtain ⟨_, hfrom, _⟩ := mem_testBars.mp (hof.sliced.test ▸ hbar')
  have hle : days b.splitter.embargoDays ≤ days 0 := by
    have := hfold.ends
    rw [days_zero]
    linarith
  exact le_antisymm (days_le_days.mp hle) haccepted.embargo

/-- So the default minute-bar settings, 5 training days every 7, keep every window apart. -/
theorem embargoesApart_of_train_le_step (hwarmup : b.warmupBars = 0)
    (htrain : b.splitter.trainDays ≤ b.splitter.stepDays) : b.EmbargoesApart := by
  intro w hw w' hw' hsame bar hbar hbar'
  obtain ⟨haccepted, start, datasetEnd, hstart, hend, hcases⟩ := scoredWindows_cases hw
  obtain ⟨_, start', datasetEnd', hstart', hend', hcases'⟩ := scoredWindows_cases hw'
  obtain rfl := Option.some.inj (hstart.symm.trans hstart')
  obtain rfl := Option.some.inj (hend.symm.trans hend')
  rcases hcases with ⟨i, hi⟩ | hholdout
  · rcases hcases' with ⟨j, hj⟩ | hholdout'
    · rcases lt_trichotomy i j with hlt | rfl | hlt
      · exact absurd hsame (startsAt_ne_of_lt hwarmup haccepted htrain hi hj hlt)
      · have hwindow : w = w' := Option.some.inj (Except.ok.inj (hi.fold.symm.trans hj.fold))
        exact .inl (congrArg (·.embargoBars b.history) hwindow)
      · exact absurd hsame.symm (startsAt_ne_of_lt hwarmup haccepted htrain hj hi hlt)
    · have hnone := no_embargo_of_holdout_shared haccepted hend hi hholdout' hbar hbar'
      exact embargoesApart_of_no_embargo hnone w hw w' hw' hsame bar hbar hbar'
  · rcases hcases' with ⟨j, hj⟩ | hholdout'
    · have hnone := no_embargo_of_holdout_shared haccepted hend hj hholdout hbar' hbar
      exact embargoesApart_of_no_embargo hnone w hw w' hw' hsame bar hbar hbar'
    · have hwindow : w = w' := Option.some.inj (Except.ok.inj (hholdout.symm.trans hholdout'))
      exact .inl (congrArg (·.embargoBars b.history) hwindow)

end Splitters

theorem recorded_signals_transparent (b : StrategyRun) : b.Transparent ↔ b.EmbargoesApart := by
  rw [transparent_iff_injOn]
  exact ⟨fun h => embargoesApart_of_injOn (h ""), injOn_of_embargoesApart⟩

-- With a fold a day the weekend gives two of them one first bar. One leaves Thursday to
-- the embargo, the other Friday, and the second is answered what the first was.
def sessionsOver (days : ℕ) : Frame :=
  ((List.range days).filter fun day => day % 7 ≠ 1 ∧ day % 7 ≠ 2).map fun day =>
    ⟨midnight day + 870 * microsPerMinute, 100, 106, 99, if day = 6 then 105 else 100, 0⟩

def foldADay : StrategyRun where
  clock := easternStandard
  config := { costModel := zeroCostModel }
  strategy := { name := "intraday_vwap_trend", generateSignal := fun _ => none }
  history := sessionsOver 32
  timeframe := "5m"
  splitter := { trainDays := 5, testDays := 7, stepDays := 1, embargoDays := 1, holdoutDays := 14 }

def closedAbove (window : Frame) (_ : String) : Option Signal :=
  if window.any (102 < ·.close) then some { action := .buy } else none

theorem recorded_signal_of_other_fold : ¬ foldADay.Transparent := by
  intro h
  have hreplay := h closedAbove "AAPL" 0
  revert hreplay
  decide +kernel

end AlgoTrader.Backtesting
