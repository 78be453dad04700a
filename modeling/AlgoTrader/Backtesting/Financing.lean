import AlgoTrader.Backtesting.CostModel
import AlgoTrader.Lib.Crossings
import Mathlib.Algebra.Order.Ring.Rat
import Mathlib.Tactic.Ring
import Mathlib.Tactic.Linarith

/-! What a holding is charged for its nights and its weekends. -/

namespace AlgoTrader.Backtesting

open Utils.Time Crossings

lemma lt_midnight_iff (t : Timestamp) (date : ℤ) : t < midnight date ↔ utcDate t < date := by
  rw [midnight, utcDate, Int.ediv_lt_iff_lt_mul (by decide)]

-- The loop counts the Fridays whose UTC midnight lies after the entry and not after the exit.
lemma countFridayClosesCrossed_eq {entryTime exitTime : Timestamp} (h : entryTime ≤ exitTime) :
    countFridayClosesCrossed entryTime exitTime =
      (crossed (weekday · = 4) (utcDate entryTime) (utcDate exitTime)).card := by
  have hdates := utcDate_mono h
  rw [countFridayClosesCrossed]
  split_ifs with hle
  · obtain rfl := le_antisymm h hle
    simp
  · have hloop := countP_range_eq_card (fun day => weekday day = 4 ∧ entryTime < midnight day)
      (utcDate entryTime) (utcDate exitTime - utcDate entryTime + 1).toNat
    simp only [List.bind_eq_flatMap, List.pure_def, ← List.map_eq_flatMap, List.countP_map, Function.comp_def]
    refine hloop.trans (congrArg Finset.card ?_)
    ext day
    simp only [mem_crossed, lt_midnight_iff, Finset.mem_filter, mem_daysFrom]
    omega

lemma crossed_of_same_date {entryTime exitTime : Timestamp} (h : entryTime ≤ exitTime)
    (hdays : utcDate exitTime - utcDate entryTime ≤ 0) : utcDate exitTime = utcDate entryTime := by
  have := utcDate_mono h
  omega

namespace CostModel

variable (m : CostModel)

def weekendCrossings (entryTime exitTime : Timestamp) : ℕ :=
  if m.includeWeekendFinancing then
    (crossed (weekday · = 4) (utcDate entryTime) (utcDate exitTime)).card
  else 0

lemma holdingCostUsd_eq (notionalUsd : ℚ) {entryTime exitTime : Timestamp} (h : entryTime ≤ exitTime) :
    m.holdingCostUsd notionalUsd entryTime exitTime =
      if notionalUsd ≤ 0 then 0
      else notionalUsd * m.overnightFeeDailyPct *
        ((utcDate exitTime - utcDate entryTime : ℤ) +
          m.weekendCrossings entryTime exitTime * (m.weekendMultiplier - 1)) := by
  rw [holdingCostUsd]
  by_cases hn : notionalUsd ≤ 0
  · rw [if_pos hn, if_pos hn]
  rw [if_neg hn, if_neg hn]
  by_cases hle : exitTime ≤ entryTime
  · obtain rfl := le_antisymm h hle
    simp [weekendCrossings]
  rw [if_neg hle]
  by_cases hdays : utcDate exitTime - utcDate entryTime ≤ 0
  · have hsame := crossed_of_same_date h hdays
    simp [weekendCrossings, hsame]
  · simp only [if_neg hdays, countFridayClosesCrossed_eq h, weekendCrossings]

lemma shortHoldingCostUsd_eq (notionalUsd : ℚ) {entryTime exitTime : Timestamp} (h : entryTime ≤ exitTime) :
    m.shortHoldingCostUsd notionalUsd entryTime exitTime =
      m.holdingCostUsd notionalUsd entryTime exitTime +
        (if notionalUsd ≤ 0 ∨ m.shortBorrowFeeDailyPct ≤ 0 then 0
        else notionalUsd * m.shortBorrowFeeDailyPct * (utcDate exitTime - utcDate entryTime : ℤ)) := by
  have hdates := sub_nonneg.mpr (utcDate_mono h)
  rw [shortHoldingCostUsd]
  rcases h.eq_or_lt with rfl | hlt
  · simp
  · have hnot := not_le.mpr hlt
    simp only [hnot, or_false]
    split_ifs with hcharged
    · rw [add_zero]
    · rw [max_eq_left hdates]

lemma weekendCrossings_add {entryTime t exitTime : Timestamp} (het : entryTime ≤ t) (htx : t ≤ exitTime) :
    m.weekendCrossings entryTime t + m.weekendCrossings t exitTime =
      m.weekendCrossings entryTime exitTime := by
  simp only [weekendCrossings]
  split_ifs
  · exact card_crossed_add _ (utcDate_mono het) (utcDate_mono htx)
  · rfl

lemma holdingCostUsd_add (notionalUsd : ℚ) {entryTime t exitTime : Timestamp} (het : entryTime ≤ t)
    (htx : t ≤ exitTime) :
    m.holdingCostUsd notionalUsd entryTime exitTime =
      m.holdingCostUsd notionalUsd entryTime t + m.holdingCostUsd notionalUsd t exitTime := by
  rw [m.holdingCostUsd_eq _ het, m.holdingCostUsd_eq _ htx, m.holdingCostUsd_eq _ (het.trans htx),
    ← m.weekendCrossings_add het htx]
  split_ifs
  · rw [add_zero]
  · push_cast
    ring

theorem financing_additive (notionalUsd : ℚ) {entryTime t exitTime : Timestamp} (het : entryTime ≤ t)
    (htx : t ≤ exitTime) :
    m.holdingCostUsd notionalUsd entryTime exitTime =
        m.holdingCostUsd notionalUsd entryTime t + m.holdingCostUsd notionalUsd t exitTime ∧
      m.shortHoldingCostUsd notionalUsd entryTime exitTime =
        m.shortHoldingCostUsd notionalUsd entryTime t + m.shortHoldingCostUsd notionalUsd t exitTime := by
  refine ⟨m.holdingCostUsd_add notionalUsd het htx, ?_⟩
  rw [m.shortHoldingCostUsd_eq _ het, m.shortHoldingCostUsd_eq _ htx,
    m.shortHoldingCostUsd_eq _ (het.trans htx), m.holdingCostUsd_add notionalUsd het htx]
  split_ifs
  · ring
  · push_cast
    ring

-- Thursday 15:00 to Monday 15:00, split at the midnight that starts the Friday.
theorem financing_additive_at_midnight :
    let thursday := midnight 20461 + 15 * 60 * microsPerMinute
    let monday := midnight 20465 + 15 * 60 * microsPerMinute
    CostModel.holdingCostUsd {} 1000 thursday monday =
        CostModel.holdingCostUsd {} 1000 thursday (midnight 20462) +
          CostModel.holdingCostUsd {} 1000 (midnight 20462) monday ∧
      CostModel.shortHoldingCostUsd {} 1000 thursday monday =
        CostModel.shortHoldingCostUsd {} 1000 thursday (midnight 20462) +
          CostModel.shortHoldingCostUsd {} 1000 (midnight 20462) monday :=
  financing_additive {} 1000 (by decide) (by decide)

end CostModel

/-- A market's closing instant on each UTC date: 16:00 in New York is 20:00 or 21:00 UTC,
and a half day closes earlier. -/
structure MarketClose where
  time : ℤ → Timestamp
  same_date (date : ℤ) : utcDate (time date) = date

namespace MarketClose

variable (close : MarketClose)

def fridaysWithin (entryTime exitTime : Timestamp) : Finset ℤ :=
  {date ∈ daysFrom (utcDate entryTime) (utcDate exitTime - utcDate entryTime + 1).toNat |
    weekday date = 4 ∧ entryTime < close.time date ∧ close.time date < exitTime}

lemma mem_fridaysWithin {entryTime exitTime : Timestamp} {date : ℤ} :
    date ∈ close.fridaysWithin entryTime exitTime ↔
      weekday date = 4 ∧ entryTime < close.time date ∧ close.time date < exitTime := by
  simp only [fridaysWithin, Finset.mem_filter, mem_daysFrom, and_iff_right_iff_imp]
  rintro ⟨_, hentry, hexit⟩
  have h1 := utcDate_mono hentry.le
  have h2 := utcDate_mono hexit.le
  rw [close.same_date] at h1 h2
  omega

lemma lt_time_of_utcDate_lt {t : Timestamp} {date : ℤ} (h : utcDate t < date) : t < close.time date := by
  by_contra hle
  have := utcDate_mono (not_lt.mp hle)
  rw [close.same_date] at this
  omega

lemma time_lt_of_lt_utcDate {t : Timestamp} {date : ℤ} (h : date < utcDate t) : close.time date < t := by
  by_contra hle
  have := utcDate_mono (not_lt.mp hle)
  rw [close.same_date] at this
  omega

def HeldThroughFridayClose (entryTime exitTime : Timestamp) : Prop :=
  ∃ date, weekday date = 4 ∧ entryTime < close.time date ∧ close.time date < exitTime

lemma heldThroughFridayClose_iff {entryTime exitTime : Timestamp} :
    close.HeldThroughFridayClose entryTime exitTime ↔ 0 < (close.fridaysWithin entryTime exitTime).card := by
  simp only [HeldThroughFridayClose, Finset.card_pos, Finset.Nonempty, mem_fridaysWithin]

end MarketClose

-- The same charge with the weekend multiplier left out.
def CostModel.weekdaysOnly (m : CostModel) : CostModel := { m with includeWeekendFinancing := false }

structure FinancedByCloses (close : MarketClose) (entryTime exitTime : Timestamp) : Prop where
  counted : countFridayClosesCrossed entryTime exitTime = (close.fridaysWithin entryTime exitTime).card
  charged (m : CostModel) (notionalUsd : ℚ) : m.includeWeekendFinancing → m.overnightFeeDailyPct ≠ 0 →
    m.weekendMultiplier ≠ 1 → 0 < notionalUsd →
    (m.holdingCostUsd notionalUsd entryTime exitTime ≠
        m.weekdaysOnly.holdingCostUsd notionalUsd entryTime exitTime ↔
      close.HeldThroughFridayClose entryTime exitTime)
  chargedShort (m : CostModel) (notionalUsd : ℚ) : m.includeWeekendFinancing →
    m.overnightFeeDailyPct ≠ 0 → m.weekendMultiplier ≠ 1 → 0 < notionalUsd →
    (m.shortHoldingCostUsd notionalUsd entryTime exitTime ≠
        m.weekdaysOnly.shortHoldingCostUsd notionalUsd entryTime exitTime ↔
      close.HeldThroughFridayClose entryTime exitTime)

lemma CostModel.weekend_charged_iff (m : CostModel) {notionalUsd : ℚ} {entryTime exitTime : Timestamp}
    (h : entryTime ≤ exitTime) (hinclude : m.includeWeekendFinancing) (hfee : m.overnightFeeDailyPct ≠ 0)
    (hmultiplier : m.weekendMultiplier ≠ 1) (hnotional : 0 < notionalUsd) :
    m.holdingCostUsd notionalUsd entryTime exitTime ≠
        m.weekdaysOnly.holdingCostUsd notionalUsd entryTime exitTime ↔
      0 < countFridayClosesCrossed entryTime exitTime := by
  have hsub : m.weekendMultiplier - 1 ≠ 0 := sub_ne_zero.mpr hmultiplier
  rw [m.holdingCostUsd_eq _ h, m.weekdaysOnly.holdingCostUsd_eq _ h, if_neg (not_le.mpr hnotional),
    if_neg (not_le.mpr hnotional), countFridayClosesCrossed_eq h]
  simp [weekdaysOnly, weekendCrossings, hinclude, hfee, hsub, hnotional.ne', Nat.pos_iff_ne_zero]

lemma CostModel.weekend_charged_short_iff (m : CostModel) {notionalUsd : ℚ}
    {entryTime exitTime : Timestamp} (h : entryTime ≤ exitTime) :
    m.shortHoldingCostUsd notionalUsd entryTime exitTime ≠
        m.weekdaysOnly.shortHoldingCostUsd notionalUsd entryTime exitTime ↔
      m.holdingCostUsd notionalUsd entryTime exitTime ≠
        m.weekdaysOnly.holdingCostUsd notionalUsd entryTime exitTime := by
  rw [m.shortHoldingCostUsd_eq _ h, m.weekdaysOnly.shortHoldingCostUsd_eq _ h]
  exact not_congr (add_left_inj _)

lemma card_eq_iff_card_sdiff (s t : Finset ℤ) : s.card = t.card ↔ (s \ t).card = (t \ s).card := by
  have hs := Finset.card_sdiff_add_card_inter s t
  have ht := Finset.card_sdiff_add_card_inter t s
  rw [Finset.inter_comm] at ht
  omega

lemma card_singleton_filter (p : ℤ → Prop) [DecidablePred p] (a : ℤ) :
    {d ∈ ({a} : Finset ℤ) | p d}.card = if p a then 1 else 0 := by
  rw [Finset.filter_singleton]
  split_ifs <;> rfl

-- The two sets share the Fridays strictly between the dates: only a Friday that is itself the
-- exit's date is counted without its close, and only one that is the entry's date is missed.
lemma crossed_sdiff_fridaysWithin (close : MarketClose) (entryTime exitTime : Timestamp) :
    crossed (weekday · = 4) (utcDate entryTime) (utcDate exitTime) \ close.fridaysWithin entryTime exitTime =
      {date ∈ ({utcDate exitTime} : Finset ℤ) | weekday date = 4 ∧ utcDate entryTime < utcDate exitTime ∧
        exitTime ≤ close.time date} := by
  ext date
  simp only [Finset.mem_sdiff, mem_crossed, close.mem_fridaysWithin, Finset.mem_filter, Finset.mem_singleton]
  constructor
  · rintro ⟨⟨hentry, hexit, hfriday⟩, hnot⟩
    have hafter := close.lt_time_of_utcDate_lt hentry
    have hle : exitTime ≤ close.time date := by
      by_contra hlt
      exact hnot ⟨hfriday, hafter, not_le.mp hlt⟩
    have hdate : date = utcDate exitTime := by
      by_contra hne
      exact absurd (close.time_lt_of_lt_utcDate (lt_of_le_of_ne hexit hne)) (not_lt.mpr hle)
    exact ⟨hdate, hfriday, by omega, hle⟩
  · rintro ⟨rfl, hfriday, hlt, hle⟩
    exact ⟨⟨hlt, le_rfl, hfriday⟩, fun hin => absurd hin.2.2 (not_lt.mpr hle)⟩

lemma fridaysWithin_sdiff_crossed (close : MarketClose) (entryTime exitTime : Timestamp) :
    close.fridaysWithin entryTime exitTime \ crossed (weekday · = 4) (utcDate entryTime) (utcDate exitTime) =
      {date ∈ ({utcDate entryTime} : Finset ℤ) | weekday date = 4 ∧ entryTime < close.time date ∧
        close.time date < exitTime} := by
  ext date
  simp only [Finset.mem_sdiff, mem_crossed, close.mem_fridaysWithin, Finset.mem_filter, Finset.mem_singleton]
  constructor
  · rintro ⟨⟨hfriday, hentry, hexit⟩, hnot⟩
    have hfirst := utcDate_mono hentry.le
    have hlast := utcDate_mono hexit.le
    rw [close.same_date] at hfirst hlast
    have hdate : date = utcDate entryTime := by
      by_contra hne
      exact hnot ⟨by omega, hlast, hfriday⟩
    exact ⟨hdate, hfriday, hentry, hexit⟩
  · rintro ⟨rfl, hfriday, hentry, hexit⟩
    exact ⟨⟨hfriday, hentry, hexit⟩, fun hin => absurd hin.1 (lt_irrefl _)⟩

lemma card_crossed_eq_fridaysWithin_iff (close : MarketClose) {entryTime exitTime : Timestamp}
    (h : entryTime < exitTime) :
    (crossed (weekday · = 4) (utcDate entryTime) (utcDate exitTime)).card =
        (close.fridaysWithin entryTime exitTime).card ↔
      ((weekday (utcDate entryTime) = 4 ∧ entryTime < close.time (utcDate entryTime)) ↔
        weekday (utcDate exitTime) = 4 ∧ exitTime ≤ close.time (utcDate exitTime)) := by
  rw [card_eq_iff_card_sdiff, crossed_sdiff_fridaysWithin, fridaysWithin_sdiff_crossed,
    card_singleton_filter, card_singleton_filter]
  rcases (utcDate_mono h.le).lt_or_eq with hlt | hsame
  · have hbefore := close.time_lt_of_lt_utcDate hlt
    simp only [hlt, hbefore, true_and, and_true]
    split_ifs with hexit hentry hentry
    · exact ⟨fun _ => iff_of_true hentry hexit, fun _ => rfl⟩
    · exact ⟨nofun, fun hiff => absurd (hiff.mpr hexit) hentry⟩
    · exact ⟨nofun, fun hiff => absurd (hiff.mp hentry) hexit⟩
    · exact ⟨fun _ => iff_of_false hentry hexit, fun _ => rfl⟩
  · -- On one date a close after the exit is after the entry too.
    have hafter (hle : exitTime ≤ close.time (utcDate exitTime)) :
        entryTime < close.time (utcDate exitTime) := h.trans_le hle
    simp only [hsame, lt_irrefl, false_and, and_false, if_false]
    by_cases hfriday : weekday (utcDate exitTime) = 4
    · by_cases hle : exitTime ≤ close.time (utcDate exitTime)
      · simp [hfriday, hle, hafter hle, not_lt.mpr hle]
      · simp [hfriday, hle, not_le.mp hle]
    · simp [hfriday]

theorem friday_closes_counted_iff (close : MarketClose) {entryTime exitTime : Timestamp}
    (h : entryTime < exitTime) :
    FinancedByCloses close entryTime exitTime ↔
      ((weekday (utcDate entryTime) = 4 ∧ entryTime < close.time (utcDate entryTime)) ↔
        weekday (utcDate exitTime) = 4 ∧ exitTime ≤ close.time (utcDate exitTime)) := by
  rw [← card_crossed_eq_fridaysWithin_iff close h, ← countFridayClosesCrossed_eq h.le]
  refine ⟨FinancedByCloses.counted, fun hcount => ?_⟩
  have hheld : 0 < countFridayClosesCrossed entryTime exitTime ↔
      close.HeldThroughFridayClose entryTime exitTime := by
    rw [hcount, close.heldThroughFridayClose_iff]
  refine ⟨hcount, ?_, ?_⟩
  · intro m notionalUsd hinclude hfee hmultiplier hnotional
    exact (m.weekend_charged_iff h.le hinclude hfee hmultiplier hnotional).trans hheld
  · intro m notionalUsd hinclude hfee hmultiplier hnotional
    rw [m.weekend_charged_short_iff h.le]
    exact (m.weekend_charged_iff h.le hinclude hfee hmultiplier hnotional).trans hheld

def easternStandardClose : MarketClose where
  time date := midnight date + 21 * 60 * microsPerMinute
  same_date date := by
    simp only [utcDate, midnight, microsPerDay, microsPerMinute]
    omega

-- Thursday to Monday crosses one close.
theorem friday_closes_counted_thursday_to_monday :
    let thursday := midnight 20461 + 15 * 60 * microsPerMinute
    let monday := midnight 20465 + 15 * 60 * microsPerMinute
    FinancedByCloses easternStandardClose thursday monday :=
  (friday_closes_counted_iff easternStandardClose (by decide)).mpr (by decide)

-- Thursday 15:00 to Friday 15:00 is charged for a Friday close six hours after the exit.
theorem friday_counted_before_its_close :
    let thursday := midnight 20461 + 15 * 60 * microsPerMinute
    let friday := midnight 20462 + 15 * 60 * microsPerMinute
    countFridayClosesCrossed thursday friday = 1 ∧
      (easternStandardClose.fridaysWithin thursday friday).card = 0 ∧
      ¬ FinancedByCloses easternStandardClose thursday friday := by
  refine ⟨by decide, by decide, fun h => ?_⟩
  exact absurd h.counted (by decide)

end AlgoTrader.Backtesting
