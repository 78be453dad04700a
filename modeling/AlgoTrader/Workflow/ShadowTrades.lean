import AlgoTrader.Workflow.ShadowLedger
import AlgoTrader.Backtesting.EngineStep
import AlgoTrader.Lib.OneAtATime

/-! Setups on daily bars and the trades they make when only one may be open at a time. This
is what both the shadow ledger and the backtest engine compute. -/

namespace AlgoTrader.Workflow

open Utils.Time Models Backtesting OneAtATime

structure Setup where
  price : ℚ
  stop : ℚ
  target : ℚ
  plan : 0 < stop ∧ stop < price ∧ price < target

/-- Daily bars: every price is positive and every bar has a date of its own, oldest first. -/
structure DailyFrame where
  data : Frame
  positive : ∀ bar ∈ data, 0 < bar.openPrice ∧ 0 < bar.high ∧ 0 < bar.low ∧ 0 < bar.close
  ascending : data.Pairwise fun a b => utcDate a.timestamp < utcDate b.timestamp

def rowOf (bar : Bar) : Row := ⟨utcDate bar.timestamp, bar.openPrice, bar.high, bar.low, bar.close⟩

namespace DailyFrame

variable (f : DailyFrame)

def rows : List Row := f.data.map rowOf

def dayAt (index : ℕ) : ℤ := ((f.rows[index]?).map (·.day)).getD 0

end DailyFrame

def halfSpread : ℚ := cost.halfSpreadFraction false

def firstHit (stop target : ℚ) : ℕ → List Row → Option (ℕ × ℚ × LegReason)
  | _, [] => none
  | index, bar :: rest =>
    match crossed false stop target bar with
    | some (raw, reason) => some (index, raw, reason)
    | none => firstHit stop target (index + 1) rest

structure SetupTrade where
  entry : ℕ
  fill : ℚ
  stop : ℚ
  target : ℚ
  hit : Option (ℕ × ℚ × LegReason)

def SetupTrade.freeAt (t : SetupTrade) : Option ℕ := t.hit.map (·.1)

/-- The trade a setup on the bar `index` makes if nothing is open: none without a next bar,
or when it would fill at its own stop. -/
def tradeOffer (f : DailyFrame) (setupAt : ℕ → Option Setup) (index : ℕ) : Option SetupTrade :=
  match setupAt index, f.rows[index + 1]? with
  | some setup, some next =>
    let fill := next.openPrice * (1 + halfSpread)
    if fill = setup.stop then none
    else some ⟨index + 1, fill, setup.stop, setup.target,
      firstHit setup.stop setup.target (index + 1) (f.rows.drop (index + 1))⟩
  | _, _ => none

def tradeDesk (f : DailyFrame) (setupAt : ℕ → Option Setup) (n : ℕ) : Desk SetupTrade :=
  OneAtATime.run SetupTrade.freeAt (tradeOffer f setupAt) n

structure TradeView where
  entryDay : ℤ
  exitDay : ℤ
  entryPrice : ℚ
  exitPrice : ℚ
  reason : LegReason
  stillOpen : Bool
  deriving DecidableEq

def exitOrMark (f : DailyFrame) (hit : Option (ℕ × ℚ × LegReason)) : ℕ × ℚ × LegReason :=
  hit.getD (f.rows.length - 1, closeOf f.rows (f.rows.length - 1), .marked)

def SetupTrade.view (f : DailyFrame) (t : SetupTrade) : TradeView :=
  let exit := exitOrMark f t.hit
  { entryDay := f.dayAt t.entry
    exitDay := f.dayAt exit.1
    entryPrice := Rounding.toDigits 4 t.fill
    exitPrice := Rounding.toDigits 4 (exit.2.1 * (1 - halfSpread))
    reason := exit.2.2
    stillOpen := t.hit.isNone }

section Frames

variable {f : DailyFrame} {stop target : ℚ} {index : ℕ}

lemma rows_data (f : DailyFrame) : Workflow.rows f.data = f.rows := by
  have hall : f.data.filter
      (fun bar => 0 < bar.openPrice ∧ 0 < bar.high ∧ 0 < bar.low ∧ 0 < bar.close) = f.data := by
    rw [List.filter_eq_self]
    intro bar hbar
    simpa using f.positive bar hbar
  rw [Workflow.rows, hall]
  rfl

lemma rows_length (f : DailyFrame) : f.rows.length = f.data.length := List.length_map _

lemma rows_getElem? (f : DailyFrame) (i : ℕ) : f.rows[i]? = (f.data[i]?).map rowOf := List.getElem?_map

lemma row_positive {bar : Row} (h : f.rows[index]? = some bar) :
    0 < bar.openPrice ∧ 0 < bar.high ∧ 0 < bar.low ∧ 0 < bar.close := by
  rw [rows_getElem?] at h
  obtain ⟨raw, hraw, rfl⟩ := Option.map_eq_some_iff.mp h
  exact f.positive raw (List.mem_of_getElem? hraw)

lemma dayAt_eq {bar : Row} (h : f.rows[index]? = some bar) : f.dayAt index = bar.day := by
  rw [DailyFrame.dayAt, h]
  rfl

lemma rows_pairwise (f : DailyFrame) : f.rows.Pairwise fun a b => a.day < b.day :=
  List.pairwise_map.mpr f.ascending

lemma dayAt_lt_iff {i j : ℕ} (hi : i < f.rows.length) (hj : j < f.rows.length) :
    f.dayAt i < f.dayAt j ↔ i < j := by
  have hmono : ∀ a b (ha : a < f.rows.length) (hb : b < f.rows.length), a < b → f.dayAt a < f.dayAt b := by
    intro a b ha hb hab
    rw [dayAt_eq (List.getElem?_eq_getElem ha), dayAt_eq (List.getElem?_eq_getElem hb)]
    exact List.pairwise_iff_getElem.mp (rows_pairwise f) a b ha hb hab
  constructor
  · intro hlt
    by_contra hge
    rcases (not_lt.mp hge).eq_or_lt with rfl | hji
    · omega
    · have := hmono j i hj hi hji
      omega
  · exact hmono i j hi hj

lemma data_sorted (f : DailyFrame) : TimeSorted f.data := by
  refine f.ascending.imp ?_
  intro a b hlt
  by_contra hge
  have hdates := utcDate_mono (not_le.mp hge).le
  omega

lemma drop_rows {bar : Row} (h : f.rows[index]? = some bar) :
    f.rows.drop index = bar :: f.rows.drop (index + 1) := by
  obtain ⟨hlt, rfl⟩ := List.getElem?_eq_some_iff.mp h
  exact List.drop_eq_getElem_cons hlt

lemma firstHit_le {bars : List Row} {e : ℕ} {raw : ℚ} {reason : LegReason}
    (h : firstHit stop target index bars = some (e, raw, reason)) : index ≤ e := by
  induction bars generalizing index with
  | nil => simp [firstHit] at h
  | cons bar rest ih =>
    rw [firstHit] at h
    cases hcross : crossed false stop target bar with
    | some level =>
      simp only [hcross, Option.some.injEq, Prod.mk.injEq] at h
      omega
    | none =>
      simp only [hcross] at h
      have := ih h
      omega

lemma firstHit_crossed {bars : List Row} {bar : Row} {level : ℚ × LegReason}
    (h : crossed false stop target bar = some level) :
    firstHit stop target index (bar :: bars) = some (index, level) := by
  simp only [firstHit, h]

lemma firstHit_missed {bars : List Row} {bar : Row} (h : crossed false stop target bar = none) :
    firstHit stop target index (bar :: bars) = firstHit stop target (index + 1) bars := by
  simp only [firstHit, h]

lemma crossed_pos {bar : Row} {raw : ℚ} {reason : LegReason} (hstop : 0 < stop) (htarget : 0 < target)
    (hopen : 0 < bar.openPrice) (h : crossed false stop target bar = some (raw, reason)) : 0 < raw := by
  simp only [crossed, Bool.false_eq_true, if_false] at h
  split_ifs at h with hlow hhigh
  · obtain ⟨rfl, _⟩ := by simpa using h
    exact lt_min hstop hopen
  · obtain ⟨rfl, _⟩ := by simpa using h
    exact htarget

end Frames

end AlgoTrader.Workflow
