import AlgoTrader.Broker.EtoroLiveRoom
import Mathlib.Algebra.Order.BigOperators.Group.Finset
import Mathlib.Algebra.BigOperators.Group.Finset.Basic

/-! What the exposure cap counts of the open positions (``open_exposure_usd`` in ``app/broker/etoro_live_room.py``):
every held symbol once, at the largest of what is known about it. -/

namespace AlgoTrader.Broker.Etoro

open AlgoTrader.Utils.Time

section Largest

lemma foldl_max_eq (readings : List ℚ) (start : ℚ) : readings.foldl max start = max start (readings.foldl max start) := by
  induction readings generalizing start with
  | nil => simp
  | cons reading rest ih =>
    rw [List.foldl_cons, ih, ← max_assoc, max_eq_right (le_max_left start reading)]

lemma foldl_max_max (readings : List ℚ) (a b : ℚ) : readings.foldl max (max a b) = max a (readings.foldl max b) := by
  induction readings generalizing b with
  | nil => rfl
  | cons reading rest ih => rw [List.foldl_cons, List.foldl_cons, max_assoc, ih]

lemma largest_cons (reading : ℚ) (rest : List ℚ) : largest (reading :: rest) = max reading (largest rest) := by
  rw [largest, List.foldl_cons, max_comm, foldl_max_max, largest]

lemma largest_nonneg (readings : List ℚ) : 0 ≤ largest readings := by
  rw [largest, foldl_max_eq]
  exact le_max_left _ _

lemma largest_append (readings more : List ℚ) : largest (readings ++ more) = max (largest readings) (largest more) := by
  induction readings with
  | nil => exact (max_eq_right (largest_nonneg more)).symm
  | cons reading rest ih => rw [List.cons_append, largest_cons, largest_cons, ih, max_assoc]

lemma largest_le_iff {readings : List ℚ} {bound : ℚ} :
    largest readings ≤ bound ↔ 0 ≤ bound ∧ ∀ reading ∈ readings, reading ≤ bound := by
  induction readings with
  | nil => simp [largest]
  | cons reading rest ih =>
    rw [largest_cons, max_le_iff, ih, List.forall_mem_cons]
    tauto

lemma largest_mono {readings more : List ℚ} (h : readings ⊆ more) : largest readings ≤ largest more :=
  largest_le_iff.mpr ⟨largest_nonneg more, fun reading hreading =>
    (largest_le_iff.mp le_rfl).2 reading (h hreading)⟩

lemma largest_toList (reading : Option ℚ) (h : ∀ value ∈ reading, 0 ≤ value) : largest reading.toList = reading.getD 0 := by
  cases reading with
  | none => rfl
  | some value =>
    change max 0 value = value
    exact max_eq_right (h value rfl)

lemma mapM_known {α β : Type} {f : α → Option β} {g : α → β} {unknown : α → Prop} [DecidablePred unknown]
    (hf : ∀ a, f a = if unknown a then none else some (g a)) (l : List α) :
    l.mapM f = if ∃ a ∈ l, unknown a then none else some (l.map g) := by
  induction l with
  | nil => simp
  | cons a l ih =>
    rw [List.mapM_cons, hf, ih]
    by_cases ha : unknown a
    · simp [ha]
    · by_cases hl : ∃ b ∈ l, unknown b
      · simp [ha, hl]
      · simp [ha, hl]

end Largest

section Exposure

variable (store : Store) (state : MirrorState) (now : Timestamp)

def heldSymbols : Finset String := (effectiveOpenSymbols store state).toFinset

def costOf (symbol : String) : ℚ :=
  largest ((notionalRows store state symbol).filterMap fun row => positive row.costUsd)

def freshMark (symbol : String) : Option Mark :=
  (store.marks.lookup symbol).filter fun mark =>
    0 < mark.rate && now - markMaxAgeMinutes * microsPerMinute ≤ mark.seenAt

def markedValue (symbol : String) : ℚ :=
  ((freshMark store now symbol).map fun mark => unitsOf store state symbol * mark.rate).getD 0

def notionalOf (symbol : String) : ℚ := max (costOf store state symbol) (liveNotional store symbol)

def knownValue (symbol : String) : ℚ := max (notionalOf store state symbol) (markedValue store state now symbol)

lemma unitsOf_nonneg (symbol : String) : 0 ≤ unitsOf store state symbol := largest_nonneg _

lemma freshMark_pos {symbol : String} {mark : Mark} (h : mark ∈ freshMark store now symbol) : 0 < mark.rate := by
  rw [freshMark, Option.mem_def, Option.filter_eq_some_iff, Bool.and_eq_true] at h
  exact of_decide_eq_true h.2.1

lemma exposureOf_eq (symbol : String) : exposureOf store state now symbol =
    if notionalOf store state symbol = 0 then none else some (knownValue store state now symbol) := by
  have hnotional : largest (liveNotional store symbol ::
      (notionalRows store state symbol).filterMap fun row => positive row.costUsd) = notionalOf store state symbol := by
    rw [largest_cons, notionalOf, costOf, max_comm]
  have hmarked : largest ((freshMark store now symbol).toList.map fun mark => unitsOf store state symbol * mark.rate) =
      markedValue store state now symbol := by
    rw [← Option.toList_map, largest_toList, markedValue]
    intro value hvalue
    obtain ⟨mark, hmark, rfl⟩ := Option.mem_map.mp hvalue
    exact mul_nonneg (unitsOf_nonneg store state symbol) (freshMark_pos store now hmark).le
  rw [exposureOf]
  dsimp only
  rw [largest_append, hnotional, ← freshMark, hmarked, knownValue]

lemma openExposureUsd_eq : openExposureUsd store state now =
    if (state.openNotional.entries.any (·.2.unreadable) = true) ∨
        ∃ symbol ∈ heldSymbols store state, notionalOf store state symbol = 0 then none
    else some (Rounding.toDigits 2 (∑ symbol ∈ heldSymbols store state, knownValue store state now symbol)) := by
  have hnodup : (effectiveOpenSymbols store state).Nodup := List.nodup_dedup _
  rw [openExposureUsd, mapM_known (exposureOf_eq store state now)]
  simp only [heldSymbols, List.mem_toFinset, List.sum_toFinset _ hnodup]
  by_cases hunreadable : state.openNotional.entries.any (·.2.unreadable) = true
  · rw [if_pos hunreadable, if_pos (.inl hunreadable)]
  · by_cases hunknown : ∃ symbol ∈ effectiveOpenSymbols store state, notionalOf store state symbol = 0
    · rw [if_neg hunreadable, if_pos hunknown, if_pos (.inr hunknown)]
      rfl
    · rw [if_neg hunreadable, if_neg hunknown, if_neg (not_or.mpr ⟨hunreadable, hunknown⟩)]
      rfl

lemma markedValue_nonneg (symbol : String) : 0 ≤ markedValue store state now symbol := by
  rw [markedValue]
  cases hmark : freshMark store now symbol with
  | none => exact le_rfl
  | some mark => exact mul_nonneg (unitsOf_nonneg store state symbol) (freshMark_pos store now hmark).le

lemma knownValue_nonneg (symbol : String) : 0 ≤ knownValue store state now symbol :=
  le_max_of_le_left (le_max_of_le_left (largest_nonneg _))

lemma positive_pos {reading : Option ℚ} {value : ℚ} (h : value ∈ positive reading) : 0 < value := by
  rw [positive, Option.mem_def, Option.filter_eq_some_iff] at h
  exact of_decide_eq_true h.2

lemma cardNotional_nonneg (card : Card) : 0 ≤ ((positive card.notionalUsd).or (positive card.amountUsd)).getD 0 := by
  cases hnotional : positive card.notionalUsd with
  | some value => exact (positive_pos hnotional).le
  | none =>
    cases hamount : positive card.amountUsd with
    | some value => exact (positive_pos hamount).le
    | none => exact le_rfl

lemma mem_heldSymbols {symbol : String} : symbol ∈ heldSymbols store state ↔
    ((∃ key ∈ state.openSymbols, symbolOf store key = symbol) ∨
      ∃ card ∈ liveCards store, card.symbol.toUpper = symbol) ∧ symbol ≠ "" := by
  simp [heldSymbols, effectiveOpenSymbols, or_and_right]

end Exposure

/-- More positions, cards and marks, or higher marks. No key on record is read as another symbol. -/
structure Grows (store : Store) (state : MirrorState) (store' : Store) (state' : MirrorState) : Prop where
  symbols : state.openSymbols ⊆ state'.openSymbols
  rows : state.openNotional.entries.Sublist state'.openNotional.entries
  cards : store.scorecard.entries.Sublist store'.scorecard.entries
  resolved : ∀ key ∈ state.openSymbols ++ state.openNotional.keys, symbolOf store' key = symbolOf store key
  marks : ∀ symbol, ∀ mark ∈ store.marks.lookup symbol, ∃ raised ∈ store'.marks.lookup symbol,
    mark.rate ≤ raised.rate ∧ mark.seenAt ≤ raised.seenAt

namespace Grows

variable {store store' : Store} {state state' : MirrorState} (h : Grows store state store' state')
include h

lemma liveCards : (liveCards store).Sublist (liveCards store') := (h.cards.map _).filter _

lemma cardsOf (symbol : String) : (cardsOf store symbol).Sublist (cardsOf store' symbol) := h.liveCards.filter _

lemma notionalRows (symbol : String) :
    (notionalRows store state symbol).Sublist (notionalRows store' state' symbol) := by
  have hsame : state.openNotional.entries.filter (symbolOf store ·.1 = symbol) =
      state.openNotional.entries.filter (symbolOf store' ·.1 = symbol) := by
    apply List.filter_congr
    intro entry hentry
    rw [h.resolved entry.1 (List.mem_append_right _ (List.mem_map_of_mem hentry))]
  rw [Etoro.notionalRows, hsame]
  exact (h.rows.filter _).map _

lemma heldSymbols : heldSymbols store state ⊆ heldSymbols store' state' := by
  intro symbol hsymbol
  rw [mem_heldSymbols] at hsymbol ⊢
  obtain ⟨⟨key, hkey, rfl⟩ | ⟨card, hcard, rfl⟩, hne⟩ := hsymbol
  · have hsame := h.resolved key (List.mem_append_left _ hkey)
    exact ⟨.inl ⟨key, h.symbols hkey, hsame⟩, hne⟩
  · exact ⟨.inr ⟨card, h.liveCards.subset hcard, rfl⟩, hne⟩

lemma costOf (symbol : String) : costOf store state symbol ≤ costOf store' state' symbol :=
  largest_mono ((h.notionalRows symbol).filterMap _).subset

lemma liveNotional (symbol : String) : liveNotional store symbol ≤ liveNotional store' symbol := by
  apply List.Sublist.sum_le_sum ((h.cardsOf symbol).map _)
  intro amount hamount
  obtain ⟨card, -, rfl⟩ := List.mem_map.mp hamount
  exact cardNotional_nonneg card

lemma unitsOf (symbol : String) : unitsOf store state symbol ≤ unitsOf store' state' symbol :=
  largest_mono (((h.notionalRows symbol).map _).append ((h.cardsOf symbol).map _)).subset

lemma freshMark {now : Timestamp} {symbol : String} {mark : Mark} (hmark : mark ∈ freshMark store now symbol) :
    ∃ raised ∈ freshMark store' now symbol, mark.rate ≤ raised.rate := by
  simp only [Etoro.freshMark, Option.mem_def, Option.filter_eq_some_iff, Bool.and_eq_true, decide_eq_true_eq]
    at hmark ⊢
  obtain ⟨hold, hrate, hseen⟩ := hmark
  obtain ⟨raised, hraised, hle, hlater⟩ := h.marks symbol mark hold
  exact ⟨raised, ⟨hraised, hrate.trans_le hle, hseen.trans hlater⟩, hle⟩

lemma markedValue (now : Timestamp) (symbol : String) :
    markedValue store state now symbol ≤ markedValue store' state' now symbol := by
  cases hmark : Etoro.freshMark store now symbol with
  | none =>
    rw [Etoro.markedValue, hmark]
    exact markedValue_nonneg store' state' now symbol
  | some mark =>
    obtain ⟨raised, hraised, hle⟩ := h.freshMark hmark
    rw [Etoro.markedValue, Etoro.markedValue, hmark, Option.mem_def.mp hraised]
    exact mul_le_mul (h.unitsOf symbol) hle (freshMark_pos store now hmark).le (unitsOf_nonneg store' state' symbol)

lemma knownValue (now : Timestamp) (symbol : String) :
    knownValue store state now symbol ≤ knownValue store' state' now symbol :=
  max_le_max (max_le_max (h.costOf symbol) (h.liveNotional symbol)) (h.markedValue now symbol)

lemma sum_knownValue (now : Timestamp) :
    ∑ symbol ∈ Etoro.heldSymbols store state, Etoro.knownValue store state now symbol ≤
      ∑ symbol ∈ Etoro.heldSymbols store' state', Etoro.knownValue store' state' now symbol := by
  calc
    _ ≤ ∑ symbol ∈ Etoro.heldSymbols store state, Etoro.knownValue store' state' now symbol :=
      Finset.sum_le_sum fun symbol _ => h.knownValue now symbol
    _ ≤ _ := Finset.sum_le_sum_of_subset_of_nonneg h.heldSymbols
      fun symbol _ _ => knownValue_nonneg store' state' now symbol

end Grows

lemma openExposureUsd_some {store : Store} {state : MirrorState} {now : Timestamp} {usd : ℚ}
    (h : usd ∈ openExposureUsd store state now) :
    usd = Rounding.toDigits 2 (∑ symbol ∈ heldSymbols store state, knownValue store state now symbol) := by
  rw [openExposureUsd_eq] at h
  split_ifs at h
  · cases h
  · exact (Option.some_inj.mp h).symm

theorem open_exposure_covers (store : Store) (state : MirrorState) (now : Timestamp) :
    (openExposureUsd store state now = none ↔
      (∃ entry ∈ state.openNotional.entries, entry.2.unreadable = true) ∨
        ∃ symbol ∈ heldSymbols store state, notionalOf store state symbol = 0) ∧
    (∀ usd ∈ openExposureUsd store state now,
      usd = Rounding.toDigits 2 (∑ symbol ∈ heldSymbols store state, knownValue store state now symbol) ∧
      Rounding.toDigits 2 (∑ symbol ∈ heldSymbols store state, notionalOf store state symbol) ≤ usd) ∧
    ∀ store' state', Grows store state store' state' → ∀ usd ∈ openExposureUsd store state now,
      ∀ usd' ∈ openExposureUsd store' state' now, usd ≤ usd' := by
  refine ⟨?_, fun usd husd => ⟨openExposureUsd_some husd, ?_⟩, fun store' state' hgrows usd husd usd' husd' => ?_⟩
  · rw [openExposureUsd_eq, ← List.any_eq_true]
    split_ifs with hunknown
    · exact iff_of_true rfl hunknown
    · exact iff_of_false not_false hunknown
  · rw [openExposureUsd_some husd]
    apply Rounding.toDigits_mono
    exact Finset.sum_le_sum fun symbol _ => le_max_left _ _
  · rw [openExposureUsd_some husd, openExposureUsd_some husd']
    exact Rounding.toDigits_mono 2 (hgrows.sum_knownValue now)

def rowsOf (rows : List (String × NotionalRow)) : Records.Dict String NotionalRow :=
  rows.foldr (fun row rest => rest.insert row.1 row.2) ∅

def subCent : MirrorState :=
  { openSymbols := ["JPM"], openNotional := rowsOf [("JPM", { costUsd := some (100004 / 1000) })] }

-- The client has not resolved the id of one lot; the write-ahead books the other under its symbol.
def unresolved : MirrorState :=
  { openSymbols := ["1001", "AAPL"]
    openNotional := rowsOf [("1001", { costUsd := some 500 }), ("AAPL", { costUsd := some 300 })] }

def appleCard : Card :=
  { symbol := "AAPL", openedAt := 0, notionalUsd := some 300, instrumentId := some 1001 }

def resolving : Store := { scorecard := (∅ : Records.Dict String Card).insert "et1" appleCard }

-- One of two cards of the symbol has no amount.
def halfRead : Store :=
  { scorecard := ((∅ : Records.Dict String Card).insert "et1" appleCard).insert "et2"
      { symbol := "AAPL", openedAt := 0 } }

theorem exposure_understated :
    (openExposureUsd {} subCent 0 = some 100 ∧
        (100 : ℚ) < ∑ symbol ∈ heldSymbols {} subCent, notionalOf {} subCent symbol) ∧
      (openExposureUsd {} unresolved 0 = some 800 ∧ openExposureUsd resolving unresolved 0 = some 500) ∧
      openExposureUsd halfRead {} 0 = some 300 := by
  refine ⟨⟨?_, ?_⟩, ⟨?_, ?_⟩, ?_⟩ <;> decide +kernel

end AlgoTrader.Broker.Etoro
