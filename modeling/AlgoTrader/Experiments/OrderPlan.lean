import AlgoTrader.Lib.Rounding
import AlgoTrader.Utils.Time
import Mathlib.Algebra.Order.Ring.Rat

/-! The order an extended-hours probe or exit sends (``_order_plan`` in ``app/experiments/extended_hours.py``). The
limit is divided by after it has been rounded to cents. -/

namespace AlgoTrader.Experiments.OrderPlan

open AlgoTrader.Utils.Time

inductive Side
  | buy
  | sell
  deriving DecidableEq, Repr

/-- A price that is missing or not a number is ``none``. -/
structure Quote where
  bid : Option ℚ
  ask : Option ℚ
  dataAgeSeconds : Option ℚ := none
  timestamp : IsoText := ⟨"", none⟩
  deriving DecidableEq

structure PlanSettings where
  maxSpreadBps : ℚ := 75
  maxQuoteAgeSeconds : ℚ := 30
  maxNotionalUsd : ℚ := 100
  maxQty : ℚ := 1

inductive PlanError
  | valueError (reason : String)
  | zeroDivision
  deriving DecidableEq

structure Plan where
  symbol : String
  side : Side
  qty : ℚ
  limitPrice : ℚ
  notionalUsd : ℚ
  spreadBps : ℚ
  quoteAgeSeconds : ℚ
  quote : Quote
  deriving DecidableEq

structure CheckedQuote where
  bid : ℚ
  ask : ℚ
  spreadBps : ℚ
  ageSeconds : ℚ
  deriving DecidableEq

section Plan

variable (s : PlanSettings) (now : Timestamp) (quote : Quote)

def quoteAgeSeconds : Except PlanError ℚ :=
  match quote.dataAgeSeconds.filter (0 ≤ ·) with
  | some direct => .ok direct
  | none =>
    if quote.timestamp.text = "" then .ok 0
    else match quote.timestamp.time with
      | none => .error (.valueError "Invalid isoformat string")
      | some parsed => .ok (max 0 ((now - parsed : ℤ) / 1000000))

def checkedQuote : Except PlanError CheckedQuote :=
  match quote.bid, quote.ask with
  | some bid, some ask =>
    if bid ≤ 0 ∨ ask ≤ 0 ∨ ask < bid then .error (.valueError "invalid_alpaca_quote")
    else
      let spreadBps := (ask - bid) / ((bid + ask) / 2) * 10000
      if s.maxSpreadBps < spreadBps then .error (.valueError "spread_too_wide")
      else do
        let quoteAge ← quoteAgeSeconds now quote
        if s.maxQuoteAgeSeconds < quoteAge then .error (.valueError "quote_stale")
        else .ok ⟨bid, ask, spreadBps, quoteAge⟩
  | _, _ => .error (.valueError "invalid_alpaca_quote")

def maxAllowedDrift : ℚ := s.maxSpreadBps / 10000

def insideGuard (side : Side) (checked : CheckedQuote) (limit : ℚ) : Prop :=
  match side with
  | .buy => limit ≤ checked.ask * (1 + maxAllowedDrift s)
  | .sell => checked.bid * (1 - maxAllowedDrift s) ≤ limit

instance (side : Side) (checked : CheckedQuote) (limit : ℚ) : Decidable (insideGuard s side checked limit) := by
  cases side <;> exact inferInstanceAs (Decidable (_ ≤ _))

def reference (side : Side) (checked : CheckedQuote) : ℚ :=
  match side with
  | .buy => checked.ask
  | .sell => checked.bid

def effectiveMaxQty (maxQty : Option ℚ) : ℚ :=
  match maxQty with
  | some cap => min s.maxQty cap
  | none => s.maxQty

def floorMillionths (qty : ℚ) : ℚ := ⌊qty * 1000000⌋ / 1000000

-- The plan of a quote that passed its checks.
def sizedPlan (checked : CheckedQuote) (symbol : String) (side : Side) (effectiveLimit : ℚ) (maxQty : Option ℚ) :
    Except PlanError Plan :=
  if ¬ insideGuard s side checked effectiveLimit then .error (.valueError "limit_price_exceeds_slippage_guard")
  else if effectiveLimit = 0 then .error .zeroDivision
  else
    let qty := floorMillionths (min (effectiveMaxQty s maxQty) (s.maxNotionalUsd / effectiveLimit))
    if qty ≤ 0 then .error (.valueError "extended_hours_size_too_small")
    else
      .ok {
        symbol := symbol
        side := side
        qty := qty
        limitPrice := effectiveLimit
        notionalUsd := Rounding.toDigits 2 (qty * effectiveLimit)
        spreadBps := checked.spreadBps
        quoteAgeSeconds := checked.ageSeconds
        quote := quote }

-- Prices are the exact values of floats. Half a cent is not one of them: the float 0.005 lies a little above it.
def orderPlan (symbol : String) (side : Side) (limitPrice maxQty : Option ℚ) : Except PlanError Plan :=
  match checkedQuote s now quote with
  | .error err => .error err
  | .ok checked =>
    sizedPlan s quote checked symbol side (Rounding.toDigits 2 (limitPrice.getD (reference side checked))) maxQty

structure PlanKept (side : Side) (maxQty : Option ℚ) (plan : Plan) : Prop where
  qty_pos : 0 < plan.qty
  qty_millionths : ∃ n : ℤ, plan.qty = n / 1000000
  limit_pos : 0 < plan.limitPrice
  limit_cents : ∃ n : ℤ, plan.limitPrice = n / 100
  within_notional : plan.qty * plan.limitPrice ≤ s.maxNotionalUsd
  within_configured : plan.qty ≤ s.maxQty
  within_cap : ∀ cap ∈ maxQty, plan.qty ≤ cap
  inside_guard : ∀ checked, checkedQuote s now quote = .ok checked → insideGuard s side checked plan.limitPrice

def Sound (side : Side) (maxQty : Option ℚ) : Except PlanError Plan → Prop
  | .error (.valueError _) => True
  | .error .zeroDivision => False
  | .ok plan => PlanKept s now quote side maxQty plan

end Plan

section Arithmetic

variable {s : PlanSettings} {now : Timestamp} {quote : Quote} {symbol : String} {side : Side}
  {limitPrice maxQty : Option ℚ} {checked : CheckedQuote}

lemma floorMillionths_le (qty : ℚ) : floorMillionths qty ≤ qty := by
  rw [floorMillionths, div_le_iff₀ (by norm_num)]
  exact Int.floor_le _

lemma floorMillionths_pos_iff (qty : ℚ) : 0 < floorMillionths qty ↔ 1 / 1000000 ≤ qty := by
  rw [floorMillionths, div_pos_iff_of_pos_right (by norm_num), Int.cast_pos, Int.floor_pos, div_le_iff₀ (by norm_num)]

lemma effectiveMaxQty_le : effectiveMaxQty s maxQty ≤ s.maxQty := by
  cases maxQty with
  | none => exact le_rfl
  | some cap => exact min_le_left _ _

lemma effectiveMaxQty_le_cap {cap : ℚ} (h : cap ∈ maxQty) : effectiveMaxQty s maxQty ≤ cap := by
  cases h
  exact min_le_right _ _

lemma quoteAgeSeconds_error {err : PlanError} (h : quoteAgeSeconds now quote = .error err) :
    ∃ reason, err = .valueError reason := by
  rw [quoteAgeSeconds] at h
  split at h
  · cases h
  · split_ifs at h
    split at h
    · exact ⟨_, (Except.error.inj h).symm⟩
    · cases h

lemma checkedQuote_error {err : PlanError} (h : checkedQuote s now quote = .error err) :
    ∃ reason, err = .valueError reason := by
  rw [checkedQuote] at h
  split at h
  · dsimp only at h
    split_ifs at h
    · exact ⟨_, (Except.error.inj h).symm⟩
    · exact ⟨_, (Except.error.inj h).symm⟩
    · cases hage : quoteAgeSeconds now quote with
      | error ageErr =>
        rw [hage] at h
        cases h
        exact quoteAgeSeconds_error hage
      | ok quoteAge =>
        rw [hage] at h
        change (if s.maxQuoteAgeSeconds < quoteAge then _ else _) = _ at h
        split_ifs at h
        exact ⟨_, (Except.error.inj h).symm⟩
  · exact ⟨_, (Except.error.inj h).symm⟩

lemma floorMillionths_nonpos_iff (qty : ℚ) : floorMillionths qty ≤ 0 ↔ qty < 1 / 1000000 := by
  rw [← not_lt, floorMillionths_pos_iff, not_le]

-- A quantity is cut down only after every cap is applied, so it keeps them all.
lemma planKept_of_pos (hchecked : checkedQuote s now quote = .ok checked) {limit : ℚ} (hlimit : 0 < limit)
    (hcents : ∃ n : ℤ, limit = n / 100) (hguard : insideGuard s side checked limit) {qty : ℚ}
    (hqty : qty = floorMillionths (min (effectiveMaxQty s maxQty) (s.maxNotionalUsd / limit))) (hpos : 0 < qty)
    {plan : Plan} (hplanQty : plan.qty = qty) (hplanLimit : plan.limitPrice = limit) :
    PlanKept s now quote side maxQty plan := by
  have hle : qty ≤ min (effectiveMaxQty s maxQty) (s.maxNotionalUsd / limit) := hqty.trans_le (floorMillionths_le _)
  have hcap : qty ≤ effectiveMaxQty s maxQty := hle.trans (min_le_left _ _)
  have hnotional : qty ≤ s.maxNotionalUsd / limit := hle.trans (min_le_right _ _)
  exact {
    qty_pos := hplanQty ▸ hpos
    qty_millionths := ⟨_, hplanQty.trans hqty⟩
    limit_pos := hplanLimit ▸ hlimit
    limit_cents := hplanLimit ▸ hcents
    within_notional := by
      rw [hplanQty, hplanLimit]
      exact (le_div_iff₀ hlimit).mp hnotional
    within_configured := hplanQty ▸ hcap.trans effectiveMaxQty_le
    within_cap := fun cap h => hplanQty ▸ hcap.trans (effectiveMaxQty_le_cap h)
    inside_guard := by
      intro other hother
      rw [hchecked] at hother
      cases hother
      rwa [hplanLimit] }

lemma sizedPlan_sound_iff (hchecked : checkedQuote s now quote = .ok checked) {limit : ℚ}
    (hcents : ∃ n : ℤ, limit = n / 100) :
    Sound s now quote side maxQty (sizedPlan s quote checked symbol side limit maxQty) ↔
      (insideGuard s side checked limit →
        0 < limit ∨ (limit < 0 ∧ min (effectiveMaxQty s maxQty) (s.maxNotionalUsd / limit) < 1 / 1000000)) := by
  rw [sizedPlan]
  by_cases hguard : insideGuard s side checked limit
  · rw [if_neg (not_not.mpr hguard)]
    rcases lt_trichotomy limit 0 with hneg | rfl | hpos
    · rw [if_neg hneg.ne]
      dsimp only
      split_ifs with hsmall
      · exact iff_of_true trivial fun _ => .inr ⟨hneg, (floorMillionths_nonpos_iff _).mp hsmall⟩
      · -- a plan of a negative price is never a sound one
        apply iff_of_false
        · intro h
          exact absurd h.limit_pos hneg.not_gt
        · intro h
          rcases h hguard with hpos | ⟨_, hlt⟩
          · exact absurd hpos hneg.not_gt
          · exact hsmall ((floorMillionths_nonpos_iff _).mpr hlt)
    · simp [Sound, hguard]
    · rw [if_neg hpos.ne']
      dsimp only
      split_ifs with hsmall
      · exact iff_of_true trivial fun _ => .inl hpos
      · apply iff_of_true
        · exact planKept_of_pos hchecked hpos hcents hguard rfl (not_le.mp hsmall) rfl rfl
        · intro _
          exact .inl hpos
  · rw [if_pos hguard]
    exact iff_of_true trivial fun h => absurd h hguard

end Arithmetic

theorem order_plan_sound_iff (s : PlanSettings) (now : Timestamp) (quote : Quote) (symbol : String) (side : Side)
    (limitPrice maxQty : Option ℚ) :
    Sound s now quote side maxQty (orderPlan s now quote symbol side limitPrice maxQty) ↔
      ∀ checked, checkedQuote s now quote = .ok checked →
        insideGuard s side checked (Rounding.toDigits 2 (limitPrice.getD (reference side checked))) →
          1 / 200 < limitPrice.getD (reference side checked) ∨
            (limitPrice.getD (reference side checked) < -(1 / 200) ∧
              min (effectiveMaxQty s maxQty)
                (s.maxNotionalUsd / Rounding.toDigits 2 (limitPrice.getD (reference side checked))) < 1 / 1000000) := by
  rw [orderPlan]
  cases hquote : checkedQuote s now quote with
  | error err =>
    obtain ⟨reason, rfl⟩ := checkedQuote_error hquote
    exact iff_of_true trivial fun checked h => nomatch h
  | ok checked =>
    set price := limitPrice.getD (reference side checked) with hprice
    have hcents : ∃ n : ℤ, Rounding.toDigits 2 price = n / 100 :=
      ⟨Rounding.halfEven (price * 10 ^ 2), by norm_num [Rounding.toDigits]⟩
    have hpos : 0 < Rounding.toDigits 2 price ↔ 1 / 200 < price := by
      rw [Rounding.toDigits_pos_iff]
      norm_num
    have hneg : Rounding.toDigits 2 price < 0 ↔ price < -(1 / 200) := by
      rw [Rounding.toDigits_neg_iff]
      norm_num
    dsimp only
    rw [sizedPlan_sound_iff hquote hcents, hpos, hneg]
    constructor
    · rintro h other hother
      cases hother
      exact h
    · intro h
      exact h checked rfl

-- A positive limit of under half a cent rounds to a free order.
theorem sub_cent_limit_divides_by_zero :
    orderPlan {} 0 ⟨some 100, some (1001 / 10), none, ⟨"", none⟩⟩ "SPY" .buy (some (4 / 1000)) none
        = .error .zeroDivision ∧
      ¬ Sound {} 0 ⟨some 100, some (1001 / 10), none, ⟨"", none⟩⟩ .buy none
        (orderPlan {} 0 ⟨some 100, some (1001 / 10), none, ⟨"", none⟩⟩ "SPY" .buy (some (4 / 1000)) none) := by
  have h : orderPlan {} 0 ⟨some 100, some (1001 / 10), none, ⟨"", none⟩⟩ "SPY" .buy (some (4 / 1000)) none
      = .error .zeroDivision := by decide +kernel
  rw [h]
  exact ⟨rfl, id⟩

end AlgoTrader.Experiments.OrderPlan
