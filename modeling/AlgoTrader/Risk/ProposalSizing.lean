import AlgoTrader.Lib.Rounding
import AlgoTrader.Risk.Guardrails
import Mathlib.Tactic.FieldSimp
import Mathlib.Tactic.NormNum

/-! The notional of an auto-created proposal (``app/risk/proposal_sizing.py``,
``app/risk/position_sizing.py``) against the per-trade risk check of the guardrails. -/

namespace AlgoTrader.Risk

structure PositionSizingResult where
  amountUsd : ℚ
  quantity : ℚ
  riskAmountUsd : ℚ
  amount_pos : 0 < amountUsd
  quantity_pos : 0 < quantity
  risk_pos : 0 < riskAmountUsd

inductive SizingError where
  | accountBalance
  | prices
  | stopEqualsEntry
  | leverage
  | notPositive
deriving DecidableEq

def validated (amountUsd quantity riskAmountUsd : ℚ) : Except SizingError PositionSizingResult :=
  if h : 0 < amountUsd ∧ 0 < quantity ∧ 0 < riskAmountUsd then
    .ok ⟨amountUsd, quantity, riskAmountUsd, h.1, h.2.1, h.2.2⟩
  else .error .notPositive

def riskBudget (accountBalance riskPct : ℚ) : ℚ := accountBalance * (riskPct / 100)

def stopDistancePct (entryPrice stopPrice : ℚ) : ℚ := |entryPrice - stopPrice| / entryPrice

def grossExposure (accountBalance riskPct entryPrice stopPrice : ℚ) : ℚ :=
  riskBudget accountBalance riskPct / stopDistancePct entryPrice stopPrice

def calculatePositionSize (accountBalance riskPct entryPrice stopPrice : ℚ) (leverage : ℕ) :
    Except SizingError PositionSizingResult :=
  if accountBalance ≤ 0 then .error .accountBalance
  else if entryPrice ≤ 0 ∨ stopPrice ≤ 0 then .error .prices
  else if entryPrice = stopPrice then .error .stopEqualsEntry
  else if leverage < 1 then .error .leverage
  else
    let gross := grossExposure accountBalance riskPct entryPrice stopPrice
    validated (Rounding.toDigits 2 (gross / leverage)) (Rounding.toDigits 6 (gross / entryPrice))
      (Rounding.toDigits 2 (riskBudget accountBalance riskPct))

structure SizingDetails where
  uncappedAmountUsd : ℚ
  notionalCapUsd : ℚ
  capped : Bool
  riskPct : ℚ
  riskBudgetUsd : ℚ
  effectiveRiskUsd : ℚ
  stopDistancePct : ℚ
  equityUsd : ℚ
deriving DecidableEq

inductive SizingMode where
  | flatDefault (missingInput : Bool)
  | riskBased (details : SizingDetails)
deriving DecidableEq

structure Sizing where
  amountUsd : ℚ
  mode : SizingMode
deriving DecidableEq

def flatAmount (s : RiskSettings) : ℚ := orDefault s.defaultTradeAmountUsd 1000

def notionalCap (s : RiskSettings) : ℚ := min (flatAmount s) (orDefault s.maxTradeAmountUsd (flatAmount s))

-- An amount that is missing is ``none``; ``float(x or 0.0)`` reads it as zero.
def riskBasedProposalNotional (s : RiskSettings) (entryPrice stopPrice equityUsd : Option ℚ) :
    Except SizingError Sizing :=
  let flat := flatAmount s
  let cap := notionalCap s
  if ¬ s.autoProposeRiskBasedSizing then .ok ⟨flat, .flatDefault false⟩
  else
    let entry := entryPrice.getD 0
    let stop := stopPrice.getD 0
    let equity := equityUsd.getD 0
    if entry ≤ 0 ∨ stop ≤ 0 ∨ entry = stop ∨ equity ≤ 0 then .ok ⟨flat, .flatDefault true⟩
    else
      let riskPct := sizingRiskPct s s.isLive
      (calculatePositionSize equity riskPct entry stop 1).map fun sized =>
        let amount := Rounding.toDigits 2 (min sized.amountUsd cap)
        let distance := stopDistancePct entry stop * 100
        ⟨amount, .riskBased
          { uncappedAmountUsd := sized.amountUsd
            notionalCapUsd := cap
            capped := cap < sized.amountUsd
            riskPct := riskPct
            riskBudgetUsd := sized.riskAmountUsd
            effectiveRiskUsd := Rounding.toDigits 2 (amount * distance / 100)
            stopDistancePct := Rounding.toDigits 4 distance
            equityUsd := equity }⟩

def SizedByRisk (s : RiskSettings) (entryPrice stopPrice equityUsd : Option ℚ) : Prop :=
  s.autoProposeRiskBasedSizing ∧ 0 < entryPrice.getD 0 ∧ 0 < stopPrice.getD 0 ∧
    entryPrice.getD 0 ≠ stopPrice.getD 0 ∧ 0 < equityUsd.getD 0

/-- The per-trade risk check of the gate, at this price and equity, for an unlevered order. -/
def PassesRiskCheck (s : RiskSettings) (entry stop equity amount : ℚ) : Prop :=
  riskPctOfBalance (estimateRiskAmount entry stop amount 1) { accountBalance := equity, mode := contextMode s } ≤
    riskCap s (contextMode s)

/-- Half a cent times the stop distance is inside what the sizer leaves of the cap. -/
def HeadroomHolds (s : RiskSettings) (entry stop equity : ℚ) : Prop :=
  1 / 200 * stopDistancePct entry stop ≤
    riskBudget equity (effectiveMaxRiskPerTradePct s s.isLive - sizingRiskPct s s.isLive)

section Sizing

variable {s : RiskSettings} {entry stop equity riskPct : ℚ}

lemma stopDistancePct_pos (hentry : 0 < entry) (hne : entry ≠ stop) : 0 < stopDistancePct entry stop :=
  div_pos (abs_pos.mpr (sub_ne_zero.mpr hne)) hentry

lemma calculatePositionSize_eq (hequity : 0 < equity) (hentry : 0 < entry) (hstop : 0 < stop) (hne : entry ≠ stop) :
    calculatePositionSize equity riskPct entry stop 1 =
      validated (Rounding.toDigits 2 (grossExposure equity riskPct entry stop))
        (Rounding.toDigits 6 (grossExposure equity riskPct entry stop / entry))
        (Rounding.toDigits 2 (riskBudget equity riskPct)) := by
  rw [calculatePositionSize, if_neg (not_le.mpr hequity), if_neg (not_or.mpr ⟨not_le.mpr hentry, not_le.mpr hstop⟩),
    if_neg hne, if_neg (lt_irrefl 1), Nat.cast_one]
  simp only [div_one]

lemma validated_ok {amount quantity risk : ℚ} {sized : PositionSizingResult}
    (h : validated amount quantity risk = .ok sized) : sized.amountUsd = amount := by
  rw [validated] at h
  split_ifs at h
  cases h
  rfl

/-- A size too small for its rounding is refused by the result's validation, which nothing catches. -/
lemma calculatePositionSize_raises_iff (hequity : 0 < equity) (hentry : 0 < entry) (hstop : 0 < stop)
    (hne : entry ≠ stop) :
    calculatePositionSize equity riskPct entry stop 1 = .error .notPositive ↔
      grossExposure equity riskPct entry stop ≤ 1 / 200 ∨
        grossExposure equity riskPct entry stop / entry ≤ 1 / 2000000 ∨ riskBudget equity riskPct ≤ 1 / 200 := by
  have hcent : (1 : ℚ) / (2 * 10 ^ 2) = 1 / 200 := by norm_num
  have hmicro : (1 : ℚ) / (2 * 10 ^ 6) = 1 / 2000000 := by norm_num
  rw [calculatePositionSize_eq hequity hentry hstop hne, validated]
  simp only [Rounding.toDigits_pos_iff, hcent, hmicro]
  constructor
  · intro h
    by_contra hall
    simp only [not_or, not_le] at hall
    rw [dif_pos hall] at h
    cases h
  · intro h
    apply dif_neg
    rintro ⟨hamount, hquantity, hrisk⟩
    rcases h with h | h | h <;> linarith

lemma notional_flat {entryPrice stopPrice equityUsd : Option ℚ} (h : ¬ SizedByRisk s entryPrice stopPrice equityUsd) :
    ∃ missing, riskBasedProposalNotional s entryPrice stopPrice equityUsd =
      .ok ⟨flatAmount s, .flatDefault missing⟩ := by
  rw [riskBasedProposalNotional]
  by_cases hauto : s.autoProposeRiskBasedSizing
  · refine ⟨true, ?_⟩
    rw [if_neg (not_not.mpr hauto), if_pos]
    by_contra hall
    simp only [not_or, not_le] at hall
    exact h ⟨hauto, hall.1, hall.2.1, hall.2.2.1, hall.2.2.2⟩
  · exact ⟨false, if_pos hauto⟩

lemma notional_risk_based {sizing : Sizing} (h : SizedByRisk s (some entry) (some stop) (some equity))
    (hsizing : riskBasedProposalNotional s (some entry) (some stop) (some equity) = .ok sizing) :
    0 < Rounding.toDigits 2 (grossExposure equity (sizingRiskPct s s.isLive) entry stop) ∧
      sizing.amountUsd = Rounding.toDigits 2
        (min (Rounding.toDigits 2 (grossExposure equity (sizingRiskPct s s.isLive) entry stop)) (notionalCap s)) := by
  obtain ⟨hauto, hentry, hstop, hne, hequity⟩ := h
  simp only [Option.getD_some] at hentry hstop hne hequity
  rw [riskBasedProposalNotional, if_neg (not_not.mpr hauto)] at hsizing
  simp only [Option.getD_some] at hsizing
  rw [if_neg (by simp [not_or, hentry, hstop, hne, hequity]),
    calculatePositionSize_eq hequity hentry hstop hne] at hsizing
  cases hsized : validated (Rounding.toDigits 2 (grossExposure equity (sizingRiskPct s s.isLive) entry stop))
      (Rounding.toDigits 6 (grossExposure equity (sizingRiskPct s s.isLive) entry stop / entry))
      (Rounding.toDigits 2 (riskBudget equity (sizingRiskPct s s.isLive))) with
  | error e =>
    rw [hsized] at hsizing
    cases hsizing
  | ok sized =>
    rw [hsized] at hsizing
    have hamount := validated_ok hsized
    cases hsizing
    exact ⟨hamount ▸ sized.amount_pos, by rw [← hamount]⟩

lemma notional_returned (h : SizedByRisk s (some entry) (some stop) (some equity))
    (hamount : 1 / 200 < grossExposure equity (sizingRiskPct s s.isLive) entry stop)
    (hquantity : 1 / 2000000 < grossExposure equity (sizingRiskPct s s.isLive) entry stop / entry)
    (hrisk : 1 / 200 < riskBudget equity (sizingRiskPct s s.isLive)) :
    ∃ sizing, riskBasedProposalNotional s (some entry) (some stop) (some equity) = .ok sizing := by
  obtain ⟨hauto, hentry, hstop, hne, hequity⟩ := h
  simp only [Option.getD_some] at hentry hstop hne hequity
  rw [riskBasedProposalNotional, if_neg (not_not.mpr hauto)]
  simp only [Option.getD_some]
  rw [if_neg (by simp [not_or, hentry, hstop, hne, hequity])]
  cases hsized : calculatePositionSize equity (sizingRiskPct s s.isLive) entry stop 1 with
  | ok sized => exact ⟨_, rfl⟩
  | error e =>
    have hnotPositive : e = .notPositive := by
      rw [calculatePositionSize_eq hequity hentry hstop hne, validated] at hsized
      split_ifs at hsized
      exact (Except.error.inj hsized).symm
    rw [hnotPositive] at hsized
    rcases (calculatePositionSize_raises_iff hequity hentry hstop hne).mp hsized with hzero | hzero | hzero <;> linarith

lemma passesRiskCheck_iff (hequity : 0 < equity) {amount : ℚ} :
    PassesRiskCheck s entry stop equity amount ↔
      amount * stopDistancePct entry stop ≤ riskBudget equity (riskCap s (contextMode s)) := by
  rw [PassesRiskCheck, riskPctOfBalance, estimateRiskAmount, ← stopDistancePct, Nat.cast_one, mul_one,
    div_mul_eq_mul_div, div_le_iff₀ hequity, riskBudget]
  constructor <;> intro h <;> linarith

lemma grossExposure_mul (hentry : 0 < entry) (hne : entry ≠ stop) :
    grossExposure equity riskPct entry stop * stopDistancePct entry stop = riskBudget equity riskPct :=
  div_mul_cancel₀ _ (stopDistancePct_pos hentry hne).ne'

/-- The amount exceeds the exact exposure by half a cent at most, so the headroom absorbs the rounding. -/
lemma amount_le_exposure {raw cap : ℚ} :
    Rounding.toDigits 2 (min (Rounding.toDigits 2 raw) cap) ≤ raw + 1 / 200 := by
  have hround := (abs_le.mp (Rounding.abs_toDigits_sub_le 2 raw)).2
  calc
    Rounding.toDigits 2 (min (Rounding.toDigits 2 raw) cap) ≤ Rounding.toDigits 2 (Rounding.toDigits 2 raw) :=
      Rounding.toDigits_mono 2 (min_le_left _ _)
    _ = Rounding.toDigits 2 raw := Rounding.toDigits_toDigits 2 raw
    _ ≤ raw + 1 / 200 := by linarith

lemma passes_of_amount {amount : ℚ} (hentry : 0 < entry) (hne : entry ≠ stop) (hequity : 0 < equity)
    (hcap : s.maxRiskPerTradePct ≠ 0) (hheadroom : HeadroomHolds s entry stop equity)
    (hamount : amount ≤ grossExposure equity (sizingRiskPct s s.isLive) entry stop + 1 / 200) :
    PassesRiskCheck s entry stop equity amount := by
  have hrisk := mul_le_mul_of_nonneg_right hamount (stopDistancePct_pos hentry hne).le
  rw [add_mul, grossExposure_mul hentry hne] at hrisk
  rw [passesRiskCheck_iff hequity, riskCap_eq hcap]
  rw [HeadroomHolds] at hheadroom
  calc
    amount * stopDistancePct entry stop ≤
        riskBudget equity (sizingRiskPct s s.isLive) + 1 / 200 * stopDistancePct entry stop := hrisk
    _ ≤ riskBudget equity (sizingRiskPct s s.isLive) +
        riskBudget equity (effectiveMaxRiskPerTradePct s s.isLive - sizingRiskPct s s.isLive) := by linarith
    _ = riskBudget equity (effectiveMaxRiskPerTradePct s s.isLive) := by
      rw [riskBudget, riskBudget, riskBudget]
      ring

/-- Without risk-based sizing, or without an entry, stop and equity it can size from, the flat default is
returned as it is. Otherwise a notional that is returned stays within the cap to the cent, is positive
where the cap is, and passes the gate's per-trade risk check; and one is returned where the amount, the quantity
and the risk budget do not round to zero. -/
theorem notional_within_gate (s : RiskSettings) :
    (∀ entryPrice stopPrice equityUsd, ¬ SizedByRisk s entryPrice stopPrice equityUsd →
      ∃ missing, riskBasedProposalNotional s entryPrice stopPrice equityUsd =
        .ok ⟨flatAmount s, .flatDefault missing⟩) ∧
    (∀ entry stop equity sizing, SizedByRisk s (some entry) (some stop) (some equity) →
      HeadroomHolds s entry stop equity →
        riskBasedProposalNotional s (some entry) (some stop) (some equity) = .ok sizing →
          sizing.amountUsd ≤ Rounding.toDigits 2 (notionalCap s) ∧
            (1 / 200 < notionalCap s → 0 < sizing.amountUsd) ∧
              (s.maxRiskPerTradePct ≠ 0 → PassesRiskCheck s entry stop equity sizing.amountUsd)) ∧
    ∀ entry stop equity, SizedByRisk s (some entry) (some stop) (some equity) →
      1 / 200 < grossExposure equity (sizingRiskPct s s.isLive) entry stop →
        1 / 2000000 < grossExposure equity (sizingRiskPct s s.isLive) entry stop / entry →
          1 / 200 < riskBudget equity (sizingRiskPct s s.isLive) →
            ∃ sizing, riskBasedProposalNotional s (some entry) (some stop) (some equity) = .ok sizing := by
  refine ⟨fun entryPrice stopPrice equityUsd h => notional_flat h, ?_,
    fun entry stop equity h hamount hquantity hrisk => notional_returned h hamount hquantity hrisk⟩
  intro entry stop equity sizing hsized hheadroom hsizing
  obtain ⟨hpos, hamount⟩ := notional_risk_based hsized hsizing
  obtain ⟨_, hentry, _, hne, hequity⟩ := hsized
  refine ⟨?_, ?_, ?_⟩
  · rw [hamount]
    exact Rounding.toDigits_mono 2 (min_le_right _ _)
  · intro hcap
    have hcent : (1 : ℚ) / (2 * 10 ^ 2) = 1 / 200 := by norm_num
    have hfull := Rounding.toDigits_toDigits 2 (grossExposure equity (sizingRiskPct s s.isLive) entry stop) ▸ hpos
    rw [Rounding.toDigits_pos_iff, hcent] at hfull
    rw [hamount, Rounding.toDigits_pos_iff, hcent]
    exact lt_min hfull hcap
  · intro hcap
    exact passes_of_amount hentry hne hequity hcap hheadroom (hamount ▸ amount_le_exposure)

def SizedWithinGate (s : RiskSettings) (entry stop equity : ℚ) : Prop :=
  ∃ sizing, riskBasedProposalNotional s (some entry) (some stop) (some equity) = .ok sizing ∧
    0 < sizing.amountUsd ∧ sizing.amountUsd ≤ notionalCap s ∧ PassesRiskCheck s entry stop equity sizing.amountUsd

def riskSized : RiskSettings :=
  { autoProposeRiskBasedSizing := true, defaultTradeAmountUsd := 60000, maxTradeAmountUsd := 60000 }

def amountFor (s : RiskSettings) (entry stop equity : ℚ) : Option ℚ :=
  (riskBasedProposalNotional s (some entry) (some stop) (some equity)).toOption.map Sizing.amountUsd

-- The flat default of $500 with its stop at half the price, on an account of $1,000: a quarter of it at
-- risk. A cap of $500.006 is rounded up, and a cap of zero per cent is one per cent to the sizer alone.
theorem flat_then_refused :
    (¬ ∀ s entry stop equity, 0 < entry → 0 < stop → 0 < equity → HeadroomHolds s entry stop equity →
      SizedWithinGate s entry stop equity) ∧
    amountFor { riskSized with defaultTradeAmountUsd := 500006 / 1000 } 100 98 100000 = some (50001 / 100) ∧
    amountFor { riskSized with maxRiskPerTradePct := 0 } 100 98 100000 = some 49000 ∧
      ¬ PassesRiskCheck { riskSized with maxRiskPerTradePct := 0 } 100 98 100000 49000 := by
  refine ⟨?_, by decide +kernel, by decide +kernel, ?_⟩
  · intro hall
    obtain ⟨sizing, hsizing, _, _, hpasses⟩ := hall {} 100 50 1000 (by norm_num) (by norm_num) (by norm_num)
      (by rw [HeadroomHolds]; decide +kernel)
    cases hsizing
    rw [passesRiskCheck_iff (by norm_num)] at hpasses
    exact absurd hpasses (by decide +kernel)
  · rw [passesRiskCheck_iff (by norm_num)]
    decide +kernel

-- One per cent of $100,000 less the headroom, over a stop of two per cent: $49,000.
theorem notional_within_gate_sized : PassesRiskCheck riskSized 100 98 100000 49000 := by
  have hsized : SizedByRisk riskSized (some 100) (some 98) (some 100000) := by
    refine ⟨rfl, ?_, ?_, ?_, ?_⟩ <;> decide +kernel
  have hheadroom : HeadroomHolds riskSized 100 98 100000 := by
    rw [HeadroomHolds]
    decide +kernel
  have hvalue : amountFor riskSized 100 98 100000 = some 49000 := by decide +kernel
  rw [amountFor] at hvalue
  cases hsizing : riskBasedProposalNotional riskSized (some 100) (some 98) (some 100000) with
  | error e =>
    rw [hsizing] at hvalue
    cases hvalue
  | ok sizing =>
    rw [hsizing] at hvalue
    have hamount : sizing.amountUsd = 49000 := Option.some.inj hvalue
    have hpasses := ((notional_within_gate riskSized).2.1 100 98 100000 sizing hsized hheadroom hsizing).2.2
    exact hamount ▸ hpasses (by decide +kernel)

end Sizing

end AlgoTrader.Risk
