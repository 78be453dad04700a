import AlgoTrader.Models.Trade
import Mathlib.Algebra.Order.Field.Rat
import Mathlib.Algebra.Order.BigOperators.Group.List
import Mathlib.Algebra.BigOperators.Group.List.Basic
import Mathlib.Tactic.Linarith
import Mathlib.Tactic.Positivity

/-! The per-trade risk check and the heat cap (``app/risk/guardrails.py``, ``app/risk/rules.py``,
``app/risk/volatility_target.py``) on the account context of ``app/risk/context.py``. -/

namespace AlgoTrader.Risk

open AlgoTrader.Models

inductive ExecutionMode where
  | paper
  | live
deriving DecidableEq

inductive PaperBroker where
  | alpaca
  | selfSimulated
deriving DecidableEq

inductive AccountMode where
  | paper
  | demo
  | real
deriving DecidableEq

structure RiskSettings where
  maxRiskPerTradePct : ℚ := 1
  institutionalPortfolioControlsEnabled : Bool := false
  portfolioFutureMaxRiskPerTradePct : ℚ := 1 / 2
  portfolioMicroLiveMaxRiskPerTradePct : ℚ := 1 / 10
  portfolioMaxHeatPct : ℚ := 6
  executionMode : ExecutionMode := .paper
  paperBroker : PaperBroker := .alpaca
  etoroAccountMode : AccountMode := .demo
  paperAccountBalanceUsd : ℚ := 100000
  autoProposeRiskBasedSizing : Bool := false
  defaultTradeAmountUsd : ℚ := 500
  maxTradeAmountUsd : ℚ := 500
deriving DecidableEq

-- ``x or default``.
def orDefault (x default : ℚ) : ℚ := if x = 0 then default else x

def estimateRiskAmount (entryPrice stopLoss amountUsd : ℚ) (leverage : ℕ) : ℚ :=
  amountUsd * leverage * (|entryPrice - stopLoss| / entryPrice)

def tighterCap (s : RiskSettings) (live : Bool) : ℚ :=
  if live then s.portfolioMicroLiveMaxRiskPerTradePct else s.portfolioFutureMaxRiskPerTradePct

def effectiveMaxRiskPerTradePct (s : RiskSettings) (live : Bool) : ℚ :=
  let cap := orDefault s.maxRiskPerTradePct 1
  if s.institutionalPortfolioControlsEnabled then min cap (tighterCap s live) else cap

def sizingHeadroom : ℚ := 98 / 100

def sizingRiskPct (s : RiskSettings) (live : Bool) : ℚ := effectiveMaxRiskPerTradePct s live * sizingHeadroom

def RiskSettings.isLive (s : RiskSettings) : Bool := s.executionMode = .live

structure RiskContext where
  accountBalance : ℚ
  openPositions : ℕ := 0
  openTradeRisksUsd : List ℚ := []
  mode : AccountMode
deriving DecidableEq

def usedHeat (openRisksUsd : List ℚ) : ℚ := (openRisksUsd.map (max · 0)).sum

def portfolioHeatPct (openRisksUsd : List ℚ) (equityUsd : ℚ) : ℚ :=
  if equityUsd ≤ 0 then 0 else usedHeat openRisksUsd / equityUsd * 100

def heatBudgetRemainingUsd (openRisksUsd : List ℚ) (equityUsd maxHeatPct : ℚ) : ℚ :=
  if equityUsd ≤ 0 ∨ maxHeatPct ≤ 0 then 0
  else max (equityUsd * (maxHeatPct / 100) - usedHeat openRisksUsd) 0

def fitsWithinHeat (newRiskUsd : ℚ) (openRisksUsd : List ℚ) (equityUsd maxHeatPct : ℚ) : Bool :=
  max newRiskUsd 0 ≤ heatBudgetRemainingUsd openRisksUsd equityUsd maxHeatPct + 1 / 10 ^ 9

def riskCap (s : RiskSettings) (mode : AccountMode) : ℚ :=
  if s.institutionalPortfolioControlsEnabled then
    min s.maxRiskPerTradePct (tighterCap s (mode = .real || s.isLive))
  else s.maxRiskPerTradePct

inductive RiskReason where
  | stopLossRequired
  | tradeRiskExceeds (riskPct cap : ℚ)
  | heatExceeds (heatPct maxHeatPct : ℚ)
deriving DecidableEq

def riskPctOfBalance (riskAmount : ℚ) (context : RiskContext) : ℚ := riskAmount / context.accountBalance * 100

def riskAt (order : TradeOrder) (stop : ℚ) : ℚ :=
  estimateRiskAmount order.proposedPrice stop order.amountUsd order.leverage

-- The risk part of ``validate_order``.
def riskReasons (s : RiskSettings) (order : TradeOrder) (context : RiskContext) : List RiskReason :=
  match order.stopLoss with
  | none => [.stopLossRequired]
  | some stop =>
      let riskAmount := riskAt order stop
      let riskPct := riskPctOfBalance riskAmount context
      let cap := riskCap s context.mode
      (if cap < riskPct then [.tradeRiskExceeds riskPct cap] else []) ++
      (if 0 < s.portfolioMaxHeatPct ∧
          ¬ fitsWithinHeat riskAmount context.openTradeRisksUsd context.accountBalance s.portfolioMaxHeatPct then
        [.heatExceeds (portfolioHeatPct context.openTradeRisksUsd context.accountBalance) s.portfolioMaxHeatPct]
      else [])

structure Account where
  equity : ℚ
  cashBalance : ℚ
deriving DecidableEq

def accountBalance (account : Account) : ℚ := max (max account.equity account.cashBalance) 1

def RiskSettings.simulatesItself (s : RiskSettings) : Bool :=
  s.executionMode = .paper && s.paperBroker = .selfSimulated

def perPositionRiskUsd (s : RiskSettings) (account : Account) : ℚ :=
  accountBalance account * (effectiveMaxRiskPerTradePct s s.isLive / 100)

def contextMode (s : RiskSettings) : AccountMode := if s.executionMode = .paper then .paper else s.etoroAccountMode

def buildRiskContext (s : RiskSettings) (account : Account) (positions : ℕ) : RiskContext :=
  if s.simulatesItself then { accountBalance := max s.paperAccountBalanceUsd 1, mode := .paper }
  else
    { accountBalance := accountBalance account
      openPositions := positions
      openTradeRisksUsd := List.replicate positions (perPositionRiskUsd s account)
      mode := contextMode s }

section Checks

variable {s : RiskSettings} {order : TradeOrder} {context : RiskContext} {account : Account} {positions : ℕ}

lemma riskPct_le_of_riskReasons {stop : ℚ} (hstop : order.stopLoss = some stop)
    (h : riskReasons s order context = []) : riskPctOfBalance (riskAt order stop) context ≤ riskCap s context.mode := by
  rw [riskReasons, hstop] at h
  by_contra hlt
  have hhead := (List.append_eq_nil_iff.mp h).1
  rw [if_pos (not_le.mp hlt)] at hhead
  cases hhead

lemma stop_of_riskReasons (h : riskReasons s order context = []) : ∃ stop, order.stopLoss = some stop := by
  cases hstop : order.stopLoss with
  | none =>
    rw [riskReasons, hstop] at h
    cases h
  | some stop => exact ⟨stop, rfl⟩

lemma accountBalance_pos : 0 < accountBalance account := lt_of_lt_of_le one_pos (le_max_right _ _)

lemma usedHeat_replicate (n : ℕ) (risk : ℚ) : usedHeat (List.replicate n risk) = n * max risk 0 := by
  rw [usedHeat, List.map_replicate, List.sum_replicate, nsmul_eq_mul]

lemma isLive_of_mode : (contextMode s = .real || s.isLive) = s.isLive := by
  rw [contextMode, RiskSettings.isLive]
  cases s.executionMode <;> simp

lemma mode_build : (buildRiskContext s account positions).mode = contextMode s := by
  rw [buildRiskContext]
  by_cases hself : s.simulatesItself
  · rw [if_pos hself, contextMode, if_pos (of_decide_eq_true (Bool.and_eq_true_iff.mp hself).1)]
  · rw [if_neg hself]

/-- Where a cap is configured, the gate and the sizers read the same one. -/
lemma riskCap_eq (hcap : s.maxRiskPerTradePct ≠ 0) :
    riskCap s (contextMode s) = effectiveMaxRiskPerTradePct s s.isLive := by
  rw [riskCap, isLive_of_mode, effectiveMaxRiskPerTradePct, orDefault, if_neg hcap]

lemma riskCap_le : riskCap s (contextMode s) ≤ effectiveMaxRiskPerTradePct s s.isLive := by
  by_cases hcap : s.maxRiskPerTradePct = 0
  · have hle : s.maxRiskPerTradePct ≤ orDefault s.maxRiskPerTradePct 1 := by
      rw [orDefault, if_pos hcap, hcap]
      exact zero_le_one
    rw [riskCap, isLive_of_mode, effectiveMaxRiskPerTradePct]
    by_cases hcontrols : s.institutionalPortfolioControlsEnabled
    · rw [if_pos hcontrols, if_pos hcontrols]
      exact min_le_min_right _ hle
    · rw [if_neg hcontrols, if_neg hcontrols]
      exact hle
  · exact (riskCap_eq hcap).le

end Checks

end AlgoTrader.Risk
