import Mathlib.Algebra.Order.Ring.Rat
import Mathlib.Algebra.Order.Field.Rat

/-! The drawdown governor (``app/risk/volatility_target.py``). -/

namespace AlgoTrader.Risk

def drawdownGovernorMultiplier (drawdownPct softPct hardPct floor : ℚ) : ℚ :=
  let dd := |drawdownPct|
  let soft := |softPct|
  let hard := |hardPct|
  let floor := min (max floor 0) 1
  if dd ≤ soft then 1
  else if hard ≤ soft ∨ hard ≤ dd then floor
  else
    let span := hard - soft
    let scaled := 1 - (dd - soft) / span * (1 - floor)
    min (max scaled floor) 1

def dailyDrawdownPct (dailyRealizedPnlUsd equityUsd : ℚ) : ℚ :=
  if equityUsd ≤ 0 then 0 else -(min 0 dailyRealizedPnlUsd) / equityUsd * 100

lemma drawdownGovernorMultiplier_nonneg (drawdownPct softPct hardPct floor : ℚ) :
    0 ≤ drawdownGovernorMultiplier drawdownPct softPct hardPct floor := by
  have hfloor : 0 ≤ min (max floor 0) 1 := le_min (le_max_right floor 0) zero_le_one
  simp only [drawdownGovernorMultiplier]
  split_ifs
  · exact zero_le_one
  · exact hfloor
  · exact le_min (hfloor.trans (le_max_right _ _)) zero_le_one

end AlgoTrader.Risk
