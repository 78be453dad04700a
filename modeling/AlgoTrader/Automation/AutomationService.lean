import AlgoTrader.Utils.Time
import Mathlib.Data.Rat.Defs
import Mathlib.Algebra.Order.Ring.Rat

/-! The runtime controls of the automation (``app/automation/service.py``): what is stored, what it
blocks, and which values each call stores, in the order it stores them. -/

namespace AlgoTrader.Automation

open Utils.Time

structure ControlSettings where
  killSwitchEnabled : Bool := false
  automationPausedDefault : Bool := false
  expectedAccountNumber : String := ""
  executionMode : String := "paper"
  requireApproval : Bool := true
  enableRealTrading : Bool := false
  paperTradingEnabled : Bool := true
  institutionalControlsEnabled : Bool := false
  microLiveMaxRiskPct : ℚ := 1
  liveOperatorAcknowledgement : String := ""

def operatorAcknowledgement : String := "I accept real-money risk on this account"

-- ``paused`` and ``accountVerified`` are none until they are first stored.
structure RuntimeState where
  paused : Option Bool := none
  killSwitch : Bool := false
  reason : String := ""
  updatedAt : Option Timestamp := none
  circuitReason : String := ""
  accountVerified : Option Bool := none
  deriving DecidableEq

inductive Write
  | paused (value : Bool)
  | killSwitch (value : Bool)
  | reason (text : String)
  | updatedAt (now : Timestamp)
  | circuitReason (text : String)
  | accountVerified (value : Bool)
  deriving DecidableEq

inductive ControlCall
  | pause (reason : String)
  | resume (reason : String)
  | enableKillSwitch (reason : String) (emergencyStop : Bool)
  | tripCircuitBreaker (reason : String) (emergencyStop : Bool)
  | clearCircuitBreaker
  | setAccountVerified (verified : Bool)
  deriving DecidableEq

namespace RuntimeState

def set (state : RuntimeState) : Write → RuntimeState
  | .paused value => { state with paused := some value }
  | .killSwitch value => { state with killSwitch := value }
  | .reason text => { state with reason := text }
  | .updatedAt now => { state with updatedAt := some now }
  | .circuitReason text => { state with circuitReason := text }
  | .accountVerified value => { state with accountVerified := some value }

def setAll (state : RuntimeState) (writes : List Write) : RuntimeState := writes.foldl set state

end RuntimeState

section Blockers

variable (settings : ControlSettings) (state : RuntimeState)

def isPaused : Bool := state.paused.getD settings.automationPausedDefault

def killSwitchEnabled : Bool := settings.killSwitchEnabled || state.killSwitch

def scanBlockers : List String :=
  (if killSwitchEnabled settings state then ["automation_kill_switch_enabled"] else []) ++
  (if isPaused settings state then ["automation_paused"] else [])

def goLiveGuardBlockers (ready : Bool) : List String :=
  let maxRisk := if settings.microLiveMaxRiskPct = 0 then 1 else settings.microLiveMaxRiskPct
  (if ready then [] else ["go_live_readiness_not_met"]) ++
  (if settings.institutionalControlsEnabled = false then ["micro_live_risk_cap_not_active"]
    else if 1 / 10 < maxRisk then ["micro_live_risk_cap_above_0_1_pct"]
    else []) ++
  (if settings.liveOperatorAcknowledgement = operatorAcknowledgement then []
    else ["live_operator_acknowledgement_missing"])

/-- ``ready`` tells whether the cached go-live report is ready and fresh. -/
def executionBlockers (ready : Bool) : List String :=
  scanBlockers settings state ++
  (if state.circuitReason = "" then [] else ["circuit_breaker:" ++ state.circuitReason]) ++
  (if settings.expectedAccountNumber ≠ "" ∧ state.accountVerified ≠ some true then
    ["alpaca_account_not_verified"] else []) ++
  (if settings.executionMode = "live" then
    (if settings.requireApproval then [] else ["approval_required_must_remain_enabled"]) ++
    (if settings.enableRealTrading then [] else ["enable_real_trading_false"]) ++
    (if settings.paperTradingEnabled then ["paper_trading_enabled_in_live_mode"] else []) ++
    goLiveGuardBlockers settings ready
  else [])

def automationBlockers (ready : Bool) : List String :=
  if settings.killSwitchEnabled then
    (executionBlockers settings state ready).filter (· ≠ "automation_kill_switch_enabled")
  else executionBlockers settings state ready

end Blockers

def setState (paused : Bool) (killSwitch : Option Bool) (reason : String) (now : Timestamp) : List Write :=
  .paused paused :: (killSwitch.map Write.killSwitch).toList ++ [.reason reason, .updatedAt now]

def orDefault (reason fallback : String) : String := if reason = "" then fallback else reason

namespace ControlCall

def writes (now : Timestamp) : ControlCall → List Write
  | .pause reason => setState true none (orDefault reason "paused manually") now
  | .resume reason => setState false (some false) (orDefault reason "resumed manually") now
  | .enableKillSwitch reason _ => setState true (some true) (orDefault reason "kill switch enabled") now
  | .tripCircuitBreaker reason _ =>
    .circuitReason reason :: setState true (some true) ("circuit breaker: " ++ reason) now
  | .clearCircuitBreaker => [.circuitReason ""]
  | .setAccountVerified verified => [.accountVerified verified]

/-- The call ends with the emergency stop, which cancels the open orders of every broker and, where
that is allowed, closes the positions. -/
def stopsBrokers : ControlCall → Bool
  | .enableKillSwitch _ emergencyStop => emergencyStop
  | .tripCircuitBreaker _ emergencyStop => emergencyStop
  | _ => false

end ControlCall

lemma automationBlockers_of_killSwitch {settings : ControlSettings} {state : RuntimeState}
    (hsetting : settings.killSwitchEnabled = false) (hstored : state.killSwitch = true) (ready : Bool) :
    automationBlockers settings state ready ≠ [] := by
  simp [automationBlockers, executionBlockers, scanBlockers, killSwitchEnabled, hsetting, hstored]

end AlgoTrader.Automation
