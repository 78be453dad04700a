import AlgoTrader.Automation.AutomationService
import AlgoTrader.Lib.Runs
import Mathlib.Logic.Function.Basic

/-! The kill switch against the workers of the execution queue. Each stored value of a control call
is one step, and so are a worker's reading of the blockers, its validation with the quote, its risk
check and each of its calls to a broker. What the other checks object to is left to the run. -/

namespace AlgoTrader.Automation

open Utils.Time

inductive Route
  | primary
  | trader
  | selfSimulated
  | simulatedFallback
  | liveMirror
  | parallel
  deriving DecidableEq

/-- How far a call has come. A worker has claimed its row, read the blockers, passed the validation,
or is to send its orders; a controller has values left to store. -/
inductive Actor
  | idle
  | storing (writes : List Write) (stopsBrokers : Bool)
  | claimed
  | gated (blockers : List String)
  | validated
  | sending (routes : List Route)
  deriving DecidableEq

-- What the validation finds: reasons against the order, or an account that is not the expected one.
inductive Finding
  | reasons (reasons : List String)
  | accountMismatch (expected actual : String)
  deriving DecidableEq

inductive SwitchAction (n : ℕ)
  | call (actor : Fin n) (call : ControlCall)
  | store (actor : Fin n)
  | emergencyStop (actor : Fin n)
  | processQueueItem (actor : Fin n)
  | readBlockers (actor : Fin n) (ready : Bool)
  | validate (actor : Fin n) (finding : Finding)
  | assessRisk (actor : Fin n) (reasons : List String) (routes : List Route)
  | submit (actor : Fin n)
  | leave (actor : Fin n)
  | tick (micros : ℕ)
  deriving DecidableEq

-- ``killSwitch`` is the stored switch at the moment the order is sent.
structure SentOrder where
  route : Route
  killSwitch : Bool
  deriving DecidableEq

structure SwitchState (n : ℕ) where
  clock : Timestamp := 0
  stored : RuntimeState := {}
  actors : Fin n → Actor := fun _ => .idle
  orders : List SentOrder := []

namespace SwitchState

variable {n : ℕ} (settings : ControlSettings) (s : SwitchState n)

def setActor (actor : Fin n) (state : Actor) : SwitchState n :=
  { s with actors := Function.update s.actors actor state }

def put (write : Write) : SwitchState n := { s with stored := s.stored.set write }

def send (route : Route) : SwitchState n := { s with orders := ⟨route, s.stored.killSwitch⟩ :: s.orders }

def mismatchWrites (expected actual : String) : List Write :=
  (ControlCall.setAccountVerified false).writes s.clock ++
    (ControlCall.tripCircuitBreaker ("account_mismatch:expected=" ++ expected ++ ":actual=" ++ actual) false).writes
      s.clock

def validate (actor : Fin n) (blockers : List String) : Finding → SwitchState n
  | .reasons reasons => s.setActor actor (if blockers ++ reasons = [] then .validated else .idle)
  | .accountMismatch expected actual => s.setActor actor (.storing (s.mismatchWrites expected actual) false)

def riskReasons (reasons : List String) : List String :=
  if settings.killSwitchEnabled then reasons ++ ["Kill switch is enabled"] else reasons

def step (s : SwitchState n) : SwitchAction n → SwitchState n
  | .call actor call =>
    match s.actors actor with
    | .idle => s.setActor actor (.storing (call.writes s.clock) call.stopsBrokers)
    | _ => s
  | .store actor =>
    match s.actors actor with
    | .storing (write :: rest) stops => (s.put write).setActor actor (.storing rest stops)
    | .storing [] false => s.setActor actor .idle
    | _ => s
  | .emergencyStop actor =>
    match s.actors actor with
    | .storing [] true => s.setActor actor .idle
    | _ => s
  | .processQueueItem actor =>
    match s.actors actor with
    | .idle => s.setActor actor .claimed
    | _ => s
  | .readBlockers actor ready =>
    match s.actors actor with
    | .claimed => s.setActor actor (.gated (automationBlockers settings s.stored ready))
    | _ => s
  | .validate actor finding =>
    match s.actors actor with
    | .gated blockers => s.validate actor blockers finding
    | _ => s
  | .assessRisk actor reasons routes =>
    match s.actors actor with
    | .validated => s.setActor actor (if riskReasons settings reasons = [] then .sending routes else .idle)
    | _ => s
  | .submit actor =>
    match s.actors actor with
    | .sending (route :: rest) => (s.send route).setActor actor (.sending rest)
    | _ => s
  | .leave actor => s.setActor actor .idle
  | .tick micros => { s with clock := s.clock + micros }

def SwitchStored (s : SwitchState n) : Prop := s.stored.killSwitch = true

/-- No order has been sent with the switch stored as on, and as long as it stays stored none will be. -/
structure Stopped (s : SwitchState n) : Prop where
  sent : ∀ order ∈ s.orders, order.killSwitch = false
  pending : s.SwitchStored → ∀ later, Runs.Always (step settings) SwitchStored s later →
    (Runs.run (step settings) s later).orders = s.orders

def canStillSend : Actor → Bool
  | .gated blockers => blockers = [] ∧ settings.killSwitchEnabled = false
  | .validated => settings.killSwitchEnabled = false
  | .sending routes => routes ≠ []
  | _ => false

def storesSwitch (s : SwitchState n) : SwitchAction n → Bool
  | .store actor =>
    match s.actors actor with
    | .storing (.killSwitch true :: _) _ => true
    | _ => false
  | _ => false

/-- The switch is not stored while a worker is past its reading of the blockers. -/
def NobodyPastGate (s : SwitchState n) (action : SwitchAction n) : Prop :=
  s.storesSwitch action = true → ∀ actor, canStillSend settings (s.actors actor) = false

variable {settings} {s} {actor other : Fin n} {state : Actor}

lemma setActor_self : (s.setActor actor state).actors actor = state := Function.update_self _ _ _

lemma setActor_other (h : other ≠ actor) : (s.setActor actor state).actors other = s.actors other :=
  Function.update_of_ne h _ _

def Quiet (settings : ControlSettings) (s : SwitchState n) : Prop :=
  ∀ actor, canStillSend settings (s.actors actor) = false

lemma Quiet.setActor (h : Quiet settings s) (hstate : canStillSend settings state = false) :
    Quiet settings (s.setActor actor state) := by
  intro other
  by_cases hother : other = actor
  · rw [hother, setActor_self]
    exact hstate
  · rw [setActor_other hother]
    exact h other

lemma riskReasons_ne_nil (h : settings.killSwitchEnabled = true) (reasons : List String) :
    riskReasons settings reasons ≠ [] := by
  simp [riskReasons, h]

lemma canStillSend_readBlockers (hstored : s.SwitchStored) (ready : Bool) :
    canStillSend settings (.gated (automationBlockers settings s.stored ready)) = false := by
  cases hsetting : settings.killSwitchEnabled with
  | true => simp [canStillSend, hsetting]
  | false => simp [canStillSend, automationBlockers_of_killSwitch hsetting hstored]

lemma quiet_validate {blockers : List String} (h : Quiet settings s) (hactor : s.actors actor = .gated blockers)
    (finding : Finding) : Quiet settings (s.validate actor blockers finding) := by
  have hgated := h actor
  rw [hactor] at hgated
  cases finding with
  | reasons reasons =>
    apply h.setActor
    split_ifs with hreasons
    · obtain ⟨rfl, _⟩ := List.append_eq_nil_iff.mp hreasons
      simpa [canStillSend] using hgated
    · rfl
  | accountMismatch expected actual => exact h.setActor rfl

lemma quiet_step (hstored : s.SwitchStored) (h : Quiet settings s) (action : SwitchAction n) :
    Quiet settings (step settings s action) ∧ (step settings s action).orders = s.orders := by
  cases action with
  | call actor call =>
    rw [step]
    cases hactor : s.actors actor with
    | idle => exact ⟨h.setActor rfl, rfl⟩
    | _ => exact ⟨h, rfl⟩
  | store actor =>
    rw [step]
    cases hactor : s.actors actor with
    | storing writes stops =>
      cases writes with
      | nil => cases stops <;> first | exact ⟨h, rfl⟩ | exact ⟨h.setActor rfl, rfl⟩
      | cons write rest => exact ⟨Quiet.setActor (s := s.put write) h rfl, rfl⟩
    | _ => exact ⟨h, rfl⟩
  | emergencyStop actor =>
    rw [step]
    cases hactor : s.actors actor with
    | storing writes stops =>
      cases writes with
      | nil => cases stops <;> first | exact ⟨h, rfl⟩ | exact ⟨h.setActor rfl, rfl⟩
      | cons write rest => exact ⟨h, rfl⟩
    | _ => exact ⟨h, rfl⟩
  | processQueueItem actor =>
    rw [step]
    cases hactor : s.actors actor with
    | idle => exact ⟨h.setActor rfl, rfl⟩
    | _ => exact ⟨h, rfl⟩
  | readBlockers actor ready =>
    rw [step]
    cases hactor : s.actors actor with
    | claimed => exact ⟨h.setActor (canStillSend_readBlockers hstored ready), rfl⟩
    | _ => exact ⟨h, rfl⟩
  | validate actor finding =>
    rw [step]
    cases hactor : s.actors actor with
    | gated blockers =>
      refine ⟨quiet_validate h hactor finding, ?_⟩
      cases finding <;> rfl
    | _ => exact ⟨h, rfl⟩
  | assessRisk actor reasons routes =>
    rw [step]
    cases hactor : s.actors actor with
    | validated =>
      have hvalidated := h actor
      rw [hactor] at hvalidated
      have hsetting : settings.killSwitchEnabled = true := by simpa [canStillSend] using hvalidated
      have hidle : (if riskReasons settings reasons = [] then Actor.sending routes else .idle) = .idle :=
        if_neg (riskReasons_ne_nil hsetting reasons)
      simp only [hidle]
      exact ⟨h.setActor rfl, rfl⟩
    | _ => exact ⟨h, rfl⟩
  | submit actor =>
    rw [step]
    cases hactor : s.actors actor with
    | sending routes =>
      cases routes with
      | nil => exact ⟨h, rfl⟩
      | cons route rest =>
        have hsending := h actor
        rw [hactor] at hsending
        simp [canStillSend] at hsending
    | _ => exact ⟨h, rfl⟩
  | leave actor => exact ⟨h.setActor rfl, rfl⟩
  | tick micros => exact ⟨h, rfl⟩

lemma quiet_run (h : Quiet settings s) (later : List (SwitchAction n))
    (hstored : Runs.Always (step settings) SwitchStored s later) :
    (Runs.run (step settings) s later).orders = s.orders := by
  induction later generalizing s with
  | nil => rfl
  | cons action rest ih =>
    obtain ⟨hquiet, horders⟩ := quiet_step hstored.1 h action
    rw [← horders]
    exact ih hquiet hstored.2

def finishSending (actor : Fin n) : Actor → List (SwitchAction n)
  | .gated _ => [.validate actor (.reasons []), .assessRisk actor [] [.primary], .submit actor]
  | .validated => [.assessRisk actor [] [.primary], .submit actor]
  | _ => [.submit actor]

lemma step_validate_clean (hactor : s.actors actor = .gated []) :
    step settings s (.validate actor (.reasons [])) = s.setActor actor .validated := by
  simp only [step, hactor]
  rfl

lemma step_assessRisk_clean (hsetting : settings.killSwitchEnabled = false) (hactor : s.actors actor = .validated)
    (routes : List Route) :
    step settings s (.assessRisk actor [] routes) = s.setActor actor (.sending routes) := by
  simp [step, hactor, riskReasons, hsetting]

lemma step_submit {route : Route} {rest : List Route} (hactor : s.actors actor = .sending (route :: rest)) :
    step settings s (.submit actor) = (s.send route).setActor actor (.sending rest) := by
  simp only [step, hactor]

lemma sends_of_canStillSend (hstored : s.SwitchStored) (h : canStillSend settings (s.actors actor) = true) :
    Runs.Always (step settings) SwitchStored s (finishSending actor (s.actors actor)) ∧
      (Runs.run (step settings) s (finishSending actor (s.actors actor))).orders ≠ s.orders := by
  cases hactor : s.actors actor with
  | gated blockers =>
    rw [hactor] at h
    obtain ⟨rfl, hsetting⟩ : blockers = [] ∧ settings.killSwitchEnabled = false := by
      simpa [canStillSend] using h
    simp only [finishSending, Runs.Always, Runs.run, List.foldl_cons, List.foldl_nil, step_validate_clean hactor,
      step_assessRisk_clean hsetting setActor_self, step_submit setActor_self]
    exact ⟨⟨hstored, hstored, hstored, hstored⟩, List.cons_ne_self _ _⟩
  | validated =>
    rw [hactor] at h
    have hsetting : settings.killSwitchEnabled = false := by simpa [canStillSend] using h
    simp only [finishSending, Runs.Always, Runs.run, List.foldl_cons, List.foldl_nil,
      step_assessRisk_clean hsetting hactor, step_submit setActor_self]
    exact ⟨⟨hstored, hstored, hstored⟩, List.cons_ne_self _ _⟩
  | sending routes =>
    rw [hactor] at h
    cases routes with
    | nil => simp [canStillSend] at h
    | cons route rest =>
      simp only [finishSending, Runs.Always, Runs.run, List.foldl_cons, List.foldl_nil, step_submit hactor]
      exact ⟨⟨hstored, hstored⟩, List.cons_ne_self _ _⟩
  | idle => simp [hactor, canStillSend] at h
  | storing writes stops => simp [hactor, canStillSend] at h
  | claimed => simp [hactor, canStillSend] at h

lemma stopped_iff : Stopped settings s ↔
    (∀ order ∈ s.orders, order.killSwitch = false) ∧ (s.SwitchStored → Quiet settings s) := by
  constructor
  · rintro ⟨hsent, hpending⟩
    refine ⟨hsent, ?_⟩
    intro hstored actor
    by_contra hcan
    obtain ⟨halways, horders⟩ := sends_of_canStillSend hstored (Bool.not_eq_false _ ▸ hcan)
    exact horders (hpending hstored _ halways)
  · rintro ⟨hsent, hquiet⟩
    exact ⟨hsent, fun hstored later => quiet_run (hquiet hstored) later⟩

lemma step_cases (settings : ControlSettings) (s : SwitchState n) (action : SwitchAction n) :
    ((step settings s action).stored = s.stored ∧ (step settings s action).orders = s.orders) ∨
      (∃ actor write rest stops, action = .store actor ∧ s.actors actor = .storing (write :: rest) stops ∧
        step settings s action = (s.put write).setActor actor (.storing rest stops)) ∨
      ∃ actor route rest, action = .submit actor ∧ s.actors actor = .sending (route :: rest) ∧
        step settings s action = (s.send route).setActor actor (.sending rest) := by
  cases action with
  | store actor =>
    rw [step]
    cases hactor : s.actors actor with
    | storing writes stops =>
      cases writes with
      | nil => cases stops <;> exact Or.inl ⟨rfl, rfl⟩
      | cons write rest => exact Or.inr (Or.inl ⟨actor, write, rest, stops, rfl, hactor, rfl⟩)
    | _ => exact Or.inl ⟨rfl, rfl⟩
  | submit actor =>
    rw [step]
    cases hactor : s.actors actor with
    | sending routes =>
      cases routes with
      | nil => exact Or.inl ⟨rfl, rfl⟩
      | cons route rest => exact Or.inr (Or.inr ⟨actor, route, rest, rfl, hactor, rfl⟩)
    | _ => exact Or.inl ⟨rfl, rfl⟩
  | validate actor finding =>
    rw [step]
    cases s.actors actor with
    | gated blockers => cases finding <;> exact Or.inl ⟨rfl, rfl⟩
    | _ => exact Or.inl ⟨rfl, rfl⟩
  | emergencyStop actor =>
    rw [step]
    cases s.actors actor with
    | storing writes stops => cases writes <;> cases stops <;> exact Or.inl ⟨rfl, rfl⟩
    | _ => exact Or.inl ⟨rfl, rfl⟩
  | call actor call => rw [step]; cases s.actors actor <;> exact Or.inl ⟨rfl, rfl⟩
  | processQueueItem actor => rw [step]; cases s.actors actor <;> exact Or.inl ⟨rfl, rfl⟩
  | readBlockers actor ready => rw [step]; cases s.actors actor <;> exact Or.inl ⟨rfl, rfl⟩
  | assessRisk actor reasons routes => rw [step]; cases s.actors actor <;> exact Or.inl ⟨rfl, rfl⟩
  | leave actor => exact Or.inl ⟨rfl, rfl⟩
  | tick micros => exact Or.inl ⟨rfl, rfl⟩

lemma killSwitch_step (settings : ControlSettings) (hoff : s.stored.killSwitch = false) (action : SwitchAction n)
    (h : s.storesSwitch action = false) : (step settings s action).stored.killSwitch = false := by
  rcases step_cases settings s action with ⟨hstored, _⟩ | ⟨actor, write, rest, stops, rfl, hactor, hput⟩ |
    ⟨actor, route, rest, _, _, hsend⟩
  · rw [hstored]
    exact hoff
  · rw [hput]
    rw [storesSwitch, hactor] at h
    cases write with
    | killSwitch value =>
      cases value with
      | true => cases h
      | false => rfl
    | _ => exact hoff
  · rw [hsend]
    exact hoff

lemma sent_step (settings : ControlSettings) (hoff : s.stored.killSwitch = false)
    (h : ∀ order ∈ s.orders, order.killSwitch = false) (action : SwitchAction n) :
    ∀ order ∈ (step settings s action).orders, order.killSwitch = false := by
  rcases step_cases settings s action with ⟨_, horders⟩ | ⟨actor, write, rest, stops, _, _, hput⟩ |
    ⟨actor, route, rest, _, _, hsend⟩
  · rw [horders]
    exact h
  · rw [hput]
    exact h
  · rw [hsend]
    intro order horder
    rcases List.mem_cons.mp horder with rfl | horder
    · exact hoff
    · exact h order horder

lemma storing_of_storesSwitch {action : SwitchAction n} (h : s.storesSwitch action = true) :
    ∃ actor rest stops, action = .store actor ∧ s.actors actor = .storing (.killSwitch true :: rest) stops := by
  cases action with
  | store actor =>
    rw [storesSwitch] at h
    cases hactor : s.actors actor with
    | storing writes stops =>
      rw [hactor] at h
      cases writes with
      | nil => cases h
      | cons write rest =>
        cases write with
        | killSwitch value =>
          cases value with
          | true => exact ⟨actor, rest, stops, rfl, hactor⟩
          | false => cases h
        | _ => cases h
    | _ => simp [hactor] at h
  | _ => cases h

lemma quiet_store_iff (settings : ControlSettings) {rest : List Write} {stops : Bool}
    (hactor : s.actors actor = .storing (.killSwitch true :: rest) stops) :
    Quiet settings (step settings s (.store actor)) ↔ Quiet settings s := by
  have hstep : step settings s (.store actor) =
      (s.put (.killSwitch true)).setActor actor (.storing rest stops) := by
    simp only [step, hactor]
  rw [hstep]
  constructor
  · intro h other
    by_cases hother : other = actor
    · rw [hother, hactor]
      rfl
    · have hkept := h other
      rwa [setActor_other hother] at hkept
  · intro h
    exact Quiet.setActor (s := s.put (.killSwitch true)) h rfl

lemma stopped_step_iff (settings : ControlSettings) (s : SwitchState n) (action : SwitchAction n)
    (h : Stopped settings s) : Stopped settings (step settings s action) ↔ NobodyPastGate settings s action := by
  obtain ⟨hsent, hquiet⟩ := stopped_iff.mp h
  rw [stopped_iff]
  cases hstored : s.stored.killSwitch with
  | true =>
    obtain ⟨hnext, horders⟩ := quiet_step hstored (hquiet hstored) action
    exact iff_of_true ⟨horders ▸ hsent, fun _ => hnext⟩ fun _ => hquiet hstored
  | false =>
    have hsent' := sent_step settings hstored hsent action
    cases hswitch : s.storesSwitch action with
    | true =>
      obtain ⟨actor, rest, stops, rfl, hactor⟩ := storing_of_storesSwitch hswitch
      have hon : (step settings s (.store actor)).SwitchStored := by
        simp only [step, hactor]
        rfl
      have hiff := quiet_store_iff settings hactor
      constructor
      · intro hstop _
        exact hiff.mp (hstop.2 hon)
      · intro hgate
        exact ⟨hsent', fun _ => hiff.mpr (hgate hswitch)⟩
    | false =>
      have hoff := killSwitch_step settings hstored action hswitch
      refine iff_of_true ⟨hsent', ?_⟩ ?_
      · intro hon
        rw [SwitchStored, hoff] at hon
        cases hon
      · intro hstore
        rw [hswitch] at hstore
        cases hstore

theorem kill_switch_stops_orders (settings : ControlSettings) (clock : Timestamp) (stored : RuntimeState)
    (actions : List (SwitchAction n)) :
    Runs.Always (step settings) (Stopped settings) { clock := clock, stored := stored } actions ↔
      Runs.Allowed (step settings) (NobodyPastGate settings) { clock := clock, stored := stored } actions := by
  apply Runs.always_iff_of_step (stopped_step_iff settings)
  refine stopped_iff.mpr ⟨?_, ?_⟩
  · intro order horder
    cases horder
  · intro _ actor
    rfl

-- The switch is stored while the worker waits for its quote, and the emergency stop returns.
private def switchedDuringQuote (worker operator : Fin 2) : List (SwitchAction 2) :=
  [.processQueueItem worker, .readBlockers worker true, .call operator (.enableKillSwitch "" true), .store operator,
    .store operator, .store operator, .store operator, .emergencyStop operator, .validate worker (.reasons []),
    .assessRisk worker [] [.primary], .submit worker]

theorem order_after_kill_switch :
    ¬ ∀ actions : List (SwitchAction 2), Runs.Always (step {}) (Stopped {}) {} actions := by
  intro h
  have hsent := (h (switchedDuringQuote 0 1)).last.sent ⟨.primary, true⟩ (by decide +kernel)
  cases hsent

end SwitchState

end AlgoTrader.Automation
