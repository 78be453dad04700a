import AlgoTrader.Automation.AutomationService
import AlgoTrader.Lib.Runs
import AlgoTrader.Lib.Text
import Mathlib.Logic.Function.Basic

/-! The recovery from a tripped circuit breaker (``app/automation/auto_recover.py``) among the calls
that stop and resume the automation. An attempt reads the state, probes, clears the breaker and
resumes; a call of the automation service is one step. -/

namespace AlgoTrader.Automation

open Utils.Time

structure RecoverSettings extends ControlSettings where
  autoRecoverCircuitBreaker : Bool := false
  probeIntervalSeconds : ℕ := 600
  maxResumesPerDay : ℕ := 3

-- Who makes a call: a person, the reconciliation the recovery probes with, or another part of the
-- program (the portfolio limits, the other broker's reconciliation, the broker comparison).
inductive Source
  | operator
  | reconciliation
  | automation
  deriving DecidableEq

structure Stop where
  source : Source
  serial : ℕ
  deriving DecidableEq

inductive Probe
  | raised
  | clean
  | blocked (trip : Option String)
  deriving DecidableEq

inductive Recovery
  | idle
  | probing (breakerReason : String) (resumesToday : ℕ) (date : ℤ) (seen : ℕ)
  | clearing (breakerReason : String) (resumesToday : ℕ) (date : ℤ) (seen : ℕ)
  | resuming (breakerReason : String) (resumesToday : ℕ) (date : ℤ) (seen : ℕ)
  deriving DecidableEq

-- What a recovery clears: the stops that stand, and how many there had been when its probe began.
structure Clearing where
  standing : List Stop
  seen : ℕ
  deriving DecidableEq

def Recovery.seen? : Recovery → Option ℕ
  | .idle => none
  | .probing _ _ _ seen => some seen
  | .clearing _ _ _ seen => some seen
  | .resuming _ _ _ seen => some seen

inductive RecoverAction (n : ℕ)
  | control (source : Source) (call : ControlCall)
  | tryAutoRecover (process : Fin n)
  | probed (process : Fin n) (probe : Probe)
  | clear (process : Fin n)
  | resume (process : Fin n)
  | stop (process : Fin n)
  | tick (micros : ℕ)
  deriving DecidableEq

-- The last three fields are no data of the program: how many stops there were, those since the last
-- resume, and what each recovery cleared.
structure RecoverState (n : ℕ) where
  clock : Timestamp := 0
  stored : RuntimeState := {}
  lastProbe : Option Timestamp := none
  resumes : ℤ → ℕ := fun _ => 0
  processes : Fin n → Recovery := fun _ => .idle
  stops : ℕ := 0
  standing : List Stop := []
  cleared : List Clearing := []

def neverResumeMarkers : List String := ["account_mismatch", "alpaca_trading_blocked"]

def neverResumed (breakerReason : String) : Bool :=
  neverResumeMarkers.any fun marker => Text.containsText marker breakerReason

def readsAsBreaker (reason : String) : Bool := "circuit breaker:".toList.isPrefixOf reason.toList

def resumable (breakerReason : String) : Bool := breakerReason ≠ "" ∧ neverResumed breakerReason = false

def recoverable (stored : RuntimeState) : Bool := resumable stored.circuitReason && readsAsBreaker stored.reason

def recoveryOn (settings : RecoverSettings) : Bool :=
  settings.autoRecoverCircuitBreaker = true ∧ settings.executionMode = "paper" ∧
    settings.enableRealTrading = false ∧ settings.killSwitchEnabled = false

def ControlCall.stops : ControlCall → Bool
  | .pause _ => true
  | .enableKillSwitch _ _ => true
  | .tripCircuitBreaker _ _ => true
  | _ => false

-- The callers there are of each call. The recovery's own calls are steps of its attempt.
def ControlCall.madeBy : ControlCall → Source → Bool
  | .pause _, source => source ≠ .reconciliation
  | .tripCircuitBreaker _ _, source => source ≠ .operator
  | .setAccountVerified _, source => source = .automation
  | _, source => source = .operator

namespace RecoverState

variable {n : ℕ} (settings : RecoverSettings) (s : RecoverState n)

def setProcess (process : Fin n) (state : Recovery) : RecoverState n :=
  { s with processes := Function.update s.processes process state }

def store (call : ControlCall) : RecoverState n := { s with stored := s.stored.setAll (call.writes s.clock) }

def noteStop (source : Source) : RecoverState n :=
  { s with stops := s.stops + 1, standing := ⟨source, s.stops⟩ :: s.standing }

def control (source : Source) (call : ControlCall) : RecoverState n :=
  let s' := s.store call
  match call with
  | .resume _ => { s' with standing := [] }
  | .clearCircuitBreaker => s'
  | .setAccountVerified _ => s'
  | _ => s'.noteStop source

def probeDue : Bool :=
  s.lastProbe.all fun last => settings.probeIntervalSeconds * 1000000 ≤ s.clock - last

def resumesToday : ℕ := s.resumes (utcDate s.clock)

def startsProbe : Bool :=
  recoveryOn settings = true ∧ recoverable s.stored = true ∧ s.probeDue settings = true ∧
    s.resumesToday < settings.maxResumesPerDay

def tryAutoRecover (process : Fin n) : RecoverState n :=
  if s.startsProbe settings then
    { s with lastProbe := some s.clock }.setProcess process
      (.probing s.stored.circuitReason s.resumesToday (utcDate s.clock) s.stops)
  else s

def noteCleared (seen : ℕ) : RecoverState n := { s with cleared := ⟨s.standing, seen⟩ :: s.cleared }

def countResume (date : ℤ) (resumesToday : ℕ) : RecoverState n :=
  { s with resumes := Function.update s.resumes date (resumesToday + 1) }

def step (s : RecoverState n) : RecoverAction n → RecoverState n
  | .control source call => if call.madeBy source then s.control source call else s
  | .tryAutoRecover process =>
    match s.processes process with
    | .idle => s.tryAutoRecover settings process
    | _ => s
  | .probed process probe =>
    match s.processes process, probe with
    | .probing reason today date seen, .clean => s.setProcess process (.clearing reason today date seen)
    | .probing _ _ _ _, .blocked (some reason) =>
      (s.control .reconciliation (.tripCircuitBreaker reason true)).setProcess process .idle
    | .probing _ _ _ _, _ => s.setProcess process .idle
    | _, _ => s
  | .clear process =>
    match s.processes process with
    | .clearing reason today date seen =>
      ((s.noteCleared seen).store .clearCircuitBreaker).setProcess process (.resuming reason today date seen)
    | _ => s
  | .resume process =>
    match s.processes process with
    | .resuming reason today date seen =>
      (((s.noteCleared seen).control .automation
        (.resume ("auto-recovered: reconciliation clean after " ++ reason))).countResume date today).setProcess
        process .idle
    | _ => s
  | .stop process => s.setProcess process .idle
  | .tick micros => { s with clock := s.clock + micros }

/-- Every stop that a recovery cleared was a trip of the reconciliation from before its probe. -/
def RespectsOperator (s : RecoverState n) : Prop :=
  ∀ clearing ∈ s.cleared, ∀ stop ∈ clearing.standing, stop.source = .reconciliation ∧ stop.serial < clearing.seen

def NobodyRecovers (s : RecoverState n) : Prop := ∀ process, s.processes process = .idle

/-- The stored reason still tells who stopped the automation: a trip that may be resumed does not
overwrite the stop of anyone but the reconciliation, and no other stop reads as a trip. -/
def ReasonTells (s : RecoverState n) : ControlCall → Prop
  | .tripCircuitBreaker reason _ => resumable reason = true → ∀ stop ∈ s.standing, stop.source = .reconciliation
  | .pause reason => resumable s.stored.circuitReason = true → readsAsBreaker reason = false
  | .enableKillSwitch reason _ => resumable s.stored.circuitReason = true → readsAsBreaker reason = false
  | _ => True

/-- No stop is set during an attempt of the recovery, the stored reason tells who set it, and the
recovery does not probe for a trip that its probe does not check. -/
def Undisturbed (s : RecoverState n) : RecoverAction n → Prop
  | .control source call =>
    recoveryOn settings = true → call.madeBy source = true → call.stops = true →
      s.NobodyRecovers ∧ s.ReasonTells call
  | .tryAutoRecover _ => s.startsProbe settings = true → ∀ stop ∈ s.standing.head?, stop.source ≠ .automation
  | .probed process (.blocked (some _)) => ∀ other, other ≠ process → s.processes other = .idle
  | _ => True

structure Tracked (s : RecoverState n) : Prop where
  serials : ∀ stop ∈ s.standing, stop.serial < s.stops
  tells : recoverable s.stored = true → (∀ stop ∈ s.standing, stop.source = .reconciliation) ∨
    ∃ stop ∈ s.standing.head?, stop.source = .automation
  probed : ∀ process, ∀ seen ∈ (s.processes process).seen?, ∀ stop ∈ s.standing,
    stop.source = .reconciliation ∧ stop.serial < seen
  respects : s.RespectsOperator

variable {settings} {s} {process : Fin n} {state : Recovery} {source : Source} {call : ControlCall}

lemma setProcess_self : (s.setProcess process state).processes process = state := Function.update_self _ _ _

lemma setProcess_other {other : Fin n} (h : other ≠ process) :
    (s.setProcess process state).processes other = s.processes other := Function.update_of_ne h _ _

lemma Tracked.setProcess (h : s.Tracked) (hstate : ∀ seen ∈ state.seen?, ∀ stop ∈ s.standing,
    stop.source = .reconciliation ∧ stop.serial < seen) : (s.setProcess process state).Tracked := by
  refine ⟨h.serials, h.tells, ?_, h.respects⟩
  intro other
  by_cases hother : other = process
  · rw [hother, setProcess_self]
    exact hstate
  · rw [setProcess_other hother]
    exact h.probed other

lemma readsAsBreaker_orDefault {reason fallback : String} (hreason : readsAsBreaker reason = false)
    (hfallback : readsAsBreaker fallback = false) : readsAsBreaker (orDefault reason fallback) = false := by
  rw [orDefault]
  split_ifs
  · exact hfallback
  · exact hreason

-- A stop that is no trip leaves a reason that does not read as one, or no breaker to resume.
lemma not_recoverable_of_stop (h : s.ReasonTells call) (hstops : call.stops = true)
    (htrip : ∀ reason stopsBrokers, call ≠ .tripCircuitBreaker reason stopsBrokers) :
    recoverable (s.store call).stored = false := by
  have hstored {reason fallback : String} (hfallback : readsAsBreaker fallback = false)
      (htold : resumable s.stored.circuitReason = true → readsAsBreaker reason = false) :
      (resumable s.stored.circuitReason && readsAsBreaker (orDefault reason fallback)) = false := by
    cases hcircuit : resumable s.stored.circuitReason with
    | false => rfl
    | true => exact readsAsBreaker_orDefault (htold hcircuit) hfallback
  cases call with
  | pause reason => exact hstored (by decide) h
  | enableKillSwitch reason stopsBrokers => exact hstored (by decide) h
  | tripCircuitBreaker reason stopsBrokers => exact absurd rfl (htrip reason stopsBrokers)
  | resume reason => cases hstops
  | clearCircuitBreaker => cases hstops
  | setAccountVerified verified => cases hstops

lemma tells_trip {reason : String} {stopsBrokers : Bool}
    (htells : s.ReasonTells (.tripCircuitBreaker reason stopsBrokers)) (hsource : source ≠ .operator)
    (hrecoverable : recoverable (s.store (.tripCircuitBreaker reason stopsBrokers)).stored = true) :
    (∀ stop ∈ (⟨source, s.stops⟩ :: s.standing : List Stop), stop.source = .reconciliation) ∨ source = .automation := by
  have hresumable : resumable reason = true := by
    rw [recoverable, Bool.and_eq_true] at hrecoverable
    exact hrecoverable.1
  cases source with
  | operator => exact absurd rfl hsource
  | automation => exact Or.inr rfl
  | reconciliation =>
    left
    intro stop hstop
    rcases List.mem_cons.mp hstop with rfl | hstop
    · rfl
    · exact htells hresumable stop hstop

lemma tracked_noteStop (h : s.Tracked) (hidle : s.NobodyRecovers) (hstops : call.stops = true)
    (hmade : call.madeBy source = true) (htells : s.ReasonTells call) : ((s.store call).noteStop source).Tracked := by
  refine ⟨?_, ?_, ?_, h.respects⟩
  · intro stop hstop
    rcases List.mem_cons.mp hstop with rfl | hstop
    · exact Nat.lt_succ_self _
    · exact Nat.lt_succ_of_lt (h.serials stop hstop)
  · intro hrecoverable
    cases call with
    | tripCircuitBreaker reason stopsBrokers =>
      have hsource : source ≠ .operator := by simpa [ControlCall.madeBy] using hmade
      rcases tells_trip htells hsource hrecoverable with hall | hautomation
      · exact Or.inl hall
      · exact Or.inr ⟨_, rfl, hautomation⟩
    | _ =>
      have hnot := not_recoverable_of_stop htells hstops (by simp)
      exact absurd hrecoverable (by rw [Bool.not_eq_true]; exact hnot)
  · intro process seen hseen
    have hprocess : s.processes process = .idle := hidle process
    change seen ∈ (s.processes process).seen? at hseen
    rw [hprocess] at hseen
    cases hseen

lemma tracked_stop (h : s.Tracked) (hidle : s.NobodyRecovers) (hstops : call.stops = true)
    (hmade : call.madeBy source = true) (htells : s.ReasonTells call) : (s.control source call).Tracked := by
  have hnote := tracked_noteStop h hidle hstops hmade htells
  cases call with
  | pause reason => exact hnote
  | enableKillSwitch reason stopsBrokers => exact hnote
  | tripCircuitBreaker reason stopsBrokers => exact hnote
  | resume reason => cases hstops
  | clearCircuitBreaker => cases hstops
  | setAccountVerified verified => cases hstops

lemma tracked_unstop (source : Source) (call : ControlCall) (h : s.Tracked) (hstops : call.stops = false) :
    (s.control source call).Tracked := by
  cases call with
  | resume reason =>
    refine ⟨?_, ?_, ?_, h.respects⟩
    · intro stop hstop
      cases hstop
    · intro _
      left
      intro stop hstop
      cases hstop
    · intro process seen _ stop hstop
      cases hstop
  | clearCircuitBreaker =>
    refine ⟨h.serials, ?_, h.probed, h.respects⟩
    intro hrecoverable
    cases hrecoverable
  | setAccountVerified verified => exact ⟨h.serials, h.tells, h.probed, h.respects⟩
  | pause reason => cases hstops
  | enableKillSwitch reason stopsBrokers => cases hstops
  | tripCircuitBreaker reason stopsBrokers => cases hstops

lemma Tracked.idle (h : s.Tracked) : (s.setProcess process .idle).Tracked := by
  apply h.setProcess
  intro seen hseen
  cases hseen

-- The reconciliation that the recovery probes with may trip the breaker itself.
lemma tracked_probeTrip {seen : ℕ} (h : s.Tracked) (hseen : seen ∈ (s.processes process).seen?)
    (hothers : ∀ other, other ≠ process → s.processes other = .idle) (reason : String) :
    ((s.control .reconciliation (.tripCircuitBreaker reason true)).setProcess process .idle).Tracked := by
  change ((s.setProcess process .idle).control .reconciliation (.tripCircuitBreaker reason true)).Tracked
  apply tracked_stop h.idle
  · intro other
    by_cases hother : other = process
    · rw [hother, setProcess_self]
    · rw [setProcess_other hother]
      exact hothers other hother
  · rfl
  · rfl
  · intro _ stop hstop
    exact (h.probed process seen hseen stop hstop).1

lemma tracked_tryAutoRecover (h : s.Tracked)
    (hstarts : s.startsProbe settings = true → ∀ stop ∈ s.standing.head?, stop.source ≠ .automation) :
    (s.tryAutoRecover settings process).Tracked := by
  rw [tryAutoRecover]
  split_ifs with hprobe
  · have hprobed : ({ s with lastProbe := some s.clock } : RecoverState n).Tracked :=
      ⟨h.serials, h.tells, h.probed, h.respects⟩
    apply hprobed.setProcess
    intro seen hseen stop hstop
    obtain rfl : s.stops = seen := Option.some.inj hseen
    refine ⟨?_, h.serials stop hstop⟩
    have hrecoverable : recoverable s.stored = true := by
      rw [startsProbe, decide_eq_true_eq] at hprobe
      exact hprobe.2.1
    rcases h.tells hrecoverable with hall | ⟨newest, hnewest, hsource⟩
    · exact hall stop hstop
    · exact absurd hsource (hstarts hprobe newest hnewest)
  · exact h

lemma tracked_noteCleared {seen : ℕ} (h : s.Tracked) (hseen : seen ∈ (s.processes process).seen?) :
    (s.noteCleared seen).Tracked := by
  refine ⟨h.serials, h.tells, h.probed, ?_⟩
  intro clearing hclearing
  rcases List.mem_cons.mp hclearing with rfl | hclearing
  · exact h.probed process seen hseen
  · exact h.respects clearing hclearing

lemma Tracked.countResume (h : s.Tracked) (date : ℤ) (today : ℕ) : (s.countResume date today).Tracked :=
  ⟨h.serials, h.tells, h.probed, h.respects⟩

lemma tracked_step (hon : recoveryOn settings = true) (s : RecoverState n) (action : RecoverAction n)
    (h : s.Tracked) (hallowed : Undisturbed settings s action) : (step settings s action).Tracked := by
  cases action with
  | control source call =>
    rw [step]
    split_ifs with hmade
    · cases hstops : call.stops with
      | true =>
        obtain ⟨hidle, htells⟩ := hallowed hon hmade hstops
        exact tracked_stop h hidle hstops hmade htells
      | false => exact tracked_unstop source call h hstops
    · exact h
  | tryAutoRecover process =>
    rw [step]
    cases s.processes process with
    | idle => exact tracked_tryAutoRecover h hallowed
    | _ => exact h
  | probed process probe =>
    cases hprocess : s.processes process with
    | probing reason today date seen =>
      have hseen : seen ∈ (s.processes process).seen? := by
        rw [hprocess]
        rfl
      cases probe with
      | clean =>
        simp only [step, hprocess]
        apply h.setProcess
        intro other hother
        obtain rfl : seen = other := Option.some.inj hother
        exact h.probed process seen hseen
      | raised =>
        simp only [step, hprocess]
        exact h.idle
      | blocked trip =>
        cases trip with
        | none =>
          simp only [step, hprocess]
          exact h.idle
        | some issue =>
          simp only [step, hprocess]
          exact tracked_probeTrip h hseen hallowed issue
    | _ => simpa only [step, hprocess] using h
  | clear process =>
    rw [step]
    cases hprocess : s.processes process with
    | clearing reason today date seen =>
      have hseen : seen ∈ (s.processes process).seen? := by
        rw [hprocess]
        rfl
      have hcleared := tracked_unstop .operator .clearCircuitBreaker (tracked_noteCleared h hseen) rfl
      apply hcleared.setProcess
      intro other hother
      obtain rfl : seen = other := Option.some.inj hother
      exact h.probed process seen hseen
    | _ => exact h
  | resume process =>
    rw [step]
    cases hprocess : s.processes process with
    | resuming reason today date seen =>
      have hseen : seen ∈ (s.processes process).seen? := by
        rw [hprocess]
        rfl
      have hresumed := tracked_unstop .automation
        (.resume ("auto-recovered: reconciliation clean after " ++ reason)) (tracked_noteCleared h hseen) rfl
      exact (hresumed.countResume date today).idle
    | _ => exact h
  | stop process => exact h.idle
  | tick micros => exact ⟨h.serials, h.tells, h.probed, h.respects⟩

lemma idle_setProcess (h : s.NobodyRecovers) : (s.setProcess process .idle).NobodyRecovers := by
  intro other
  by_cases hother : other = process
  · rw [hother, setProcess_self]
  · rw [setProcess_other hother]
    exact h other

lemma nobody_step (hoff : recoveryOn settings = false) (s : RecoverState n) (action : RecoverAction n)
    (h : s.NobodyRecovers ∧ s.cleared = []) :
    (step settings s action).NobodyRecovers ∧ (step settings s action).cleared = [] := by
  obtain ⟨hidle, hcleared⟩ := h
  cases action with
  | control source call =>
    rw [step]
    split_ifs
    · cases call <;> exact ⟨hidle, hcleared⟩
    · exact ⟨hidle, hcleared⟩
  | tryAutoRecover process =>
    have hnever : s.startsProbe settings = false := by simp [startsProbe, hoff]
    simp only [step, hidle process, tryAutoRecover, hnever]
    exact ⟨hidle, hcleared⟩
  | probed process probe =>
    simp only [step, hidle process]
    exact ⟨hidle, hcleared⟩
  | clear process =>
    simp only [step, hidle process]
    exact ⟨hidle, hcleared⟩
  | resume process =>
    simp only [step, hidle process]
    exact ⟨hidle, hcleared⟩
  | stop process => exact ⟨idle_setProcess hidle, hcleared⟩
  | tick micros => exact ⟨hidle, hcleared⟩

theorem auto_recovery_respects_operator (settings : RecoverSettings) (start : Timestamp)
    {actions : List (RecoverAction n)}
    (h : Runs.Allowed (step settings) (Undisturbed settings) { clock := start } actions) :
    Runs.Always (step settings) RespectsOperator { clock := start } actions := by
  cases hon : recoveryOn settings with
  | true =>
    apply Runs.always_of_allowed (tracked_step hon) (fun _ htracked => htracked.respects) _ h
    refine ⟨?_, ?_, ?_, ?_⟩
    · intro stop hstop
      cases hstop
    · intro hrecoverable
      cases hrecoverable
    · intro process seen hseen
      cases hseen
    · intro clearing hclearing
      cases hclearing
  | false =>
    apply Runs.always_of_allowed (fun s action hs _ => nobody_step hon s action hs) _ _ h
    · rintro s ⟨_, hcleared⟩ clearing hclearing
      rw [hcleared] at hclearing
      cases hclearing
    · exact ⟨fun _ => rfl, rfl⟩

instance : Decidable s.NobodyRecovers := inferInstanceAs (Decidable (∀ _, _ = _))

instance : ∀ call, Decidable (s.ReasonTells call)
  | .tripCircuitBreaker _ _ => inferInstanceAs (Decidable (_ → ∀ stop ∈ s.standing, _))
  | .pause _ => inferInstanceAs (Decidable (_ → _ = _))
  | .enableKillSwitch _ _ => inferInstanceAs (Decidable (_ → _ = _))
  | .resume _ => isTrue trivial
  | .clearCircuitBreaker => isTrue trivial
  | .setAccountVerified _ => isTrue trivial

instance : ∀ (s : RecoverState n) action, Decidable (Undisturbed settings s action)
  | s, .control _ call => inferInstanceAs (Decidable (_ → _ → _ → s.NobodyRecovers ∧ s.ReasonTells call))
  | s, .tryAutoRecover _ => inferInstanceAs (Decidable (_ → ∀ stop ∈ s.standing.head?, _))
  | s, .probed process (.blocked (some _)) =>
    inferInstanceAs (Decidable (∀ other, other ≠ process → s.processes other = .idle))
  | _, .probed _ (.blocked none) => isTrue trivial
  | _, .probed _ .raised => isTrue trivial
  | _, .probed _ .clean => isTrue trivial
  | _, .clear _ => isTrue trivial
  | _, .resume _ => isTrue trivial
  | _, .stop _ => isTrue trivial
  | _, .tick _ => isTrue trivial

private def recovering : RecoverSettings where
  autoRecoverCircuitBreaker := true

private def attempt (process : Fin 1) : List (RecoverAction 1) :=
  [.probed process .clean, .clear process, .resume process]

private def tripped : RecoverAction 1 :=
  .control .reconciliation (.tripCircuitBreaker "missing_bracket_protection:GOOGL" true)

theorem auto_recovery_respects_operator_tripped :
    Runs.Always (step recovering) RespectsOperator { clock := 0 } (tripped :: .tryAutoRecover 0 :: attempt 0) :=
  auto_recovery_respects_operator recovering 0 (by decide +kernel)

-- The operator sets the kill switch while the recovery probes.
theorem recovery_clears_kill_switch :
    ¬ ∀ actions : List (RecoverAction 1), Runs.Always (step recovering) RespectsOperator { clock := 0 } actions := by
  intro h
  have hlast := (h (tripped :: .tryAutoRecover 0 :: .control .operator (.enableKillSwitch "operator stop" true) ::
    attempt 0)).last ⟨[⟨.operator, 1⟩, ⟨.reconciliation, 0⟩], 1⟩ (by decide +kernel) ⟨.operator, 1⟩ (by decide)
  cases hlast.1

end RecoverState

end AlgoTrader.Automation
