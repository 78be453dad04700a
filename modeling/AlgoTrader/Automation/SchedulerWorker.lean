import AlgoTrader.Lib.Runs
import Mathlib.Data.Int.Order.Basic
import Mathlib.Logic.Function.Basic

/-! The scheduler worker (``app/automation/scheduler_worker.py``): loop threads that go through one list
of jobs, the threads their jobs run on, and the watchdog that puts a fresh loop beside a hung one. -/

namespace AlgoTrader.Automation.Scheduler

/-- Instants and lengths of time are in microseconds. Every job is built with an interval of a second or more. -/
structure ScheduledJob where
  name : String
  interval : ℕ
  timeout : Option ℤ := none

structure Settings where
  jobs : List ScheduledJob
  overlapGrace : ℤ := 120000000
  selfHealEnabled : Bool := true
  staleRestart : ℤ := 300000000
  defaultJobTimeout : Option ℤ := none

/-- One execution of a job. ``tick`` is the ``now`` of the cycle that ran it; ``abandonedAt`` is set when it
overruns its timeout, ``finishedBefore`` to the number of executions begun when its function came back. -/
structure Execution where
  tick : ℤ := 0
  startedAt : ℤ := 0
  active : Bool := false
  abandonedAt : Option ℤ := none
  finishedBefore : Option ℕ := none

/-- ``runs`` are the executions of the job in the order they began, the first ``started`` of them. -/
structure JobState where
  lastRunAt : Option ℤ := none
  overrun : Option (ℕ × ℤ) := none
  runs : ℕ → Execution := fun _ => {}
  started : ℕ := 0

namespace JobState

variable (js : JobState)

def isDue (interval : ℕ) (now : ℤ) : Bool := js.lastRunAt.all fun last => (interval : ℤ) ≤ now - last

def previousRunAlive (grace : ℤ) (now : ℤ) : Bool :=
  js.overrun.any fun overrun => (js.runs overrun.1).active && now - overrun.2 < grace

def forgetOverrun : JobState := { js with overrun := none }

def launch (now clock : ℤ) : JobState :=
  { js with
    runs := Function.update js.runs js.started { tick := now, startedAt := clock, active := true }
    started := js.started + 1 }

def finish (run : ℕ) : JobState :=
  { js with
    runs := Function.update js.runs run { js.runs run with active := false, finishedBefore := some js.started } }

def settle (now : ℤ) : JobState := { js with lastRunAt := some now }

def abandon (grace : ℤ) (now clock : ℤ) (run : ℕ) : JobState :=
  { js with
    lastRunAt := some now
    overrun := if 0 < grace then some (run, clock) else js.overrun
    runs := Function.update js.runs run { js.runs run with abandonedAt := some clock } }

end JobState

/-- Where a loop thread is: in a cycle it looks at one job after the other (``ticking``), has found one that
is to run (``picked``) or is inside ``_invoke_job`` (``calling``). -/
inductive Stage where
  | starting
  | waiting
  | ticking (now : ℤ) (position : ℕ)
  | picked (now : ℤ) (position : ℕ)
  | calling (now : ℤ) (position run : ℕ)
  | ended

/-- How a cycle goes on after a job: to the next one, aborted by an error, or with its thread dying. -/
inductive Ending where
  | next
  | abort
  | die

def Ending.stage (now : ℤ) (position : ℕ) : Ending → Stage
  | .next => .ticking now (position + 1)
  | .abort => .waiting
  | .die => .ended

def Stage.leave (dies : Bool) : Stage → Stage
  | .calling now position run => .calling now position run
  | .ended => .ended
  | .starting => if dies then .ended else .starting
  | _ => if dies then .ended else .waiting

/-- Loop threads are told apart by their generation. -/
structure Worker where
  clock : ℤ
  stopped : Bool := false
  generation : ℕ := 0
  heartbeat : ℤ := 0
  loops : ℕ → Stage := fun _ => .ended
  jobs : ℕ → JobState := fun _ => {}

inductive Event where
  | pass (micros : ℕ)
  | start
  | stop
  | ensureAlive
  | advance (loop : ℕ)
  | finish (position run : ℕ)
  | settle (loop : ℕ) (ending : Ending)
  | timeout (loop : ℕ) (ending : Ending)
  | leave (loop : ℕ) (dies : Bool)

namespace Worker

variable (s : Settings) (w : Worker)

def setLoop (loop : ℕ) (stage : Stage) : Worker := { w with loops := Function.update w.loops loop stage }

def setJob (position : ℕ) (js : JobState) : Worker := { w with jobs := Function.update w.jobs position js }

def beat : Worker := { w with heartbeat := w.clock }

def alive : Bool :=
  match w.loops w.generation with
  | .ended => false
  | _ => true

def spawn : Worker :=
  { w with
    generation := w.generation + 1
    heartbeat := w.clock
    loops := Function.update w.loops (w.generation + 1) .starting }

def ensureAlive : Worker :=
  if w.stopped ∨ w.generation = 0 then w
  else if w.alive ∧ ¬ (s.selfHealEnabled ∧ s.staleRestart < w.clock - w.heartbeat) then w
  else w.spawn

def picks (now : ℤ) (position : ℕ) : Bool :=
  s.jobs[position]?.any fun job =>
    (w.jobs position).isDue job.interval now && !(w.jobs position).previousRunAlive s.overlapGrace now

def consider (loop : ℕ) (now : ℤ) (position : ℕ) : Worker :=
  if s.jobs.length ≤ position then w.beat.setLoop loop .waiting
  else if w.picks s now position then
    (w.setJob position (w.jobs position).forgetOverrun).setLoop loop (.picked now position)
  else w.setLoop loop (.ticking now (position + 1))

def advance (loop : ℕ) : Worker :=
  match w.loops loop with
  | .starting => w.beat.setLoop loop .waiting
  | .waiting =>
      if w.stopped ∨ w.generation ≠ loop then w.setLoop loop .ended else w.setLoop loop (.ticking w.clock 0)
  | .ticking now position => w.consider s loop now position
  | .picked now position =>
      (w.beat.setJob position ((w.jobs position).launch now w.clock)).setLoop loop
        (.calling now position (w.jobs position).started)
  | .calling _ _ _ => w
  | .ended => w

def jobTimeout (position : ℕ) : Option ℤ :=
  match s.jobs[position]? with
  | none => none
  | some job => (job.timeout.filter (· ≠ 0)).orElse (fun _ => s.defaultJobTimeout) |>.filter (0 < ·)

def timeout (loop : ℕ) (ending : Ending) : Worker :=
  match w.loops loop with
  | .calling now position run =>
      let js := w.jobs position
      if (js.runs run).active ∧ (jobTimeout s position).any (· ≤ w.clock - (js.runs run).startedAt) then
        (w.setJob position (js.abandon s.overlapGrace now w.clock run)).setLoop loop (ending.stage now position)
      else w
  | _ => w

def settle (loop : ℕ) (ending : Ending) : Worker :=
  match w.loops loop with
  | .calling now position run =>
      let js := w.jobs position
      if (js.runs run).active then w
      else (w.setJob position (js.settle now)).setLoop loop (ending.stage now position)
  | _ => w

def step : Event → Worker
  | .pass micros => { w with clock := w.clock + micros }
  | .start => if w.alive then w else { w with stopped := false }.spawn
  | .stop => { w with stopped := true }
  | .ensureAlive => w.ensureAlive s
  | .advance loop => w.advance s loop
  | .finish position run =>
      if ((w.jobs position).runs run).active then w.setJob position ((w.jobs position).finish run) else w
  | .settle loop ending => w.settle loop ending
  | .timeout loop ending => w.timeout s loop ending
  | .leave loop dies => w.setLoop loop ((w.loops loop).leave dies)

end Worker

end AlgoTrader.Automation.Scheduler
