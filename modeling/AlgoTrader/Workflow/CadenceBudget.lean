import AlgoTrader.Lib.Runs
import AlgoTrader.Utils.Time
import Mathlib.Data.Rat.Floor
import Mathlib.Logic.Function.Basic

/-! The workflow lock (``app/workflow/cadence_budget.py``): one stamp in the runtime state, which runs
take and release by reads and writes of their own. -/

namespace AlgoTrader.Workflow.CadenceBudget

open AlgoTrader.Utils.Time

structure LockSettings where
  workflowLockTimeoutMinutes : ℤ := 45
  premarketDeepScanEnabled : Bool := false
  schedulerJobTimeoutSeconds : ℚ := 240
  schedulerOverlapGraceSeconds : ℚ := 120

def staleLockMinutes (s : LockSettings) (task : String) : ℤ :=
  let default := max s.workflowLockTimeoutMinutes 1
  if task = "premarket_scan" ∧ s.premarketDeepScanEnabled then
    let timeout := if s.schedulerJobTimeoutSeconds = 0 then 240 else s.schedulerJobTimeoutSeconds
    let waited := timeout + max s.schedulerOverlapGraceSeconds 0
    min default (⌈waited / 60⌉ + 1)
  else default

def staleAfter (s : LockSettings) (task : String) : ℤ := staleLockMinutes s task * microsPerMinute

/-- The text of the lock. ``empty`` is also a row that is not there; a ``stamp`` has a time zone. -/
inductive LockText where
  | empty
  | unreadable
  | naive (time : Timestamp)
  | stamp (time : Timestamp)
deriving DecidableEq

def lockTime (strict : Bool) : LockText → Option Timestamp
  | .empty => none
  | .unreadable => none
  | .naive time => if strict then none else some time
  | .stamp time => some time

def keeps (stamp : Timestamp) (current : LockText) : Bool :=
  current ≠ .stamp stamp && current ≠ .empty && (lockTime true current).isSome

/-- Where a run is between its calls to the store and to the clock. A release whose read failed has
seen nothing. -/
inductive Stage where
  | idle
  | read (seen : LockText)
  | free (seen : LockText)
  | stamped (seen : LockText) (stamp : Timestamp)
  | holding (stamp : Timestamp)
  | releasing (stamp : Timestamp) (seen : Option LockText)
  | ended
deriving DecidableEq

namespace Stage

def held : Stage → Option Timestamp
  | .holding stamp => some stamp
  | .releasing stamp _ => some stamp
  | _ => none

def stamp : Stage → Option Timestamp
  | .stamped _ stamp => some stamp
  | stage => stage.held

def passed : Stage → Option LockText
  | .free seen => some seen
  | .stamped seen _ => some seen
  | _ => none

end Stage

/-- ``owner`` is the run that wrote the stored stamp, ``stolen`` that a release cleared the stamp of
another run that held the lock. -/
structure State where
  clock : Timestamp
  stored : LockText
  runs : ℕ → Stage := fun _ => .idle
  owner : Option ℕ := none
  stolen : Bool := false

inductive Event where
  | pass (micros : ℕ)
  | read (run : ℕ)
  | check (run : ℕ)
  | stamp (run : ℕ)
  | write (run : ℕ)
  | readBack (run : ℕ) (ok : Bool)
  | clear (run : ℕ)
  | crash (run : ℕ)

namespace State

def start (clock : Timestamp) (stored : LockText) : State := { clock := clock, stored := stored }

variable (wait : ℤ) (w : State)

def set (run : ℕ) (stage : Stage) : State := { w with runs := Function.update w.runs run stage }

def fresh (stamp : Timestamp) : Prop := w.clock - stamp < wait

instance (stamp : Timestamp) : Decidable (w.fresh wait stamp) := inferInstanceAs (Decidable (_ < _))

def check (run : ℕ) : State :=
  match w.runs run with
  | .read seen =>
      w.set run (if (lockTime false seen).any fun startedAt => w.clock - startedAt < wait then .ended else .free seen)
  | _ => w

def write (run : ℕ) : State :=
  match w.runs run with
  | .stamped _ stamp => { w.set run (.holding stamp) with stored := .stamp stamp, owner := some run }
  | _ => w

def clear (run : ℕ) : State :=
  match w.runs run with
  | .releasing stamp seen =>
      if seen.any (keeps stamp) then w.set run .ended
      else
        { w.set run .ended with
          stored := .empty
          owner := none
          stolen := w.stolen || w.owner.any fun owner => owner ≠ run && (w.runs owner).held.isSome }
  | _ => w

def step : Event → State
  | .pass micros => { w with clock := w.clock + micros }
  | .read run => if w.runs run = .idle then w.set run (.read w.stored) else w
  | .check run => w.check wait run
  | .stamp run =>
      match w.runs run with
      | .free seen => w.set run (.stamped seen w.clock)
      | _ => w
  | .write run => w.write run
  | .readBack run ok =>
      match w.runs run with
      | .holding stamp => w.set run (.releasing stamp (if ok then some w.stored else none))
      | _ => w
  | .clear run => w.clear run
  | .crash run => w.set run .ended

end State

end AlgoTrader.Workflow.CadenceBudget
