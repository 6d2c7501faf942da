import Tymux.Model.Supervision

/-!
# The supervisor task

`spawn_supervisor` of `main.rs`: it runs what is due, sleeps until the next restart is, and is woken
early through a `Notify`, which stores one permit when nobody waits. Any other task can run an
operation of the supervision at any time, `run_due` among them (`wait_for_restart`), and what these
operations say to the `Notify` is `wakes`. The wait for the timer and the wait for the permit end
each for itself; a permit that loses the race is kept.

`lastTick` is the clock reading of the last run; no step reads it.
-/

set_option autoImplicit false

namespace Tymux.Model

namespace Supervision

section

variable (delayMs : RestartPolicy → ℕ → F64 → ℕ)

/-- Whether `account_exit` comes as far as its `notify_one`.
SRC: supervision.rs:181-199 -/
def accountExitWakes (w : Supervision) (a : ℕ) (p : Pane) : Bool :=
  (w.entry p.id).any fun e => e.pane = some a

/-- Whether an operation notifies the supervisor task.
SRC: supervision.rs:163-199, 322-435 -/
def wakes (w : Supervision) : Event → Bool
  | .reader a _ _ _ =>
    (w.paneAt a).any fun p => p.reader = .checked true && w.accountExitWakes a p
  -- `install_hook` accounts for an exit that the reader has gone past
  | .registerLive _ a _ _ _ _ => (w.paneAt a).any fun p => p.exitChecked
  | .adoptStarted _ a _ _ _ _ => (w.paneAt a).any fun p => p.exitChecked
  | .setPolicy id policy => (w.setPolicy id policy).2.isOk
  | .stop id kill => (w.stop id kill).2.isOk
  | .restart id resetBackoff kill env =>
    match (w.restart delayMs id resetBackoff kill env).2 with
    | .ok .signaled => true
    | _ => false
  | _ => false

/-- When the restart of a pane is due, if one is pending. -/
def restartAt (w : Supervision) (id : Uuid) : Option ℕ :=
  (w.entry id).bind fun e => if e.sup.restartPending then e.sup.nextRestartAtMs else none

/-- What `run_due` returns. A due restart that it skipped is retried a millisecond later.
SRC: supervision.rs:267-274 -/
def nextDue (w : Supervision) (now : ℕ) : Option ℕ :=
  ((w.entries.keys.filterMap w.restartAt).map fun at_ => max at_ (now + 1)).min?

end

end Supervision

/-- Where the loop of the supervisor task is.
SRC: main.rs:465-486 -/
inductive TaskStage where
  | ticking
  | waiting (nextDue : Option ℕ)
  deriving DecidableEq, Repr

structure SupervisorTask where
  supervision : Supervision
  permit : Bool
  stage : TaskStage
  lastTick : ℕ

namespace SupervisorTask

/-- `other` is an operation of any other task; `now` and `clock` are readings of the clock. -/
inductive Event where
  | other (ev : Supervision.Event)
  | tick (now : ℕ) (due : List (Uuid × RespawnEnv))
  | woken
  | timeout (clock : ℕ)

def init : SupervisorTask where
  supervision := Supervision.init
  permit := false
  stage := .ticking
  lastTick := 0

/-- SRC: main.rs:465-486 -/
def step (delayMs : RestartPolicy → ℕ → F64 → ℕ) (s : SupervisorTask) :
    Event → Option SupervisorTask
  | .other ev => (s.supervision.step delayMs ev).map fun w =>
      { s with supervision := w, permit := s.permit || s.supervision.wakes delayMs ev }
  | .tick now due =>
    if s.stage = .ticking then
      (s.supervision.step delayMs (.runDue now due)).map fun w =>
        { s with supervision := w, stage := .waiting (w.nextDue now), lastTick := now }
    else none
  | .woken =>
    match s.stage with
    | .waiting _ => if s.permit then some { s with permit := false, stage := .ticking } else none
    | .ticking => none
  | .timeout clock =>
    match s.stage with
    | .waiting (some at_) => if at_ ≤ clock then some { s with stage := .ticking } else none
    | _ => none

end SupervisorTask

end Tymux.Model
