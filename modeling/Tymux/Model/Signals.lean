import Mathlib.Data.List.AList

/-!
# Signals to the child of a pane

`signal_then_kill` of `pane.rs` with its escalation thread, the exit path of the reader thread and
`respawn_with`, at the granularity of the single loads and stores of `pid`, `exited` and
`generation`. The reader starts at the end of a respawn, and a respawn only after the reader has
published `exited`, so the two are one sequence of stages. What the operating system decides (the
pid of a new process, whether a signal is delivered) and whether the grace period is over are
arguments of the events.
-/

set_option autoImplicit false

namespace Tymux.Model

/-- The process a pane started last. -/
structure ChildProcess where
  pid : ℕ
  /-- `waitpid` has returned for it. -/
  reaped : Bool
  deriving DecidableEq, Repr

/-- How far the reader thread is, or the respawn after it.
SRC: pane.rs:613-648, pane.rs:663-713 -/
inductive ChildStage where
  | running
  /-- `wait` has returned. -/
  | waited
  /-- `pid` is 0. -/
  | cleared
  /-- `exited` is published. -/
  | exited
  /-- `start_process` has returned. -/
  | spawned
  /-- `pid` is the new one. -/
  | stored
  /-- `generation` is incremented. -/
  | bumped
  /-- `exited` is false again; the reader is yet to start. -/
  | reset
  deriving DecidableEq, Repr

/-- A call of `signal_then_kill`, then its escalation thread: what they have read, and which
operation is next.
SRC: pane.rs:851-896 -/
inductive SignalPhase where
  /-- `pid` is loaded, `kill` is next. -/
  | loaded (pid : ℕ)
  /-- `is_exited` is next. -/
  | signalled (pid : ℕ)
  /-- The load of the generation is next, then the thread starts. -/
  | unexited (pid : ℕ)
  /-- The loop of the thread: `exited` is next, or the deadline has passed. -/
  | polling (pid thisGeneration : ℕ)
  /-- The loop of the thread: the generation is next. -/
  | polledExited (pid thisGeneration : ℕ)
  /-- Past the deadline: `exited` is next. -/
  | expired (pid thisGeneration : ℕ)
  /-- Past the deadline: the generation is next. -/
  | expiredExited (pid thisGeneration : ℕ)
  /-- Past the deadline: `live_pid` is next. -/
  | expiredGeneration (pid : ℕ)
  /-- `kill` with SIGKILL is next. -/
  | confirmed (pid : ℕ)
  deriving DecidableEq, Repr

structure SignalState where
  child : ChildProcess
  stage : ChildStage
  pid : ℕ
  exited : Bool
  generation : ℕ
  calls : AList fun _ : ℕ => SignalPhase

inductive SignalEvent where
  | waitpid
  | clearPid
  | publishExited
  | startProcess (pid : ℕ)
  | storePid
  | bumpGeneration
  | clearExited
  | startReader
  | signalThenKill (call : ℕ)
  /-- The next operation of a call or of its thread. -/
  | next (call : ℕ) (delivered deadline : Bool)
  deriving DecidableEq, Repr

/-- What follows the next operation; `none` is the return.
SRC: pane.rs:859-893 -/
def SignalPhase.next (s : SignalState) (delivered deadline : Bool) : SignalPhase → Option SignalPhase
  | .loaded pid => if delivered then some (.signalled pid) else none
  | .signalled pid => if s.exited then none else some (.unexited pid)
  | .unexited pid => some (.polling pid s.generation)
  | .polling pid thisGeneration =>
    if deadline then some (.expired pid thisGeneration)
    else if s.exited then none
    else some (.polledExited pid thisGeneration)
  | .polledExited pid thisGeneration =>
    if s.generation ≠ thisGeneration then none else some (.polling pid thisGeneration)
  | .expired pid thisGeneration =>
    if s.exited then none else some (.expiredExited pid thisGeneration)
  | .expiredExited pid thisGeneration =>
    if s.generation = thisGeneration then some (.expiredGeneration pid) else none
  | .expiredGeneration pid => if s.pid = pid then some (.confirmed pid) else none
  | .confirmed _ => none

/-- The pid the next operation passes to `kill`, if it is a `kill`. -/
def SignalPhase.target : SignalPhase → Option ℕ
  | .loaded pid | .confirmed pid => some pid
  | _ => none

namespace SignalState

/-- A pane with its first process. -/
def init (pid : ℕ) : SignalState where
  child := ⟨pid, false⟩
  stage := .running
  pid := pid
  exited := false
  generation := 0
  calls := ∅

def setCall (s : SignalState) (call : ℕ) : Option SignalPhase → SignalState
  | some phase => { s with calls := s.calls.insert call phase }
  | none => { s with calls := s.calls.erase call }

/-- SRC: pane.rs:619-641, pane.rs:668-711, pane.rs:852-893 -/
def step (s : SignalState) : SignalEvent → Option SignalState
  | .waitpid =>
    if s.stage = .running then some { s with stage := .waited, child := ⟨s.child.pid, true⟩ } else none
  | .clearPid => if s.stage = .waited then some { s with stage := .cleared, pid := 0 } else none
  | .publishExited =>
    if s.stage = .cleared then some { s with stage := .exited, exited := true } else none
  | .startProcess pid =>
    if s.stage = .exited then some { s with stage := .spawned, child := ⟨pid, false⟩ } else none
  | .storePid =>
    if s.stage = .spawned then some { s with stage := .stored, pid := s.child.pid } else none
  | .bumpGeneration =>
    if s.stage = .stored then some { s with stage := .bumped, generation := s.generation + 1 }
    else none
  | .clearExited =>
    if s.stage = .bumped then some { s with stage := .reset, exited := false } else none
  | .startReader => if s.stage = .reset then some { s with stage := .running } else none
  | .signalThenKill call =>
    if call ∈ s.calls then none
    else if s.pid = 0 then some s
    else some (s.setCall call (some (.loaded s.pid)))
  | .next call delivered deadline =>
    (s.calls.lookup call).map fun phase => s.setCall call (phase.next s delivered deadline)

/-- The pid that an event passes to `kill`. -/
def killed (s : SignalState) : SignalEvent → Option ℕ
  | .next call _ _ => (s.calls.lookup call).bind SignalPhase.target
  | _ => none

end SignalState

end Tymux.Model
