import Tymux.Model.LiveLoop
import Tymux.Model.Supervision

/-!
# A supervised pane and the live loop of an attach

What `supervision.rs` does to one pane, write by write: an operation takes the supervision lock,
decides, and then clears or sets `restart_pending`, injects its marker and emits its lifecycle
events one after the other, while the reader thread and the live loop of an attach go on. The exit
hook is installed, and the pane is not closed. An iteration of the loop polls its branches at one
instant, and its receivers never lag.

The times that a marker names are rendered by `seconds`, which stands for the formatting of an `f64`.
The number that a lifecycle event is sent with is not part of it; it tells two of them apart.
`owed`, `said`, `accounted` and `lastWords` record the run; no step reads them.
-/

set_option autoImplicit false

namespace Tymux.Model

/-- SRC: restart.rs:557-570 -/
inductive LifecycleEventKind where
  | exited
  | restartScheduled
  | restarted
  | failed
  | stopped
  deriving DecidableEq, Repr

/-- SRC: restart.rs:572-586 -/
structure LifecycleEvent where
  kind : LifecycleEventKind
  state : LifecycleState
  exitCode : Option ℤ
  exitSignal : Option ℤ
  delayMs : Option ℕ
  nextRestartAtMs : Option ℕ
  pid : Option ℕ
  restartCount : ℕ
  atMs : ℕ
  deriving DecidableEq, Repr

/-- How far the reader thread of the current process is.
SRC: pane.rs:613-647, 695-711 -/
inductive ReaderStage where
  /-- `exited` is cleared, and the thread is yet to start. -/
  | starting
  | running
  /-- The child is reaped: `exit_code` is stored and the pid is cleared. -/
  | reaped
  /-- The hook has been found; it has yet to run, or is running. -/
  | hook
  | accounted
  /-- `exited` is published. -/
  | exited
  deriving DecidableEq, Repr

/-- What is said of a pane to those who watch it. -/
inductive Word where
  | marker (chunk : ℕ × List UInt8)
  | lifecycle (event : ℕ × LifecycleEvent)
  deriving DecidableEq, Repr

namespace Word

/-- How the live loop forwards it. -/
def forwarded : Word → ForwardedEvent (ℕ × LifecycleEvent)
  | marker chunk => .output chunk
  | lifecycle event => .lifecycle event

end Word

/-- One write of an operation that holds the supervision lock. -/
inductive SupervisionAct where
  | setRestartPending (pending : Bool)
  | injectOutput (data : List UInt8)
  | emitLifecycle (event : LifecycleEvent)
  /-- `terminate`; where the signal cannot be delivered, the supervisor is as it was before, and
  the pending flag too if `flag`. -/
  | terminate (kill : Except String Unit) (before : PaneSupervisor) (flag : Bool)
  /-- `respawn_with` clears `exited`, and starts the reader thread of the new process. -/
  | clearExited
  | startReader
  deriving DecidableEq

namespace SupervisionAct

/-- The act says something. -/
def speaks : SupervisionAct → Bool
  | injectOutput _ | emitLifecycle _ => true
  | _ => false

end SupervisionAct

inductive SupervisionOp where
  | accountExit
  | respawn
  | setPolicy
  | stop
  | restart
  deriving DecidableEq, Repr

/-- An operation that holds the supervision lock, with what it has still to do. -/
structure SupervisionTurn where
  op : SupervisionOp
  acts : List SupervisionAct
  /-- The stream was open, and the pane had not come to its end, when the operation began. -/
  owed : Bool
  said : List Word
  deriving DecidableEq

structure LiveStream where
  sup : PaneSupervisor
  reader : ReaderStage
  exitCode : Option ℤ
  lastSignal : Option ℤ
  restartPending : Bool
  outputSeq : ℕ
  /-- How many lifecycle events have been sent. -/
  emitted : ℕ
  turn : Option SupervisionTurn
  /-- The client asked for lifecycle events. -/
  subscribes : Bool
  threshold : ℕ
  outputRx : List (ℕ × List UInt8)
  lifecycleRx : List (ℕ × LifecycleEvent)
  delivered : List (ForwardedEvent (ℕ × LifecycleEvent))
  ended : Bool
  /-- What was said since the exit was accounted for, while it is not published. -/
  accounted : List Word
  /-- What the operations have said that left the pane exited with no restart pending. -/
  lastWords : List Word
  deriving DecidableEq

inductive LiveStreamEvent where
  /-- The process writes to its terminal. -/
  | output (payload : List UInt8)
  /-- The next step of the reader thread outside of the exit hook. -/
  | reader (code : Option ℤ)
  /-- An operation takes the supervision lock. -/
  | accountExit (now : ℕ) (unit : F64)
  | setPolicy (policy : RestartPolicy) (now : ℕ)
  | stop (kill : Except String Unit) (now : ℕ)
  | restart (resetBackoff : Bool) (kill : Except String Unit) (now : ℕ)
      (spawn : Except String (Option ℕ)) (unit : F64)
  | start (now : ℕ) (spawn : Except String (Option ℕ)) (unit : F64)
  | runDue (now : ℕ) (spawn : Except String (Option ℕ)) (unit : F64)
  | resetBudget
  /-- The operation makes its next write, or returns. -/
  | act
  /-- An iteration of the live loop; `due` tells whether the heartbeat is. -/
  | poll (due : Bool)
  | disconnect
  deriving DecidableEq

namespace LiveStream

/-! ## Texts -/

/-- SRC: supervision.rs:27-29 -/
def terminalReset : String :=
  "\x1b[0m\x1b[?1049l\x1b[?25h\x1b[?1000l\x1b[?1002l\x1b[?1003l" ++
    "\x1b[?1006l\x1b[?1004l\x1b[?2004l\x1b[?1l\x1b>"

/-- SRC: supervision.rs:487-493 -/
def describeExit (code signal : Option ℤ) : String :=
  match code, signal with
  | _, some sig => "stopped by signal " ++ toString sig
  | some c, none => "exited with code " ++ toString c
  | none, none => "exited"

/-- SRC: supervision.rs:495-497 -/
def marker (text : String) : List UInt8 :=
  ("\r\n\x1b[2m[tymux: " ++ text ++ "]\x1b[0m\r\n").toUTF8.toList

/-- SRC: supervision.rs:212-219 -/
def banner (pid : Option ℕ) (restartCount : ℕ) : List UInt8 :=
  (terminalReset ++ "\r\n\x1b[2m[tymux: restarted (pid " ++ (pid.map toString).getD "?" ++
    ", restart #" ++ toString restartCount ++ ")]\x1b[0m\r\n").toUTF8.toList

/-- SRC: supervision.rs:465-485 -/
def event (kind : LifecycleEventKind) (sup : PaneSupervisor) (now : ℕ) : LifecycleEvent where
  kind
  state := sup.state
  exitCode := sup.lastExit.bind ExitRecord.code
  exitSignal := sup.lastExit.bind ExitRecord.signal
  delayMs := none
  nextRestartAtMs := sup.nextRestartAtMs
  pid := none
  restartCount := sup.restartCount
  atMs := now

/-! ## The operations -/

section Operations

variable (delayMs : RestartPolicy → ℕ → F64 → ℕ) (seconds : ℕ → ℕ → String)

/-- SRC: supervision.rs:502-546 -/
def announceExit (sup : PaneSupervisor) (kind : ExitKind) (code signal : Option ℤ) (now : ℕ) :
    List SupervisionAct :=
  let what := describeExit code signal
  .emitLifecycle (event .exited sup now) :: match kind with
    | .notRestarted =>
      if sup.policy.mode ≠ .never then
        [.injectOutput (marker ("process " ++ what ++ "; not restarting"))]
      else []
    | .scheduled delay atMs =>
      [.injectOutput (marker ("process " ++ what ++ "; restarting in " ++ seconds 1 delay ++ "s")),
        .emitLifecycle { event .restartScheduled sup now with
          delayMs := some delay, nextRestartAtMs := some atMs }]
    | .manualRestart => [.injectOutput (marker ("process " ++ what ++ "; restarting"))]
    | .failed =>
      [.injectOutput (marker ("process " ++ what ++ "; gave up after " ++
          toString sup.policy.maxRestarts ++ " restarts within " ++ seconds 0 sup.policy.windowMs ++
            "s")),
        .emitLifecycle (event .failed sup now)]
    | .stopped =>
      [.injectOutput (marker ("process " ++ what ++ "; stopped")),
        .emitLifecycle (event .stopped sup now)]

/-- SRC: supervision.rs:549-570 -/
def announceFailedSpawn (sup : PaneSupervisor) (kind : ExitKind) (error : String) (now : ℕ) :
    List SupervisionAct :=
  match kind with
  | .scheduled delay atMs =>
    [.injectOutput (marker ("restart failed (" ++ error ++ "); retrying in " ++ seconds 1 delay ++
        "s")),
      .emitLifecycle { event .restartScheduled sup now with
        delayMs := some delay, nextRestartAtMs := some atMs }]
  | .failed =>
    [.injectOutput (marker ("restart failed (" ++ error ++ "); restart budget exhausted")),
      .emitLifecycle (event .failed sup now)]
  | _ => [.injectOutput (marker ("start failed (" ++ error ++ ")"))]

/-- SRC: pane.rs:796-798 -/
def isExited (s : LiveStream) : Bool := s.reader = .exited

/-- Exited, and nothing will bring it back.
SRC: pane.rs:919-930 -/
def finalExit (s : LiveStream) : Bool := s.isExited && !s.restartPending

/-- The operation has the lock, and makes its writes from now on. -/
def takeTurn (s : LiveStream) (op : SupervisionOp) (sup : PaneSupervisor)
    (acts : List SupervisionAct) : LiveStream :=
  { s with sup, turn := some ⟨op, acts, !s.ended && !s.finalExit, []⟩ }

/-- SRC: supervision.rs:181-199 -/
def accountExit (s : LiveStream) (now : ℕ) (unit : F64) : Option LiveStream :=
  match s.reader with
  | .hook =>
    let (sup, kind) := s.sup.onExit delayMs now s.exitCode s.lastSignal unit
    some (s.takeTurn .accountExit sup
      (announceExit seconds sup kind s.exitCode s.lastSignal now ++
        [.setRestartPending sup.restartPending]))
  | _ => none

/-- SRC: supervision.rs:201-240, pane.rs:663-715 -/
def doRespawn (s : LiveStream) (sup : PaneSupervisor) (automatic : Bool) (now : ℕ)
    (spawn : Except String (Option ℕ)) (unit : F64) : LiveStream :=
  let sup := sup.beginRestart now automatic
  let spawn := if s.isExited then spawn else .error "pane process is still running"
  match spawn with
  | .ok pid =>
    let started := sup.onStarted now
    s.takeTurn .respawn started
      [.clearExited, .injectOutput (banner pid sup.restartCount), .startReader,
        .setRestartPending false, .emitLifecycle { event .restarted started now with pid }]
  | .error message =>
    let (failed, kind) := sup.onSpawnFailed delayMs now unit
    s.takeTurn .respawn failed
      (announceFailedSpawn seconds failed kind message now ++
        [.setRestartPending failed.restartPending])

/-- SRC: supervision.rs:244-266 -/
def runDue (s : LiveStream) (now : ℕ) (spawn : Except String (Option ℕ)) (unit : F64) :
    LiveStream :=
  if s.sup.due now && s.isExited then
    s.doRespawn delayMs seconds s.sup (s.sup.state = .backoff) now spawn unit
  else s

/-- SRC: supervision.rs:322-345 -/
def setPolicy (s : LiveStream) (policy : RestartPolicy) (now : ℕ) : LiveStream :=
  match policy.validate with
  | .error _ => s
  | .ok () =>
    let sup := s.sup.setPolicy policy
    s.takeTurn .setPolicy sup (.setRestartPending sup.restartPending ::
      if s.sup.state = .backoff ∧ sup.state = .exited then
        [.injectOutput (marker "restart cancelled: the restart policy changed"),
          .emitLifecycle (event .exited sup now)]
      else [])

/-- SRC: supervision.rs:347-393 -/
def stop (s : LiveStream) (kill : Except String Unit) (now : ℕ) : LiveStream :=
  let (sup, needsSignal) := s.sup.requestStop
  s.takeTurn .stop sup (.setRestartPending false ::
    if needsSignal then [.terminate kill s.sup true]
    else if s.sup.state = .stopped then []
    else
      [.injectOutput (marker (if s.sup.state = .backoff then
          "stopped; the pending restart is cancelled" else "stopped")),
        .emitLifecycle (event .stopped sup now)])

/-- SRC: supervision.rs:397-434 -/
def restart (s : LiveStream) (resetBackoff : Bool) (kill : Except String Unit) (now : ℕ)
    (spawn : Except String (Option ℕ)) (unit : F64) : LiveStream :=
  let (sup, signaled) := s.sup.requestRestart resetBackoff
  if signaled then s.takeTurn .restart sup [.terminate kill s.sup false]
  else if !s.isExited then
    s.takeTurn .restart (sup.scheduleManualRestartNow now) [.setRestartPending true]
  else s.doRespawn delayMs seconds sup false now spawn unit

/-- SRC: supervision.rs:439-450 -/
def start (s : LiveStream) (now : ℕ) (spawn : Except String (Option ℕ)) (unit : F64) :
    LiveStream :=
  if !s.isExited then s
  else s.doRespawn delayMs seconds s.sup.resetForStart false now spawn unit

/-! ## The writes -/

/-- SRC: pane.rs:781-794 -/
def injectOutput (s : LiveStream) (t : SupervisionTurn) (data : List UInt8) : LiveStream :=
  let chunk := (s.outputSeq + 1, data)
  { s with
    outputSeq := s.outputSeq + 1
    outputRx := if s.ended then s.outputRx else s.outputRx ++ [chunk]
    turn := some { t with said := t.said ++ [.marker chunk] } }

/-- SRC: pane.rs:772-775 -/
def emitLifecycle (s : LiveStream) (t : SupervisionTurn) (event : LifecycleEvent) : LiveStream :=
  let event := (s.emitted, event)
  { s with
    emitted := s.emitted + 1
    lifecycleRx :=
      if s.subscribes ∧ ¬ s.ended then s.lifecycleRx ++ [event] else s.lifecycleRx
    turn := some { t with said := t.said ++ [.lifecycle event] } }

/-- SRC: pane.rs:848-871 -/
def terminate (s : LiveStream) (t : SupervisionTurn) (kill : Except String Unit)
    (before : PaneSupervisor) (flag : Bool) : LiveStream :=
  let s := { s with turn := some t }
  match s.reader with
  | .running =>
    let s := { s with lastSignal := some sigterm }
    match kill with
    | .ok () => s
    | .error _ =>
      { s with
        sup := before
        restartPending := if flag then before.restartPending else s.restartPending }
  | _ => s

/-- The operation returns. What it has said are last words if the pane has come to its end, or comes
to it when the exit is published. -/
def finishTurn (s : LiveStream) (t : SupervisionTurn) : LiveStream :=
  let reader := if t.op = .accountExit then .accounted else s.reader
  let s := { s with reader, turn := none }
  if !t.owed then s
  else if s.finalExit then { s with lastWords := s.lastWords ++ t.said }
  else if reader = .accounted then { s with accounted := s.accounted ++ t.said }
  else s

def act (s : LiveStream) : Option LiveStream :=
  s.turn.map fun t =>
    match t.acts with
    | [] => s.finishTurn t
    | a :: acts =>
      let t := { t with acts }
      match a with
      | .setRestartPending pending => { s with restartPending := pending, turn := some t }
      | .injectOutput data => s.injectOutput t data
      | .emitLifecycle event => s.emitLifecycle t event
      | .terminate kill before flag => s.terminate t kill before flag
      | .clearExited =>
        { s with reader := .starting, exitCode := none, lastSignal := none, turn := some t }
      | .startReader => { s with reader := .running, turn := some t }

/-! ## The reader thread and the live loop -/

/-- SRC: pane.rs:588-598 -/
def output (s : LiveStream) (payload : List UInt8) : Option LiveStream :=
  match s.reader with
  | .running =>
    let chunk := (s.outputSeq + 1, payload)
    some { s with
      outputSeq := s.outputSeq + 1
      outputRx := if payload.isEmpty || s.ended then s.outputRx else s.outputRx ++ [chunk] }
  | _ => none

/-- SRC: pane.rs:613-647 -/
def readerStep (s : LiveStream) (code : Option ℤ) : Option LiveStream :=
  match s.reader with
  | .running => some { s with reader := .reaped, exitCode := code }
  | .reaped => some { s with reader := .hook }
  | .accounted =>
    some { s with
      reader := .exited
      accounted := []
      lastWords := if s.restartPending then s.lastWords else s.lastWords ++ s.accounted }
  | .starting | .hook | .exited => none

/-- SRC: main.rs:1593-1650 -/
def poll (s : LiveStream) (due : Bool) : Option LiveStream :=
  if s.ended then none
  else match s.outputRx with
    | chunk :: outputRx =>
      if chunk.1 ≤ s.threshold then some { s with outputRx }
      else some { s with outputRx, delivered := s.delivered ++ [.output chunk] }
    | [] =>
      match s.lifecycleRx with
      | event :: lifecycleRx =>
        some { s with lifecycleRx, delivered := s.delivered ++ [.lifecycle event] }
      | [] =>
        if s.finalExit then
          some { s with delivered := s.delivered ++ [.exited s.exitCode], ended := true }
        else if due then some { s with delivered := s.delivered ++ [.heartbeat] }
        else some s

/-! ## Runs -/

/-- An operation waits while another one has the lock. -/
def locked (s : LiveStream) (k : LiveStream) : Option LiveStream :=
  if s.turn.isSome then none else some k

def step (s : LiveStream) : LiveStreamEvent → Option LiveStream
  | .output payload => s.output payload
  | .reader code => s.readerStep code
  | .accountExit now unit =>
    if s.turn.isSome then none else s.accountExit delayMs seconds now unit
  | .setPolicy policy now => s.locked (s.setPolicy policy now)
  | .stop kill now => s.locked (s.stop kill now)
  | .restart resetBackoff kill now spawn unit =>
    s.locked (s.restart delayMs seconds resetBackoff kill now spawn unit)
  | .start now spawn unit => s.locked (s.start delayMs seconds now spawn unit)
  | .runDue now spawn unit => s.locked (s.runDue delayMs seconds now spawn unit)
  | .resetBudget => s.locked { s with sup := s.sup.resetBudget }
  | .act => s.act
  | .poll due => s.poll due
  | .disconnect => some { s with ended := true }

end Operations

/-- A live loop that has just gone live, on a pane that no operation is at work on. -/
def attached (sup : PaneSupervisor) (reader : ReaderStage) (exitCode lastSignal : Option ℤ)
    (restartPending : Bool) (outputSeq emitted : ℕ) (subscribes : Bool) : LiveStream where
  sup
  reader
  exitCode
  lastSignal
  restartPending
  outputSeq
  emitted
  turn := none
  subscribes
  threshold := outputSeq
  outputRx := []
  lifecycleRx := []
  delivered := []
  ended := false
  accounted := []
  lastWords := []

end LiveStream

end Tymux.Model
