import Tymux.Model.Restart
import Tymux.Lib.Run
import Mathlib.Data.List.AList

/-!
# Supervision of all panes

`supervision.rs` together with the part of `pane.rs` it drives. The supervision lock is held
for the whole of each operation, so an operation is one step. A pane's reader thread takes
its own steps in between: it reaps the child, looks for the exit hook, runs it (which takes
the supervision lock), and only then publishes `exited`.

`Pane` objects have addresses, since `Entry::is_pane` compares pointers. An `Entry` holds a
`Weak` pointer: `none` is the empty one of a pane restored from disk. The engine keeps a
pane alive as long as its entry, so any other pointer can be upgraded. The outcomes that the
operating system decides (whether a signal can be delivered, whether a process starts) and
all clock readings are arguments. Output markers, lifecycle events, `dirty` and `wake` are
not read by any of these functions and are left out.
-/

set_option autoImplicit false

namespace Tymux.Model

/-- SIGTERM -/
def sigterm : ℤ := 15

/-- How far the reader thread of the current process is.
SRC: pane.rs:613-647 -/
inductive ReaderPhase where
  /-- The child has not been reaped; its pid is known. -/
  | running
  /-- `exit_code` is stored and the pid cleared. -/
  | reaped
  /-- `exit_checked` is set; the flag says whether a hook was found and has yet to run. -/
  | checked (hook : Bool)
  /-- The hook, if any, has run. -/
  | accounted
  /-- `exited` is published. -/
  | exited
  deriving DecidableEq, Repr

/-- The part of `Pane` that supervision reads and writes. `terminated` is a ghost: `terminate`
has returned `Ok` for the current process.
SRC: pane.rs:160-230 -/
structure Pane where
  id : Uuid
  reader : ReaderPhase
  exitCode : Option ℤ
  hook : Bool
  retired : Bool
  restartPending : Bool
  generation : ℕ
  lastSignal : Option ℤ
  terminated : Bool
  deriving DecidableEq, Repr

namespace Pane

/-- A pane whose first process has just been started. -/
def new (id : Uuid) : Pane where
  id := id
  reader := .running
  exitCode := none
  hook := false
  retired := false
  restartPending := false
  generation := 0
  lastSignal := none
  terminated := false

/-- SRC: pane.rs:796-798 -/
def isExited (p : Pane) : Bool := p.reader = .exited

/-- The flag `exit_checked`, which the reader sets when it looks for the hook. -/
def exitChecked (p : Pane) : Bool :=
  match p.reader with
  | .running | .reaped => false
  | _ => true

/-- SIGTERM to the child, or nothing when the reader has already cleared its pid. `kill` is
the answer of `kill(2)`, with `ESRCH` counted as success.
SRC: pane.rs:838-896 -/
def terminate (p : Pane) (kill : Except String Unit) : Pane × Except String Unit :=
  match p.reader with
  | .running =>
    let p := { p with lastSignal := some sigterm }
    match kill with
    | .ok () => ({ p with terminated := true }, .ok ())
    | .error e => (p, .error e)
  | _ => ({ p with terminated := true }, .ok ())

/-- INTERNAL: everything `terminate` can do.
SRC: pane.rs:838-896 -/
theorem terminate_cases (p : Pane) (kill : Except String Unit) :
    (p.reader = .running ∧
      ∃ e, p.terminate kill = ({ p with lastSignal := some sigterm }, .error e)) ∨
    (p.reader = .running ∧
      p.terminate kill = ({ p with lastSignal := some sigterm, terminated := true }, .ok ())) ∨
    (p.reader ≠ .running ∧ p.terminate kill = ({ p with terminated := true }, .ok ())) := by
  unfold terminate
  by_cases hr : p.reader = .running
  · simp only [hr, true_and]
    cases kill with
    | error e => exact Or.inl ⟨e, rfl⟩
    | ok u => exact Or.inr (Or.inl rfl)
  · refine Or.inr (Or.inr ⟨hr, ?_⟩)
    split
    · contradiction
    · rfl

/-- `spawn` is the outcome of `start_process`.
SRC: pane.rs:663-715 -/
def respawnWith (p : Pane) (spawn : Except String Unit) : Pane × Except String Unit :=
  if p.retired then (p, .error "pane was closed")
  else if !p.isExited then (p, .error "pane process is still running")
  else match spawn with
    | .error e => (p, .error e)
    | .ok () =>
      ({ p with
          reader := .running
          exitCode := none
          generation := p.generation + 1
          lastSignal := none
          terminated := false }, .ok ())

end Pane

/-- The `EngineError`s that supervision returns. -/
inductive EngineError where
  | paneNotFound (paneId : Uuid)
  | paneRunning (paneId : Uuid)
  | paneStart (paneId : Uuid) (message : String)
  | invalidRestartPolicy (invalid : RestartPolicy.Invalid)
  deriving DecidableEq, Repr

/-- SRC: supervision.rs:40-48 -/
inductive SignalOutcome where
  | signaled
  | immediate
  deriving DecidableEq, Repr

/-- SRC: supervision.rs:50-54 -/
structure Entry where
  sup : PaneSupervisor
  pane : Option ℕ

/-- `Inner.entries` and the pane objects by address. `spawned` is a ghost: the pane ids of
all processes started so far, newest first. -/
structure Supervision where
  entries : AList fun _ : Uuid => Entry
  panes : AList fun _ : ℕ => Pane
  spawned : List Uuid

/-- What the environment answers to one attempt to start a process: the clock, the outcome
of `start_process` and the jitter sample. -/
structure RespawnEnv where
  now : ℕ
  spawn : Except String Unit
  unit : F64

namespace Supervision

/-- `Supervision::new`: nothing is supervised and no pane exists. -/
def init : Supervision where
  entries := ∅
  panes := ∅
  spawned := []

/-- `entries.get(id)` -/
def entry (w : Supervision) (id : Uuid) : Option Entry := w.entries.lookup id

/-- The pane object at an address. -/
def paneAt (w : Supervision) (a : ℕ) : Option Pane := w.panes.lookup a

def setEntry (w : Supervision) (id : Uuid) (e : Entry) : Supervision :=
  { w with entries := w.entries.insert id e }

def eraseEntry (w : Supervision) (id : Uuid) : Supervision :=
  { w with entries := w.entries.erase id }

def setPane (w : Supervision) (a : ℕ) (p : Pane) : Supervision :=
  { w with panes := w.panes.insert a p }

section Access

variable (w : Supervision) (id id' : Uuid) (e : Entry) (a a' : ℕ) (p : Pane)

@[simp] theorem entry_setEntry_self : (w.setEntry id e).entry id = some e :=
  AList.lookup_insert _

@[simp] theorem entry_setEntry_of_ne {id id' : Uuid} (h : id' ≠ id) :
    (w.setEntry id e).entry id' = w.entry id' :=
  AList.lookup_insert_ne h

@[simp] theorem entry_eraseEntry_self : (w.eraseEntry id).entry id = none :=
  AList.lookup_erase ..

@[simp] theorem entry_eraseEntry_of_ne {id id' : Uuid} (h : id' ≠ id) :
    (w.eraseEntry id).entry id' = w.entry id' :=
  AList.lookup_erase_ne h

@[simp] theorem entry_setPane : (w.setPane a p).entry id = w.entry id := rfl

@[simp] theorem paneAt_setEntry : (w.setEntry id e).paneAt a = w.paneAt a := rfl

@[simp] theorem paneAt_eraseEntry : (w.eraseEntry id).paneAt a = w.paneAt a := rfl

@[simp] theorem paneAt_setPane_self : (w.setPane a p).paneAt a = some p :=
  AList.lookup_insert _

@[simp] theorem paneAt_setPane_of_ne {a a' : ℕ} (h : a' ≠ a) :
    (w.setPane a p).paneAt a' = w.paneAt a' :=
  AList.lookup_insert_ne h

end Access

/-- `entry.pane.upgrade()`, with the address. -/
def upgrade (w : Supervision) (e : Entry) : Option (ℕ × Pane) :=
  e.pane.bind fun a => (w.paneAt a).map (a, ·)

/-- SRC: supervision.rs:60-62 -/
def runningPane (w : Supervision) (e : Entry) : Option (ℕ × Pane) :=
  (w.upgrade e).filter fun ap => !ap.2.isExited

/-- SRC: supervision.rs:286-293 -/
def stateOf (w : Supervision) (id : Uuid) : Option LifecycleState :=
  (w.entry id).map fun e => e.sup.state

section Transitions

variable (delayMs : RestartPolicy → ℕ → F64 → ℕ)

/-! ## Exits -/

/-- SRC: supervision.rs:181-199 -/
def accountExit (w : Supervision) (a : ℕ) (p : Pane) (code : Option ℤ) (now : ℕ) (unit : F64) :
    Supervision :=
  match w.entry p.id with
  | none => w
  | some e =>
    if e.pane ≠ some a then w else
      let sup := (e.sup.onExit delayMs now code p.lastSignal unit).1
      (w.setEntry p.id { e with sup := sup }).setPane a
        { p with restartPending := sup.restartPending }

/-- The reader thread's steps at the end of a process; `none` when it is elsewhere.
SRC: pane.rs:613-647 -/
def readerStep (w : Supervision) (a : ℕ) (code : Option ℤ) (now : ℕ) (unit : F64) :
    Option Supervision :=
  (w.paneAt a).bind fun p =>
    match p.reader with
    | .running => some (w.setPane a { p with reader := .reaped, exitCode := code })
    | .reaped => some (w.setPane a { p with reader := .checked p.hook })
    | .checked true =>
      let w := w.accountExit delayMs a p p.exitCode now unit
      (w.paneAt a).map fun p => w.setPane a { p with reader := .accounted }
    | .checked false => some (w.setPane a { p with reader := .accounted })
    | .accounted => some (w.setPane a { p with reader := .exited })
    | .exited => none

/-! ## Registration -/

/-- SRC: supervision.rs:163-173 -/
def installHook (w : Supervision) (a : ℕ) (now : ℕ) (unit : F64) : Supervision :=
  match w.paneAt a with
  | none => w
  | some p =>
    let p := { p with hook := true }
    let w := w.setPane a p
    if p.exitChecked then w.accountExit delayMs a p p.exitCode now unit else w

/-- `now` is read before the lock, `hookNow` by `install_hook`. A pane is handed over once,
right after it was spawned.
SRC: supervision.rs:100-114 -/
def registerLive (w : Supervision) (a : ℕ) (policy : RestartPolicy) (now hookNow : ℕ)
    (unit : F64) : Option Supervision :=
  (w.paneAt a).bind fun p =>
    if p.hook then none else
      let sup := (PaneSupervisor.new policy).onStarted now
      some ((w.setEntry p.id ⟨sup, some a⟩).installHook delayMs a hookNow unit)

/-- SRC: supervision.rs:116-134 -/
def registerRestored (w : Supervision) (id : Uuid) (persisted : Option PersistedRestartState)
    (defaultPolicy : RestartPolicy) : Supervision :=
  let sup := match persisted with
    | some p => PaneSupervisor.restore p
    | none => PaneSupervisor.new defaultPolicy
  w.setEntry id ⟨sup, none⟩

/-- SRC: supervision.rs:136-151 -/
def adoptStarted (w : Supervision) (a : ℕ) (fallbackPolicy : RestartPolicy) (now hookNow : ℕ)
    (unit : F64) : Option Supervision :=
  (w.paneAt a).bind fun p =>
    if p.hook then none else
      let entry := (w.entry p.id).getD ⟨PaneSupervisor.new fallbackPolicy, none⟩
      let sup := entry.sup.resetForStart.onStarted now
      some ((w.setEntry p.id ⟨sup, some a⟩).installHook delayMs a hookNow unit)

/-- SRC: supervision.rs:153-163, pane.rs:717-722 -/
def forget (w : Supervision) (id : Uuid) : Supervision :=
  match w.entry id with
  | none => w
  | some e =>
    let w' := w.eraseEntry id
    match w.upgrade e with
    | none => w'
    | some (a, p) => w'.setPane a { p with retired := true, restartPending := false }

/-! ## Restarts -/

/-- SRC: supervision.rs:201-240 -/
def doRespawn (w : Supervision) (id : Uuid) (e : Entry) (automatic : Bool) (env : RespawnEnv) :
    Supervision × Except EngineError Unit :=
  match w.upgrade e with
  | none => (w, .error (.paneNotFound 0))
  | some (a, p) =>
    if p.retired then (w, .error (.paneNotFound p.id)) else
      let sup := e.sup.beginRestart env.now automatic
      match p.respawnWith env.spawn with
      | (p, .ok ()) =>
        let w := (w.setEntry id { e with sup := sup.onStarted env.now }).setPane a
          { p with restartPending := false }
        ({ w with spawned := p.id :: w.spawned }, .ok ())
      | (p, .error message) =>
        let sup := (sup.onSpawnFailed delayMs env.now env.unit).1
        ((w.setEntry id { e with sup := sup }).setPane a
          { p with restartPending := sup.restartPending }, .error (.paneStart p.id message))

/-- The filter of `run_due`.
SRC: supervision.rs:248-256 -/
def isDue (w : Supervision) (now : ℕ) (id : Uuid) : Bool :=
  match w.entry id with
  | none => false
  | some e => e.sup.due now && (w.upgrade e).any fun ap => ap.2.isExited

/-- The loop of `run_due` over the ids it collected.
SRC: supervision.rs:257-266 -/
def runDueLoop (w : Supervision) : List (Uuid × RespawnEnv) → Supervision
  | [] => w
  | (id, env) :: rest =>
    match w.entry id with
    | none => w.runDueLoop rest
    | some e => (w.doRespawn delayMs id e (e.sup.state = .backoff) env).1.runDueLoop rest

/-! ## Operator requests -/

/-- SRC: supervision.rs:322-345 -/
def setPolicy (w : Supervision) (id : Uuid) (policy : RestartPolicy) :
    Supervision × Except EngineError Unit :=
  match policy.validate with
  | .error invalid => (w, .error (.invalidRestartPolicy invalid))
  | .ok () =>
    match w.entry id with
    | none => (w, .error (.paneNotFound id))
    | some e =>
      let sup := e.sup.setPolicy policy
      let w' := w.setEntry id { e with sup := sup }
      match w.upgrade e with
      | none => (w', .ok ())
      | some (a, p) => (w'.setPane a { p with restartPending := sup.restartPending }, .ok ())

/-- SRC: supervision.rs:347-393 -/
def stop (w : Supervision) (id : Uuid) (kill : Except String Unit) :
    Supervision × Except EngineError SignalOutcome :=
  match w.entry id with
  | none => (w, .error (.paneNotFound id))
  | some e =>
    let (sup, needsSignal) := e.sup.requestStop
    let w' := w.setEntry id { e with sup := sup }
    match w.upgrade e with
    | none => (w', .ok (if needsSignal then .signaled else .immediate))
    | some (a, p) =>
      let p := { p with restartPending := false }
      if !needsSignal then (w'.setPane a p, .ok .immediate)
      else if p.isExited then (w'.setPane a p, .ok .signaled)
      else match p.terminate kill with
        | (p, .ok ()) => (w'.setPane a p, .ok .signaled)
        | (p, .error message) =>
          (w.setPane a { p with restartPending := e.sup.restartPending },
            .error (.paneStart id message))

/-- SRC: supervision.rs:395-435 -/
def restart (w : Supervision) (id : Uuid) (resetBackoff : Bool) (kill : Except String Unit)
    (env : RespawnEnv) : Supervision × Except EngineError SignalOutcome :=
  match w.entry id with
  | none => (w, .error (.paneNotFound id))
  | some e =>
    let (sup, signaled) := e.sup.requestRestart resetBackoff
    let e' := { e with sup := sup }
    let w' := w.setEntry id e'
    if signaled then
      match w.runningPane e with
      | none => (w', .ok .signaled)
      | some (a, p) =>
        match p.terminate kill with
        | (p, .ok ()) => (w'.setPane a p, .ok .signaled)
        | (p, .error message) => (w.setPane a p, .error (.paneStart id message))
    else
      match w.runningPane e with
      | some (a, p) =>
        -- accounted for but not published: `run_due` respawns it once it is
        ((w.setEntry id { e with sup := sup.scheduleManualRestartNow env.now }).setPane a
          { p with restartPending := true }, .ok .signaled)
      | none =>
        match w'.doRespawn delayMs id e' false env with
        | (w'', .ok ()) => (w'', .ok .immediate)
        | (w'', .error err) => (w'', .error err)

/-- SRC: supervision.rs:437-451 -/
def start (w : Supervision) (id : Uuid) (env : RespawnEnv) :
    Supervision × Except EngineError Unit :=
  match w.entry id with
  | none => (w, .error (.paneNotFound id))
  | some e =>
    if (w.runningPane e).isSome then (w, .error (.paneRunning id)) else
      let e := { e with sup := e.sup.resetForStart }
      (w.setEntry id e).doRespawn delayMs id e false env

/-- SRC: supervision.rs:453-462 -/
def resetBudget (w : Supervision) (id : Uuid) : Supervision × Except EngineError Unit :=
  match w.entry id with
  | none => (w, .error (.paneNotFound id))
  | some e => (w.setEntry id { e with sup := e.sup.resetBudget }, .ok ())

end Transitions

/-- Everything that can happen, one lock acquisition or one reader step at a time. `runDue`
lists the due entries in the order the map yields them. -/
inductive Event where
  | spawnPane (a : ℕ) (id : Uuid)
  | reader (a : ℕ) (code : Option ℤ) (now : ℕ) (unit : F64)
  | registerLive (id : Uuid) (a : ℕ) (policy : RestartPolicy) (now hookNow : ℕ) (unit : F64)
  | registerRestored (id : Uuid) (persisted : Option PersistedRestartState)
      (defaultPolicy : RestartPolicy)
  | adoptStarted (id : Uuid) (a : ℕ) (fallbackPolicy : RestartPolicy) (now hookNow : ℕ)
      (unit : F64)
  | forget (id : Uuid)
  | runDue (now : ℕ) (due : List (Uuid × RespawnEnv))
  | setPolicy (id : Uuid) (policy : RestartPolicy)
  | stop (id : Uuid) (kill : Except String Unit)
  | restart (id : Uuid) (resetBackoff : Bool) (kill : Except String Unit) (env : RespawnEnv)
  | start (id : Uuid) (env : RespawnEnv)
  | resetBudget (id : Uuid)

/-- One step; `none` when the event cannot happen. -/
def step (delayMs : RestartPolicy → ℕ → F64 → ℕ) (w : Supervision) :
    Event → Option Supervision
  | .spawnPane a id =>
    if (w.paneAt a).isSome then none
    else some { w.setPane a (Pane.new id) with spawned := id :: w.spawned }
  | .reader a code now unit => w.readerStep delayMs a code now unit
  | .registerLive id a policy now hookNow unit =>
    if (w.paneAt a).any fun p => p.id = id then w.registerLive delayMs a policy now hookNow unit
    else none
  | .registerRestored id persisted policy => some (w.registerRestored id persisted policy)
  | .adoptStarted id a policy now hookNow unit =>
    if (w.paneAt a).any fun p => p.id = id then w.adoptStarted delayMs a policy now hookNow unit
    else none
  | .forget id => some (w.forget id)
  | .runDue now due =>
    if (due.map Prod.fst).Perm (w.entries.keys.filter (w.isDue now)) then
      some (w.runDueLoop delayMs due)
    else none
  | .setPolicy id policy => some (w.setPolicy id policy).1
  | .stop id kill => some (w.stop id kill).1
  | .restart id resetBackoff kill env => some (w.restart delayMs id resetBackoff kill env).1
  | .start id env => some (w.start delayMs id env).1
  | .resetBudget id => some (w.resetBudget id).1

end Supervision

end Tymux.Model
