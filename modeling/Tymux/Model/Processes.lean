import Tymux.Model.EngineCalls
import Mathlib.Data.Finset.Basic

/-!
# Calls that start and end processes

The calls of `engine.rs` that spawn, restart or kill the process of a pane, with their steps in any
order. The supervision lock is held for the whole of an operation of the supervision, so such an
operation is one step; `respawn_with` and `retire` run inside it. The panes lock is held from where
a restored record is found to where its new pane is handed to the supervision, and while panes are
dropped; it names its holder. Reader threads take their steps in between.

The lookups in the reverse index and the changes of the layout, which come between the steps below,
can only end a call; the persist that follows them touches no process. A new pane whose call ends
before it is in the panes stays with a call that takes no further step.
-/

set_option autoImplicit false

namespace Tymux.Model

/-- Where a call stands. -/
inductive ProcessCall where
  /-- The process of a new pane runs. -/
  | placeInsert (pane : Uuid) (addr : ℕ) (policy : RestartPolicy)
  /-- The new pane is in the panes. -/
  | placeRegister (pane : Uuid) (addr : ℕ) (policy : RestartPolicy)
  /-- `start_pane_inner` for one pane after the other. -/
  | startInner (panes : List Uuid) (policy : RestartPolicy)
  | startSupervised (pane : Uuid) (rest : List Uuid) (policy : RestartPolicy)
  /-- The panes lock is held, and the process of a restored record runs. -/
  | startInsert (pane : Uuid) (addr rows cols : ℕ) (rest : List Uuid) (policy : RestartPolicy)
  /-- The panes lock is held, and the new pane is in the panes. -/
  | startAdopt (pane : Uuid) (addr : ℕ) (rest : List Uuid) (policy : RestartPolicy)
  | restartCheck (pane : Uuid) (resetBackoff : Bool)
  | restartSupervised (pane : Uuid) (resetBackoff : Bool)
  | reviveCheck (panes : List Uuid) (policy : RestartPolicy)
  /-- The panes whose state is yet to be looked at, and those to start. -/
  | reviveHold (panes kept : List Uuid) (policy : RestartPolicy)
  | revivePrepare (panes : List Uuid) (policy : RestartPolicy)
  | dropLock (panes : List Uuid)
  /-- The panes lock is held. `gone` is a ghost: the panes removed so far, of those that were
  supervised. -/
  | dropForget (panes gone : List Uuid)
  /-- `supervised` is a ghost: there was an entry to forget. -/
  | dropRemove (pane : Uuid) (supervised : Bool) (rest gone : List Uuid)
  | dropKill (pane : Uuid) (supervised : Bool) (addr : ℕ) (rest gone : List Uuid)
  deriving DecidableEq, Repr

structure ProcessState where
  panes : AList fun _ : Uuid => HeldPane
  supervision : Supervision
  panesLock : Option ℕ
  calls : AList fun _ : ℕ => ProcessCall
  nextId : Uuid
  nextAddr : ℕ
  /-- Ghost: the pane ids of all processes that were reaped, newest first. -/
  reaped : List Uuid
  /-- Ghost: the panes that a call has removed from the panes and the supervision, and which has
  returned. -/
  closed : Finset Uuid

/-- What the environment answers to one step: the launch or respawn of a process, a signal, and
whether the files of a revive resolve. -/
structure StepEnv extends LaunchEnv where
  kill : Except String Unit
  prepared : Bool

inductive ProcessEvent where
  /-- `create_session`, `split_pane` and `create_window` have spawned their new pane. -/
  | place (call : ℕ) (policy : RestartPolicy)
  /-- `load_persisted` for one pane; the panes of admitted records are distinct. -/
  | restore (rows cols : ℕ) (persisted : Option PersistedRestartState) (policy : RestartPolicy)
  | startPane (call : ℕ) (pane : Uuid)
  | restartPane (call : ℕ) (pane : Uuid) (resetBackoff : Bool)
  | reviveSession (call : ℕ) (panes : List Uuid) (policy : RestartPolicy)
  | closePane (call : ℕ) (pane : Uuid)
  | killSession (call : ℕ) (panes : List Uuid)
  | advance (call : ℕ) (env : StepEnv)
  | runDue (now : ℕ) (due : List (Uuid × RespawnEnv))
  | stop (pane : Uuid) (kill : Except String Unit)
  | setPolicy (pane : Uuid) (policy : RestartPolicy)
  | resetBudget (pane : Uuid)
  /-- The reader thread of a pane takes a step. -/
  | reader (addr : ℕ) (code : Option ℤ) (now : ℕ) (unit : F64)

namespace ProcessState

def init : ProcessState where
  panes := ∅
  supervision := .init
  panesLock := none
  calls := ∅
  nextId := 0
  nextAddr := 0
  reaped := []
  closed := ∅

/-- The call goes on at `next`. -/
def goto (s : ProcessState) (c : ℕ) (next : ProcessCall) : ProcessState :=
  { s with calls := s.calls.insert c next }

/-- The call returns. -/
def finish (s : ProcessState) (c : ℕ) : ProcessState := { s with calls := s.calls.erase c }

def begin (s : ProcessState) (c : ℕ) (first : ProcessCall) : Option ProcessState :=
  if c ∈ s.calls then none else some (s.goto c first)

/-- A step that takes the panes lock. -/
def withPanes (s : ProcessState) (k : Option ProcessState) : Option ProcessState :=
  if s.panesLock = none then k else none

/-- A new pane object with a process. -/
def spawn (s : ProcessState) (pane : Uuid) : ProcessState where
  __ := s
  supervision := { s.supervision.setPane s.nextAddr (Pane.new pane) with
    spawned := pane :: s.supervision.spawned }
  nextAddr := s.nextAddr + 1

def isRunning (s : ProcessState) (addr : ℕ) : Bool :=
  (s.supervision.paneAt addr).any fun p => !p.isExited

/-- SRC: engine.rs:938-940 -/
def isLive (s : ProcessState) (pane : Uuid) : Bool :=
  match s.panes.lookup pane with
  | some (.live addr _ _) => s.isRunning addr
  | _ => false

section Steps

variable (delayMs : RestartPolicy → ℕ → F64 → ℕ)

/-- SRC: engine.rs:509-514, 717-721, 873-880 -/
def advancePlace (s : ProcessState) (c : ℕ) (env : StepEnv) : ProcessCall → Option ProcessState
  | .placeInsert pane addr policy => s.withPanes <|
      some ({ s with panes := s.panes.insert pane (.live addr defaultRows defaultCols) }.goto c
        (.placeRegister pane addr policy))
  | .placeRegister _ addr policy =>
      (s.supervision.registerLive delayMs addr policy env.now env.hookNow env.unit).map fun w =>
        { s with supervision := w }.finish c
  | _ => none

/-- SRC: engine.rs:995-1036 -/
def advanceStart (s : ProcessState) (c : ℕ) (env : StepEnv) : ProcessCall → Option ProcessState
  | .startInner [] _ => some (s.finish c)
  | .startInner (pane :: rest) policy => s.withPanes <|
      match s.panes.lookup pane with
      | none => some (s.goto c (.startInner rest policy))
      | some (.live addr _ _) =>
        if s.isRunning addr then some (s.goto c (.startInner rest policy))
        else some (s.goto c (.startSupervised pane rest policy))
      | some (.dead rows cols) =>
        match env.spawn with
        | .error _ => some (s.goto c (.startInner rest policy))
        | .ok () =>
          some ({ s.spawn pane with panesLock := some c }.goto c
            (.startInsert pane s.nextAddr (max rows minPaneRows) (max cols minPaneCols) rest policy))
  | .startSupervised pane rest policy =>
      some ({ s with
        supervision := (s.supervision.start delayMs pane env.toRespawnEnv).1 }.goto c
          (.startInner rest policy))
  | .startInsert pane addr rows cols rest policy =>
      some ({ s with panes := s.panes.insert pane (.live addr rows cols) }.goto c
        (.startAdopt pane addr rest policy))
  | .startAdopt _ addr rest policy =>
      (s.supervision.adoptStarted delayMs addr policy env.now env.hookNow env.unit).map fun w =>
        { s with supervision := w, panesLock := none }.goto c (.startInner rest policy)
  | _ => none

/-- SRC: engine.rs:919-991, 1173-1187 -/
def advanceRestart (s : ProcessState) (c : ℕ) (env : StepEnv) : ProcessCall → Option ProcessState
  | .restartCheck pane resetBackoff => s.withPanes <|
      match s.panes.lookup pane with
      | some (.dead ..) => some (s.goto c (.startInner [pane] .default))
      | _ => some (s.goto c (.restartSupervised pane resetBackoff))
  | .restartSupervised pane resetBackoff =>
      some ({ s with
        supervision := (s.supervision.restart delayMs pane resetBackoff env.kill
          env.toRespawnEnv).1 }.finish c)
  | .reviveCheck panes policy => s.withPanes <|
      if panes.any s.isLive then some (s.finish c)
      else some (s.goto c (.reviveHold panes [] policy))
  | .reviveHold [] kept policy =>
      if kept = [] then some (s.finish c) else some (s.goto c (.revivePrepare kept policy))
  | .reviveHold (pane :: panes) kept policy =>
      match s.supervision.stateOf pane with
      | some .stopped | some .failed => some (s.goto c (.reviveHold panes kept policy))
      | _ => some (s.goto c (.reviveHold panes (kept ++ [pane]) policy))
  | .revivePrepare panes policy => s.withPanes <|
      if env.prepared then some (s.goto c (.startInner panes policy)) else some (s.finish c)
  | _ => none

/-- SRC: engine.rs:609-623, 822-841 -/
def advanceDrop (s : ProcessState) (c : ℕ) : ProcessCall → Option ProcessState
  | .dropLock panes => s.withPanes <|
      some ({ s with panesLock := some c }.goto c (.dropForget panes []))
  | .dropForget [] gone =>
      some ({ s with panesLock := none, closed := s.closed ∪ gone.toFinset }.finish c)
  | .dropForget (pane :: rest) gone =>
      some ({ s with supervision := s.supervision.forget pane }.goto c
        (.dropRemove pane (s.supervision.entry pane).isSome rest gone))
  | .dropRemove pane supervised rest gone =>
      match s.panes.lookup pane with
      | none => some (s.goto c (.dropForget rest gone))
      | some (.dead ..) =>
        some ({ s with panes := s.panes.erase pane }.goto c
          (.dropForget rest (if supervised then pane :: gone else gone)))
      | some (.live addr _ _) =>
        some ({ s with panes := s.panes.erase pane }.goto c
          (.dropKill pane supervised addr rest gone))
  | .dropKill pane supervised addr rest gone =>
      let s := match s.supervision.paneAt addr with
        | some p =>
          if p.isExited then s else { s with supervision := s.supervision.setPane addr p.kill }
        | none => s
      some (s.goto c (.dropForget rest (if supervised then pane :: gone else gone)))
  | _ => none

def advanceCall (s : ProcessState) (c : ℕ) (env : StepEnv) (pc : ProcessCall) :
    Option ProcessState :=
  match pc with
  | .placeInsert .. | .placeRegister .. => s.advancePlace delayMs c env pc
  | .startInner .. | .startSupervised .. | .startInsert .. | .startAdopt .. =>
    s.advanceStart delayMs c env pc
  | .restartCheck .. | .restartSupervised .. | .reviveCheck .. | .reviveHold ..
  | .revivePrepare .. => s.advanceRestart delayMs c env pc
  | .dropLock .. | .dropForget .. | .dropRemove .. | .dropKill .. => s.advanceDrop c pc

/-- A reader thread reaps its process when it leaves the phase `running`.
SRC: pane.rs:613-647 -/
def reader (s : ProcessState) (addr : ℕ) (code : Option ℤ) (now : ℕ) (unit : F64) :
    Option ProcessState := do
  let p ← s.supervision.paneAt addr
  let w ← s.supervision.readerStep delayMs addr code now unit
  return { s with
    supervision := w
    reaped := if p.reader = .running then p.id :: s.reaped else s.reaped }

def step (s : ProcessState) : ProcessEvent → Option ProcessState
  | .place c policy =>
    if c ∈ s.calls then none
    else some ({ s.spawn s.nextId with nextId := s.nextId + 1 }.goto c
      (.placeInsert s.nextId s.nextAddr policy))
  | .restore rows cols persisted policy => s.withPanes <|
    some { s with
      panes := s.panes.insert s.nextId (.dead rows cols)
      supervision := s.supervision.registerRestored s.nextId persisted policy
      nextId := s.nextId + 1 }
  | .startPane c pane => s.begin c (.startInner [pane] .default)
  | .restartPane c pane resetBackoff => s.begin c (.restartCheck pane resetBackoff)
  | .reviveSession c panes policy => s.begin c (.reviveCheck panes policy)
  | .closePane c pane => s.begin c (.dropLock [pane])
  | .killSession c panes => s.begin c (.dropLock panes)
  | .advance c env => (s.calls.lookup c).bind (s.advanceCall delayMs c env)
  | .runDue now due =>
    (s.supervision.step delayMs (.runDue now due)).map fun w => { s with supervision := w }
  | .stop pane kill => some { s with supervision := (s.supervision.stop pane kill).1 }
  | .setPolicy pane policy => some { s with supervision := (s.supervision.setPolicy pane policy).1 }
  | .resetBudget pane => some { s with supervision := (s.supervision.resetBudget pane).1 }
  | .reader addr code now unit => s.reader delayMs addr code now unit

end Steps

end ProcessState

end Tymux.Model
