import Tymux.Model.Records
import Tymux.Model.Supervision

/-!
# The engine's calls, one after the other

`engine.rs` as a sequence of completed calls: each call is a function from the state of the engine
to the state in which it returns, with the result that it returns. A result of `none` is a panic.
Between two calls the reader threads take their steps and the supervisor restarts what is due.

What the operating system decides (whether a process starts, whether a signal is delivered), the
clock and the jitter are arguments. The snapshots that calls return, the persisted records and the
notifications are left out.
-/

set_option autoImplicit false

namespace Tymux.Model

/-- SIGHUP -/
def sighup : ℤ := 1

/-- SIGHUP to the child, or nothing when the reader has already cleared its pid. The signal is taken
to be delivered.
SRC: pane.rs:818-896 -/
def Pane.kill (p : Pane) : Pane :=
  match p.reader with
  | .running => { p with lastSignal := some sighup }
  | _ => p

/-- SRC: engine.rs:60-63 -/
inductive HeldPane where
  /-- The address of the pane and `Pane::size`. -/
  | live (addr rows cols : ℕ)
  /-- A record restored from disk, with its size. -/
  | dead (rows cols : ℕ)
  deriving DecidableEq, Repr

/-- `EngineError`, and the failed launch of `create_session`.
SRC: engine.rs:85-117 -/
inductive CallError where
  | paneNotFound (paneId : Uuid)
  | sessionNotFound (session : Uuid)
  | belowMinimumSize (rows cols : ℕ)
  | belowRecommendedSize (rows : ℕ)
  | reviveLaunch (paneId : Uuid) (message : String)
  | paneRunning (paneId : Uuid)
  | paneStopped (paneId : Uuid)
  | paneFailed (paneId : Uuid)
  | invalidRestartPolicy (invalid : RestartPolicy.Invalid)
  | paneStart (paneId : Uuid) (message : String)
  | launch (message : String)
  deriving DecidableEq, Repr

def CallError.ofEngineError : EngineError → CallError
  | .paneNotFound paneId => .paneNotFound paneId
  | .paneRunning paneId => .paneRunning paneId
  | .paneStart paneId message => .paneStart paneId message
  | .invalidRestartPolicy invalid => .invalidRestartPolicy invalid

/-- SRC: engine.rs:700-712 -/
def CallError.ofLayoutError : LayoutError → CallError
  | .belowMinimumSize rows cols => .belowMinimumSize rows cols
  | .belowRecommendedSize rows => .belowRecommendedSize rows
  | .paneNotFound paneId => .paneNotFound paneId

/-- The environment of a launch: as for a respawn, and the clock when the exit hook is installed. -/
structure LaunchEnv extends RespawnEnv where
  hookNow : ℕ

/-- SRC: engine.rs:232-303 -/
structure Engine where
  sessions : AList fun _ : Uuid => NamedSession
  panes : AList fun _ : Uuid => HeldPane
  paneWindow : AList fun _ : Uuid => Uuid
  windowSession : AList fun _ : Uuid => Uuid
  supervision : Supervision
  nextId : Uuid
  nextAddr : ℕ

inductive EngineCall where
  | createSession (name : String) (policy : RestartPolicy) (env : LaunchEnv)
  | splitPane (target : Uuid) (orientation : Orientation) (env : LaunchEnv)
  | closePane (pane : Uuid)
  | createWindow (session : Uuid) (env : LaunchEnv)
  | killSession (session : Uuid)
  /-- `prepare` is what each launch's files resolve to. -/
  | reviveSession (session : Uuid) (prepare : Uuid → Except String Unit) (env : Uuid → LaunchEnv)
  | startPane (pane : Uuid) (env : LaunchEnv)
  | stopPane (pane : Uuid) (kill : Except String Unit)
  | restartPane (pane : Uuid) (resetBackoff : Bool) (kill : Except String Unit) (env : LaunchEnv)
  | setRestartPolicy (pane : Uuid) (policy : RestartPolicy)
  | setSessionRestartPolicy (session : Uuid) (policy : RestartPolicy) (applyToExisting : Bool)
  | resetRestartBudget (pane : Uuid)
  /-- `report_viewport_and_recompute`, with the size that all viewports come to. -/
  | recomputeWindow (window rows cols : ℕ)
  /-- The supervisor restarts what is due. -/
  | superviseTick (now : ℕ) (due : List (Uuid × RespawnEnv))
  /-- A step of the reader thread of a pane. -/
  | reader (addr : ℕ) (code : Option ℤ) (now : ℕ) (unit : F64)

/-- What a call returns. -/
abbrev CallResult := Except CallError Unit

def CallResult.ofEngine {α : Type} : Except EngineError α → CallResult
  | .error e => .error (.ofEngineError e)
  | .ok _ => .ok ()

namespace Engine

/-- SRC: engine.rs:304-322 -/
def init : Engine where
  sessions := ∅
  panes := ∅
  paneWindow := ∅
  windowSession := ∅
  supervision := .init
  nextId := 0
  nextAddr := 0

/-- SRC: engine.rs:401-413 -/
def windowAndSessionForPane (s : Engine) (pane : Uuid) : Except CallError (Uuid × Uuid) :=
  match s.paneWindow.lookup pane with
  | none => .error (.paneNotFound pane)
  | some window =>
    match s.windowSession.lookup window with
    | none => .error (.paneNotFound pane)
    | some session => .ok (window, session)

/-- The pane has an object whose process has not been seen to exit. -/
def isRunning (s : Engine) (pane : Uuid) : Bool :=
  match s.panes.lookup pane with
  | some (.live addr _ _) => (s.supervision.paneAt addr).any fun p => !p.isExited
  | _ => false

/-- A new pane object with a process.
SRC: pane.rs:391-410 -/
def spawn (s : Engine) (pane : Uuid) : Engine where
  __ := s
  supervision := { s.supervision.setPane s.nextAddr (Pane.new pane) with
    spawned := pane :: s.supervision.spawned }
  nextAddr := s.nextAddr + 1

/-! ## Sessions and windows -/

/-- `RecordState.splitWindow`, with the error. -/
def splitWindow (target : Uuid) (orientation : Orientation) (pane window : Uuid) :
    List NamedWindow → Option (Except LayoutError (List NamedWindow))
  | [] => some (.error (.paneNotFound target))
  | w :: ws =>
    if w.id = window then do
      match ← w.layout.split? target orientation pane w.rows w.cols with
      | .error e => return .error e
      | .ok layout => return .ok ({ w with layout } :: ws)
    else do
      match ← splitWindow target orientation pane window ws with
      | .error e => return .error e
      | .ok rest => return .ok (w :: rest)

section Calls

variable (delayMs : RestartPolicy → ℕ → F64 → ℕ)

/-- The new pane gets into the panes and the supervision.
SRC: engine.rs:505-511, 716-722, 881-887 -/
def registerPane (s : Engine) (pane : Uuid) (policy : RestartPolicy) (env : LaunchEnv) :
    Option Engine := do
  let addr := s.nextAddr
  let s := s.spawn pane
  let supervision ← s.supervision.registerLive delayMs addr policy env.now env.hookNow env.unit
  return { s with
    panes := s.panes.insert pane (.live addr defaultRows defaultCols)
    supervision := supervision }

/-- SRC: engine.rs:470-522 -/
def createSession (s : Engine) (name : String) (policy : RestartPolicy) (env : LaunchEnv) :
    Option (Engine × CallResult) :=
  match policy.validate with
  | .error invalid => some (s, .error (.invalidRestartPolicy invalid))
  | .ok () =>
    match env.spawn with
    | .error message => some (s, .error (.launch message))
    | .ok () => do
      let (session, window, pane) := (s.nextId, s.nextId + 1, s.nextId + 2)
      let st : NamedSession := ⟨name, [RecordState.newWindow window "0" pane], window, policy⟩
      let s ← { s with
        sessions := s.sessions.insert session st
        nextId := s.nextId + 3 }.registerPane delayMs pane policy env
      return ({ s with
        windowSession := s.windowSession.insert window session
        paneWindow := s.paneWindow.insert pane window }, .ok ())

/-- SRC: engine.rs:675-736 -/
def splitPane (s : Engine) (target : Uuid) (orientation : Orientation) (env : LaunchEnv) :
    Option (Engine × CallResult) :=
  match env.spawn with
  | .error _ => some (s, .error (.paneNotFound target))
  | .ok () =>
    match s.windowAndSessionForPane target with
    | .error e => some (s, .error e)
    | .ok (window, session) =>
      match s.sessions.lookup session with
      | none => some (s, .error (.paneNotFound target))
      | some st => do
        let pane := s.nextId
        match ← splitWindow target orientation pane window st.windows with
        | .error e => return (s, .error (.ofLayoutError e))
        | .ok windows =>
          let s ← { s with
            sessions := s.sessions.insert session { st with windows }
            nextId := s.nextId + 1 }.registerPane delayMs pane st.defaultRestartPolicy env
          return ({ s with paneWindow := s.paneWindow.insert pane window }, .ok ())

/-- SRC: engine.rs:851-893 -/
def createWindow (s : Engine) (session : Uuid) (env : LaunchEnv) : Option (Engine × CallResult) :=
  match env.spawn with
  | .error _ => some (s, .error (.sessionNotFound session))
  | .ok () =>
    match s.sessions.lookup session with
    | none => some (s, .error (.sessionNotFound session))
    | some st => do
      let (window, pane) := (s.nextId, s.nextId + 1)
      let s ← { s with
        sessions := s.sessions.insert session (RecordState.addWindow st window pane)
        nextId := s.nextId + 2 }.registerPane delayMs pane st.defaultRestartPolicy env
      return ({ s with
        windowSession := s.windowSession.insert window session
        paneWindow := s.paneWindow.insert pane window }, .ok ())

/-- `forget`, the removal from the panes, and the kill.
SRC: engine.rs:614-624, 826-831 -/
def dropPane (s : Engine) (pane : Uuid) : Engine :=
  let supervision := s.supervision.forget pane
  let supervision := match s.panes.lookup pane with
    | some (.live addr _ _) =>
      match supervision.paneAt addr with
      | some p => if p.isExited then supervision else supervision.setPane addr p.kill
      | none => supervision
    | _ => supervision
  { s with panes := s.panes.erase pane, supervision := supervision }

/-- A session that is removed has no window left, so no other pane goes down with it.
SRC: engine.rs:742-848 -/
def closePane (s : Engine) (pane : Uuid) : Engine × CallResult :=
  match s.windowAndSessionForPane pane with
  | .error e => (s, .error e)
  | .ok (window, session) =>
    match s.sessions.lookup session with
    | none => (s, .error (.paneNotFound pane))
    | some st =>
      match RecordState.closeWindow pane window st.windows with
      | none => (s, .error (.paneNotFound pane))
      | some (windows, windowClosed) =>
        let s := { s with
          sessions := match windows with
            | [] => s.sessions.erase session
            | w :: ws =>
              s.sessions.insert session (RecordState.closedSession st (w :: ws) windowClosed)
          paneWindow := s.paneWindow.erase pane
          windowSession := windowClosed.elim s.windowSession s.windowSession.erase }
        (s.dropPane pane, .ok ())

/-- SRC: engine.rs:588-628 -/
def killSession (s : Engine) (session : Uuid) : Engine × CallResult :=
  match s.sessions.lookup session with
  | none => (s, .error (.sessionNotFound session))
  | some st =>
    let s := { s with
      sessions := s.sessions.erase session
      windowSession :=
        (st.windows.map NamedWindow.id).foldl (fun m w => m.erase w) s.windowSession
      paneWindow := st.leaves.foldl (fun m p => m.erase p) s.paneWindow }
    (st.leaves.foldl dropPane s, .ok ())

/-- SRC: engine.rs:1270-1345, pane.rs:960-992 -/
def recomputeWindowGeometry (s : Engine) (window rows cols : ℕ) : Option Engine :=
  match s.windowSession.lookup window with
  | none => some s
  | some session =>
    match s.sessions.lookup session with
    | none => some s
    | some st =>
      match st.windows.find? fun w => w.id = window with
      | none => some s
      | some w => do
        let rects ← w.layout.computeGeometry rows cols
        return { s with
          sessions := s.sessions.insert session (RecordState.sizeWindow st window rows cols)
          panes := rects.foldl (fun m e =>
            match m.lookup e.1 with
            | some (.live addr _ _) =>
              m.insert e.1 (.live addr (min e.2.rows maxPaneRows) (min e.2.cols maxPaneCols))
            | _ => m) s.panes }

/-! ## Processes -/

/-- SRC: engine.rs:995-1036 -/
def startPaneInner (s : Engine) (pane : Uuid) (fallbackPolicy : RestartPolicy) (env : LaunchEnv) :
    Option (Engine × CallResult) :=
  match s.panes.lookup pane with
  | none => some (s, .error (.paneNotFound pane))
  | some (.live ..) =>
    if s.isRunning pane then some (s, .error (.paneRunning pane)) else
      let (supervision, result) := s.supervision.start delayMs pane env.toRespawnEnv
      some ({ s with supervision }, .ofEngine result)
  | some (.dead rows cols) =>
    match env.spawn with
    | .error message => some (s, .error (.paneStart pane message))
    | .ok () => do
      let addr := s.nextAddr
      let s := s.spawn pane
      let supervision ← s.supervision.adoptStarted delayMs addr fallbackPolicy env.now env.hookNow
        env.unit
      return ({ s with
        panes := s.panes.insert pane (.live addr (max rows minPaneRows) (max cols minPaneCols))
        supervision := supervision }, .ok ())

/-- SRC: engine.rs:1190-1196 -/
def startPane (s : Engine) (pane : Uuid) (env : LaunchEnv) : Option (Engine × CallResult) :=
  match s.windowAndSessionForPane pane with
  | .error e => some (s, .error e)
  | .ok _ => s.startPaneInner delayMs pane .default env

/-- SRC: engine.rs:1164-1169 -/
def stopPane (s : Engine) (pane : Uuid) (kill : Except String Unit) : Engine × CallResult :=
  match s.windowAndSessionForPane pane with
  | .error e => (s, .error e)
  | .ok _ =>
    let (supervision, result) := s.supervision.stop pane kill
    ({ s with supervision }, .ofEngine result)

/-- SRC: engine.rs:1173-1187 -/
def restartPane (s : Engine) (pane : Uuid) (resetBackoff : Bool) (kill : Except String Unit)
    (env : LaunchEnv) : Option (Engine × CallResult) :=
  match s.windowAndSessionForPane pane with
  | .error e => some (s, .error e)
  | .ok _ =>
    match s.panes.lookup pane with
    | some (.dead ..) => s.startPaneInner delayMs pane .default env
    | _ =>
      let (supervision, result) :=
        s.supervision.restart delayMs pane resetBackoff kill env.toRespawnEnv
      some ({ s with supervision }, .ofEngine result)

/-- The panes that a revive leaves as they are.
SRC: engine.rs:949-955 -/
def isHeld (s : Engine) (pane : Uuid) : Bool :=
  match s.supervision.stateOf pane with
  | some .stopped | some .failed => true
  | _ => false

/-- SRC: engine.rs:967-981 -/
def prepareAll (s : Engine) (prepare : Uuid → Except String Unit) : List Uuid → CallResult
  | [] => .ok ()
  | pane :: panes =>
    if pane ∈ s.panes then
      match prepare pane with
      | .error message => .error (.reviveLaunch pane message)
      | .ok () => s.prepareAll prepare panes
    else s.prepareAll prepare panes

/-- SRC: engine.rs:983-991 -/
def reviveEach (fallbackPolicy : RestartPolicy) (env : Uuid → LaunchEnv) :
    Engine → List Uuid → Option Engine
  | s, [] => some s
  | s, pane :: panes => do
    let (s, _) ← s.startPaneInner delayMs pane fallbackPolicy (env pane)
    reviveEach fallbackPolicy env s panes

/-- SRC: engine.rs:919-991 -/
def reviveSession (s : Engine) (session : Uuid) (prepare : Uuid → Except String Unit)
    (env : Uuid → LaunchEnv) : Option (Engine × CallResult) :=
  match s.sessions.lookup session with
  | none => some (s, .error (.sessionNotFound session))
  | some st =>
    if st.leaves.any s.isRunning then some (s, .ok ()) else
      match st.leaves.filter s.isHeld, st.leaves.filter fun pane => !s.isHeld pane with
      | pane :: _, [] =>
        match s.supervision.stateOf pane with
        | some .stopped => some (s, .error (.paneStopped pane))
        | _ => some (s, .error (.paneFailed pane))
      | _, panes =>
        match s.prepareAll prepare panes with
        | .error e => some (s, .error e)
        | .ok () => (s.reviveEach delayMs st.defaultRestartPolicy env panes).map (·, .ok ())

/-! ## Policies -/

/-- SRC: engine.rs:1117-1128 -/
def setRestartPolicy (s : Engine) (pane : Uuid) (policy : RestartPolicy) : Engine × CallResult :=
  match s.windowAndSessionForPane pane with
  | .error e => (s, .error e)
  | .ok _ =>
    let (supervision, result) := s.supervision.setPolicy pane policy
    ({ s with supervision }, .ofEngine result)

/-- The loop returns at the first error.
SRC: engine.rs:1153-1157 -/
def setPolicies (policy : RestartPolicy) : Engine → List Uuid → Engine × CallResult
  | s, [] => (s, .ok ())
  | s, pane :: panes =>
    match s.supervision.setPolicy pane policy with
    | (supervision, .error e) => ({ s with supervision }, .error (.ofEngineError e))
    | (supervision, .ok ()) => setPolicies policy { s with supervision } panes

/-- SRC: engine.rs:1131-1160 -/
def setSessionRestartPolicy (s : Engine) (session : Uuid) (policy : RestartPolicy)
    (applyToExisting : Bool) : Engine × CallResult :=
  match policy.validate with
  | .error invalid => (s, .error (.invalidRestartPolicy invalid))
  | .ok () =>
    match s.sessions.lookup session with
    | none => (s, .error (.sessionNotFound session))
    | some st =>
      let s := { s with
        sessions := s.sessions.insert session { st with defaultRestartPolicy := policy } }
      if applyToExisting then setPolicies policy s st.leaves else (s, .ok ())

/-- SRC: engine.rs:1198-1203 -/
def resetRestartBudget (s : Engine) (pane : Uuid) : Engine × CallResult :=
  match s.windowAndSessionForPane pane with
  | .error e => (s, .error e)
  | .ok _ =>
    let (supervision, result) := s.supervision.resetBudget pane
    ({ s with supervision }, .ofEngine result)

/-! ## Runs -/

/-- A supervision event that cannot happen leaves the state as it is. -/
def supervise (s : Engine) (e : Supervision.Event) : Engine :=
  { s with supervision := (s.supervision.step delayMs e).getD s.supervision }

/-- One call, with its result. -/
def call (s : Engine) : EngineCall → Option (Engine × CallResult)
  | .createSession name policy env => s.createSession delayMs name policy env
  | .splitPane target orientation env => s.splitPane delayMs target orientation env
  | .closePane pane => some (s.closePane pane)
  | .createWindow session env => s.createWindow delayMs session env
  | .killSession session => some (s.killSession session)
  | .reviveSession session prepare env => s.reviveSession delayMs session prepare env
  | .startPane pane env => s.startPane delayMs pane env
  | .stopPane pane kill => some (s.stopPane pane kill)
  | .restartPane pane resetBackoff kill env => s.restartPane delayMs pane resetBackoff kill env
  | .setRestartPolicy pane policy => some (s.setRestartPolicy pane policy)
  | .setSessionRestartPolicy session policy applyToExisting =>
    some (s.setSessionRestartPolicy session policy applyToExisting)
  | .resetRestartBudget pane => some (s.resetRestartBudget pane)
  | .recomputeWindow window rows cols =>
    let (rows, cols) := clampViewport rows cols
    (s.recomputeWindowGeometry window rows cols).map (·, .ok ())
  | .superviseTick now due => some (s.supervise delayMs (.runDue now due), .ok ())
  | .reader addr code now unit => some (s.supervise delayMs (.reader addr code now unit), .ok ())

def step (s : Engine) (c : EngineCall) : Option Engine := (s.call delayMs c).map Prod.fst

end Calls

end Engine

end Tymux.Model
