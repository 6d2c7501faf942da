import Tymux.Model.Engine

/-!
# The clients of a window: those attached to it and one that watches it

The calls of `engine.rs` that change a window's layout, the Attach streams of the daemon
(`main.rs`), whose input tasks report viewports and whose deferred cleanups unregister them, and a
WatchWindow task on one window. A critical section is one step, whatever locks it takes inside; the
lock of `resize_locks` is held from step to step. The notification of a watcher is a step of its own,
after the change that it is about.

The exit of a process, its state and its directory are left out of the snapshots, and so is what the
calls persist. The id of a new pane is drawn where it enters the layout. A client that watches is
taken to read its events.
-/

set_option autoImplicit false

namespace Tymux.Model

/-- What a layout says of a pane: `Pane::size`, or the size in its record.
SRC: engine.rs:60-63 -/
structure PaneSize where
  live : Bool
  rows : ℕ
  cols : ℕ
  deriving DecidableEq, Repr

/-- The tree with the sizes of its leaves, in tree order.
SRC: engine.rs:169-181 -/
structure LayoutSnapshot where
  tree : LayoutNode
  sizes : List (ℕ × ℕ)
  deriving DecidableEq, Repr

/-- SRC: main.rs:1181-1187 -/
structure WindowLayoutEvent where
  layout : LayoutSnapshot
  attachedClientCount : ℕ
  deriving DecidableEq, Repr

/-- Where a call stands, with what it carries on. -/
inductive LayoutCall where
  | splitLookup (target : Uuid) (orientation : Orientation)
  | splitLayout (target : Uuid) (orientation : Orientation) (window session : Uuid)
  | splitInsertPane (pane window session : Uuid)
  | splitIndex (pane window session : Uuid)
  | splitSnapshot (window session : Uuid)
  | splitNotify (window : Uuid)
  | closeLookup (pane : Uuid)
  | closeLayout (pane window session : Uuid)
  | closeIndex (pane window : Uuid) (windowClosed : Bool)
  | closePanes (pane window : Uuid) (windowClosed : Bool)
  | killLayout (session : Uuid)
  | killIndex (windows panes : List Uuid)
  | killPanes (panes : List Uuid)
  deriving DecidableEq, Repr

/-- How far `recompute_window_geometry` is.
SRC: engine.rs:1270-1345 -/
inductive RecomputeStage where
  /-- The lock of the window is next. -/
  | waiting
  | locked
  | sized (rows cols : ℕ)
  | found (session rows cols : ℕ)
  | placing (rects : List (Uuid × PtyRect))
  | applying (rest : List (Uuid × PtyRect))
  /-- The rows of a pane are stored, its columns are next. -/
  | storedRows (pane : Uuid) (cols : ℕ) (rest : List (Uuid × PtyRect))
  | notifying
  deriving DecidableEq, Repr

/-- What a step of `recompute_window_geometry` comes to. -/
inductive RecomputeOutcome where
  | continues (stage : RecomputeStage)
  | returns
  | panics
  deriving DecidableEq, Repr

/-- An Attach stream, from its input task to its deferred cleanup. The window is the one that its
pane was in when it attached.
SRC: main.rs:1655-1745 -/
inductive AttachStream where
  | receiving (window : Option Uuid)
  | reporting (window : Uuid) (stage : RecomputeStage)
  /-- The stream has ended, and the grace period runs. -/
  | sleeping (window : Uuid)
  | unregistering (window : Uuid)
  | cleaning (window : Uuid) (stage : RecomputeStage)
  | done
  /-- One of its tasks has panicked. -/
  | dead
  deriving DecidableEq, Repr

/-- The WatchWindow task.
SRC: main.rs:1168-1212 -/
inductive WatchTask where
  | notStarted
  /-- The receiver is there, the first snapshot is next. -/
  | subscribed
  /-- The first snapshot is taken, its count is next. -/
  | first (layout : LayoutSnapshot)
  | receiving
  /-- A tick is taken, the snapshot is next. -/
  | ticked
  | snapshot (layout : LayoutSnapshot)
  | ended
  deriving DecidableEq, Repr

/-- The slots of the channel of a window's watchers.
SRC: engine.rs:1357 -/
def watchChannelCapacity : ℕ := 16

/-- The engine with its clients. `watched` is the window that the task watches, `pendingTicks` what
it has not received of its channel, and `events` what it has sent. -/
structure Watching where
  sessions : AList fun _ : Uuid => SessionState
  panes : AList fun _ : Uuid => PaneSize
  paneWindow : AList fun _ : Uuid => Uuid
  windowSession : AList fun _ : Uuid => Uuid
  viewports : AList fun _ : Uuid => Viewports
  /-- The streams that hold a lock of `resize_locks`, by window. -/
  resizeLocks : AList fun _ : Uuid => ℕ
  resizePoisoned : List Uuid
  sessionsPoisoned : Bool
  panesPoisoned : Bool
  nextPane : Uuid
  nextClientId : ℕ
  calls : AList fun _ : ℕ => LayoutCall
  streams : AList fun _ : ℕ => AttachStream
  watched : Uuid
  watch : WatchTask
  pendingTicks : ℕ
  events : List WindowLayoutEvent

inductive WatchingEvent where
  | splitPane (call : ℕ) (target : Uuid) (orientation : Orientation)
  | closePane (call : ℕ) (pane : Uuid)
  | killSession (call : ℕ) (session : Uuid)
  /-- The next step of a call. -/
  | advance (call : ℕ)
  | attach (pane : Uuid)
  | resize (client rows cols : ℕ)
  | endStream (client : ℕ)
  /-- The next step of a stream's task. -/
  | stream (client : ℕ)
  | watchWindow
  /-- The next step of the WatchWindow task. -/
  | watch
  deriving DecidableEq, Repr

namespace Watching

/-- An engine that has loaded its sessions, with every pane at its recorded size, and nobody
attached.
SRC: engine.rs:348-399 -/
def loaded (sessions : AList fun _ : Uuid => SessionState) (size : Uuid → PaneSize)
    (nextPane watched : Uuid) : Watching where
  sessions
  panes := (sessions.entries.flatMap fun e => e.2.leaves).foldl (fun m p => m.insert p (size p)) ∅
  paneWindow := (sessions.entries.flatMap fun e => e.2.windows.flatMap fun w =>
    w.layout.leaves.map (·, w.id)).foldl (fun m e => m.insert e.1 e.2) ∅
  windowSession := (sessions.entries.flatMap fun e => e.2.windows.map (·.id, e.1)).foldl
    (fun m e => m.insert e.1 e.2) ∅
  viewports := ∅
  resizeLocks := ∅
  resizePoisoned := []
  sessionsPoisoned := false
  panesPoisoned := false
  nextPane
  nextClientId := 0
  calls := ∅
  streams := ∅
  watched
  watch := .notStarted
  pendingTicks := 0
  events := []

/-! ## Snapshots -/

/-- SRC: engine.rs:1463-1503 -/
def layoutToSnapshot (s : Watching) (layout : LayoutNode) : LayoutSnapshot where
  tree := layout
  sizes := layout.leaves.map fun pane =>
    match s.panes.lookup pane with
    | some size => (size.rows, size.cols)
    | none => (0, 0)

def findWindow (s : Watching) (window : Uuid) : Option SessionWindow :=
  (s.sessions.entries.flatMap fun e => e.2.windows).find? fun w => w.id = window

/-- SRC: engine.rs:1388-1400 -/
def windowSnapshot (s : Watching) (window : Uuid) : Option LayoutSnapshot :=
  (s.findWindow window).map fun w => s.layoutToSnapshot w.layout

/-- SRC: engine.rs:1421-1428 -/
def attachedClientCount (s : Watching) (window : Uuid) : ℕ :=
  match s.viewports.lookup window with
  | some clients => clients.length
  | none => 0

/-- SRC: engine.rs:401-413 -/
def windowAndSessionForPane (s : Watching) (pane : Uuid) : Option (Uuid × Uuid) := do
  let window ← s.paneWindow.lookup pane
  let session ← s.windowSession.lookup window
  return (window, session)

/-- The task has a receiver. -/
def subscribed (s : Watching) : Bool :=
  match s.watch with
  | .notStarted | .ended => false
  | _ => true

/-- SRC: engine.rs:1361-1365 -/
def notifyWindowChanged (s : Watching) (window : Uuid) : Watching :=
  if window = s.watched ∧ s.subscribed then { s with pendingTicks := s.pendingTicks + 1 } else s

/-! ## Layout changes -/

/-- The call goes on at `next`. -/
def goto (s : Watching) (c : ℕ) (next : LayoutCall) : Watching :=
  { s with calls := s.calls.insert c next }

/-- The call returns, or panics. -/
def finish (s : Watching) (c : ℕ) : Watching := { s with calls := s.calls.erase c }

/-- A section of a call under the sessions lock. -/
def withSessions (s : Watching) (c : ℕ) (k : Option Watching) : Option Watching :=
  if s.sessionsPoisoned then some (s.finish c) else k

/-- SRC: engine.rs:588-848 -/
def advanceCall (s : Watching) (c : ℕ) : LayoutCall → Option Watching
  | .splitLookup target orientation =>
      match s.windowAndSessionForPane target with
      | none => some (s.finish c)
      | some (window, session) => some (s.goto c (.splitLayout target orientation window session))
  | .splitLayout target orientation window session => s.withSessions c <|
      match s.sessions.lookup session with
      | none => some (s.finish c)
      | some st =>
        match EngineState.splitWindow target orientation s.nextPane window st.windows with
        | none => some { s.finish c with sessionsPoisoned := true }
        | some none => some (s.finish c)
        | some (some windows) =>
          some ({ s with
            sessions := s.sessions.insert session { st with windows }
            nextPane := s.nextPane + 1 }.goto c (.splitInsertPane s.nextPane window session))
  | .splitInsertPane pane window session =>
      if s.panesPoisoned then some (s.finish c)
      else some ({ s with panes := s.panes.insert pane ⟨true, defaultRows, defaultCols⟩ }.goto c
        (.splitIndex pane window session))
  | .splitIndex pane window session =>
      some ({ s with paneWindow := s.paneWindow.insert pane window }.goto c
        (.splitSnapshot window session))
  | .splitSnapshot window session => s.withSessions c <|
      -- `sessions[&session_id]` panics with both locks held
      if s.panesPoisoned ∨ s.sessions.lookup session = none then
        some { s.finish c with sessionsPoisoned := true, panesPoisoned := true }
      else some (s.goto c (.splitNotify window))
  | .splitNotify window => some ((s.notifyWindowChanged window).finish c)
  | .closeLookup pane =>
      match s.windowAndSessionForPane pane with
      | none => some (s.finish c)
      | some (window, session) => some (s.goto c (.closeLayout pane window session))
  | .closeLayout pane window session => s.withSessions c <|
      match s.sessions.lookup session with
      | none => some (s.finish c)
      | some st =>
        match EngineState.closeWindow pane window st.windows with
        | none => some (s.finish c)
        | some ([], windowClosed) =>
          some ({ s with sessions := s.sessions.erase session }.goto c
            (.closeIndex pane window windowClosed.isSome))
        | some (w :: ws, windowClosed) =>
          let s := { s with
            sessions :=
              s.sessions.insert session (EngineState.closedSession st (w :: ws) windowClosed) }
          -- the snapshot for the caller is taken before the sessions lock is released
          if s.panesPoisoned then some { s.finish c with sessionsPoisoned := true }
          else some (s.goto c (.closeIndex pane window windowClosed.isSome))
  | .closeIndex pane window windowClosed =>
      some ({ s with
        paneWindow := s.paneWindow.erase pane
        windowSession :=
          if windowClosed then s.windowSession.erase window else s.windowSession }.goto c
            (.closePanes pane window windowClosed))
  | .closePanes pane window windowClosed =>
      if s.panesPoisoned then some (s.finish c)
      else
        let s := { s with panes := s.panes.erase pane }
        some ((if windowClosed then s else s.notifyWindowChanged window).finish c)
  | .killLayout session => s.withSessions c <|
      match s.sessions.lookup session with
      | none => some (s.finish c)
      | some st =>
        some ({ s with sessions := s.sessions.erase session }.goto c
          (.killIndex (st.windows.map SessionWindow.id) st.leaves))
  | .killIndex windows panes =>
      some ({ s with
        windowSession := windows.foldl (fun m w => m.erase w) s.windowSession
        paneWindow := panes.foldl (fun m p => m.erase p) s.paneWindow }.goto c (.killPanes panes))
  | .killPanes panes =>
      if s.panesPoisoned then some (s.finish c)
      else some ({ s with panes := panes.foldl (fun m p => m.erase p) s.panes }.finish c)

/-! ## Viewports -/

/-- SRC: engine.rs:1230-1235 -/
def registerViewport (s : Watching) (window client rows cols : ℕ) : Watching :=
  { s with
    viewports := s.viewports.insert window
      (((s.viewports.lookup window).getD []).insert client rows cols) }

/-- SRC: engine.rs:1239-1243 -/
def unregisterViewport (s : Watching) (window client : ℕ) : Watching :=
  match s.viewports.lookup window with
  | some clients => { s with viewports := s.viewports.insert window (clients.remove client) }
  | none => s

/-- `Pane::size` after a store; a pane that was closed meanwhile is not seen any more. -/
def setSize (s : Watching) (pane : Uuid) (f : PaneSize → PaneSize) : Watching :=
  match s.panes.lookup pane with
  | some size => { s with panes := s.panes.insert pane (f size) }
  | none => s

/-- The lock of the window is released. -/
def unlockWindow (s : Watching) (window : Uuid) : Watching :=
  { s with resizeLocks := s.resizeLocks.erase window }

/-- A panic in a section of `recompute_window_geometry`, which holds the lock of the window. -/
def poisonWindow (s : Watching) (window : Uuid) : Watching :=
  { s.unlockWindow window with resizePoisoned := window :: s.resizePoisoned }

/-- SRC: engine.rs:1307-1313 -/
def sizeWindow (window rows cols : ℕ) (ws : List SessionWindow) : List SessionWindow :=
  ws.map fun w => if w.id = window then { w with rows, cols } else w

/-- SRC: engine.rs:1270-1345, pane.rs:960-992 -/
def recompute (s : Watching) (client : ℕ) (window : Uuid) :
    RecomputeStage → Option (Watching × RecomputeOutcome)
  | .waiting =>
    if window ∈ s.resizePoisoned then some (s, .panics)
    else if window ∈ s.resizeLocks then none
    else some ({ s with resizeLocks := s.resizeLocks.insert window client }, .continues .locked)
  | .locked =>
    let (rows, cols) := ((s.viewports.lookup window).getD []).effectiveSize
    some (s, .continues (.sized rows cols))
  | .sized rows cols =>
    match s.windowSession.lookup window with
    | none => some (s.unlockWindow window, .returns)
    | some session => some (s, .continues (.found session rows cols))
  | .found session rows cols =>
    if s.sessionsPoisoned then some (s.poisonWindow window, .panics)
    else
      match s.sessions.lookup session with
      | none => some (s.unlockWindow window, .returns)
      | some st =>
        match st.windows.find? fun w => w.id = window with
        | none => some (s.unlockWindow window, .returns)
        | some w =>
          let s := { s with
            sessions :=
              s.sessions.insert session { st with windows := sizeWindow window rows cols st.windows } }
          match w.layout.computeGeometry rows cols with
          | none => some ({ s.poisonWindow window with sessionsPoisoned := true }, .panics)
          | some rects => some (s, .continues (.placing rects))
  | .placing rects =>
    if s.panesPoisoned then some (s.poisonWindow window, .panics)
    else some (s, .continues (.applying
      (rects.filter fun e => (s.panes.lookup e.1).any PaneSize.live)))
  | .applying [] => some (s, .continues .notifying)
  | .applying ((pane, rect) :: rest) =>
    let (rows, cols) := (min rect.rows maxPaneRows, min rect.cols maxPaneCols)
    if (s.panes.lookup pane).any fun size => size.rows = rows ∧ size.cols = cols then
      some (s, .continues (.applying rest))
    else some (s.setSize pane fun size => { size with rows },
      .continues (.storedRows pane cols rest))
  | .storedRows pane cols rest =>
    some (s.setSize pane fun size => { size with cols }, .continues (.applying rest))
  | .notifying => some ((s.notifyWindowChanged window).unlockWindow window, .returns)

/-! ## Attach streams -/

def setStream (s : Watching) (client : ℕ) (stream : AttachStream) : Watching :=
  { s with streams := s.streams.insert client stream }

/-- SRC: main.rs:1436-1437 -/
def attach (s : Watching) (pane : Uuid) : Watching :=
  { s with nextClientId := s.nextClientId + 1 }.setStream s.nextClientId
    (.receiving (s.paneWindow.lookup pane))

/-- SRC: main.rs:1668-1682, engine.rs:1211-1237 -/
def reportViewport (s : Watching) (client rows cols : ℕ) : AttachStream → Option Watching
  | .receiving (some window) =>
    let (rows, cols) := clampViewport (min rows u16Max) (min cols u16Max)
    some ((s.registerViewport window client rows cols).setStream client (.reporting window .waiting))
  | .receiving none => some s
  | _ => none

/-- SRC: main.rs:1719-1722 -/
def endStream (s : Watching) (client : ℕ) : AttachStream → Option Watching
  | .receiving (some window) => some (s.setStream client (.sleeping window))
  | .receiving none => some (s.setStream client .done)
  | _ => none

/-- SRC: main.rs:1668-1743 -/
def advanceStream (s : Watching) (client : ℕ) : AttachStream → Option Watching
  | .reporting window stage => do
    match ← s.recompute client window stage with
    | (s, .continues stage) => return s.setStream client (.reporting window stage)
    | (s, .returns) => return s.setStream client (.receiving (some window))
    | (s, .panics) => return s.setStream client .dead
  | .sleeping window =>
    if s.sessionsPoisoned then some (s.setStream client .dead)
    else if s.panesPoisoned then
      some { s.setStream client .dead with sessionsPoisoned := true }
    else if (s.windowSnapshot window).isNone then some (s.setStream client .done)
    else some (s.setStream client (.unregistering window))
  | .unregistering window =>
    some ((s.unregisterViewport window client).setStream client (.cleaning window .waiting))
  | .cleaning window stage => do
    match ← s.recompute client window stage with
    | (s, .continues stage) => return s.setStream client (.cleaning window stage)
    | (s, .returns) => return s.setStream client .done
    | (s, .panics) => return s.setStream client .dead
  | _ => none

/-! ## The WatchWindow task -/

/-- A snapshot of the watched window for the task, which a poisoned lock ends. -/
def withSnapshot (s : Watching) (k : Option LayoutSnapshot → Watching) : Watching :=
  if s.sessionsPoisoned then { s with watch := .ended }
  else if s.panesPoisoned then { s with watch := .ended, sessionsPoisoned := true }
  else k (s.windowSnapshot s.watched)

def sendEvent (s : Watching) (layout : LayoutSnapshot) : Watching :=
  { s with
    events := s.events ++ [⟨layout, s.attachedClientCount s.watched⟩]
    watch := .receiving }

/-- A receiver that lags continues with the oldest tick that is still in the channel.
SRC: main.rs:1168-1212 -/
def advanceWatch (s : Watching) : WatchTask → Option Watching
  | .subscribed => some (s.withSnapshot fun
    | none => { s with watch := .receiving }
    | some layout => { s with watch := .first layout })
  | .first layout => some (s.sendEvent layout)
  | .receiving =>
    if s.pendingTicks = 0 then none
    else if watchChannelCapacity < s.pendingTicks then
      some { s with pendingTicks := watchChannelCapacity }
    else some { s with pendingTicks := s.pendingTicks - 1, watch := .ticked }
  | .ticked => some (s.withSnapshot fun
    | none => { s with watch := .ended }
    | some layout => { s with watch := .snapshot layout })
  | .snapshot layout => some (s.sendEvent layout)
  | .notStarted | .ended => none

/-! ## Runs -/

/-- A call starts. -/
def begin (s : Watching) (c : ℕ) (call : LayoutCall) : Option Watching :=
  if c ∈ s.calls then none else some (s.goto c call)

def step (s : Watching) : WatchingEvent → Option Watching
  | .splitPane c target orientation => s.begin c (.splitLookup target orientation)
  | .closePane c pane => s.begin c (.closeLookup pane)
  | .killSession c session => s.begin c (.killLayout session)
  | .advance c => (s.calls.lookup c).bind (s.advanceCall c)
  | .attach pane => some (s.attach pane)
  | .resize client rows cols => (s.streams.lookup client).bind (s.reportViewport client rows cols)
  | .endStream client => (s.streams.lookup client).bind (s.endStream client)
  | .stream client => (s.streams.lookup client).bind (s.advanceStream client)
  | .watchWindow =>
    match s.watch with
    | .notStarted => some { s with watch := .subscribed }
    | _ => none
  | .watch => s.advanceWatch s.watch

end Watching

end Tymux.Model
