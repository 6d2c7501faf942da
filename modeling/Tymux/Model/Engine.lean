import Tymux.Model.Window
import Tymux.Lib.Run
import Mathlib.Data.List.AList
import Mathlib.Data.Finset.Basic

/-!
# The engine's maps and its concurrent calls

`engine.rs` at the granularity of its locks. The engine keeps the sessions with their windows
and layout trees, the panes, and the reverse index from a pane to its window and session; the
supervision keeps an entry for every pane it may restart. A call is a program counter with its
local values, and one step of it ends where it takes the next lock: a critical section is one
step, or, where the source takes a second lock inside, several steps during which the first
lock is held. The spawn that precedes the first lock belongs to the start of the call.

A panic while a lock is held poisons it, and every later call that wants it panics in turn.
What a call does to the persisted records after its last section is left out, and so are the
names and the restart policies.
-/

set_option autoImplicit false

namespace Tymux.Model

/-- SRC: engine.rs:29-38 -/
structure SessionWindow extends WindowState where
  id : Uuid
  deriving DecidableEq, Repr

/-- SRC: engine.rs:45-52 -/
structure SessionState where
  windows : List SessionWindow
  activeWindowId : Uuid
  deriving DecidableEq, Repr

/-- The leaf pane ids over all windows of a session. -/
def SessionState.leaves (st : SessionState) : List Uuid :=
  st.windows.flatMap fun w => w.layout.leaves

/-- SRC: engine.rs:60-63 -/
inductive PaneEntry where
  | live
  | dead
  deriving DecidableEq, Repr

/-- Where a call stands, with what it carries on. -/
inductive Call where
  | createInsertSession (pane window session : Uuid)
  | createInsertPane (pane window session : Uuid)
  | createRegister (pane window session : Uuid)
  | createIndex (pane window session : Uuid)
  | splitLookup (target : Uuid) (orientation : Orientation) (pane : Uuid)
  | splitLayout (target : Uuid) (orientation : Orientation) (pane window session : Uuid)
  | splitInsertPane (pane window session : Uuid)
  | splitRegister (pane window session : Uuid)
  | splitIndex (pane window session : Uuid)
  | splitSnapshot (session : Uuid)
  | splitSnapshotPanes (session : Uuid)
  | closeLookup (pane : Uuid)
  | closeLayout (pane window session : Uuid)
  | closeSnapshot (pane : Uuid) (windowClosed : Option Uuid)
  | closeIndex (pane : Uuid) (windowClosed : Option Uuid)
  | closePanes (pane : Uuid)
  | windowLayout (session pane window : Uuid)
  | windowInsertPane (session pane window : Uuid)
  | windowRegister (session pane window : Uuid)
  | windowIndex (session pane window : Uuid)
  | windowSnapshot
  | killLayout (session : Uuid)
  | killIndex (windows panes : List Uuid)
  | killPanes (panes : List Uuid)
  | killEach (panes : List Uuid)
  | reviveCollect (session : Uuid)
  | reviveCheck (panes : List Uuid)
  | startEach (panes : List Uuid)
  | startSupervised (pane : Uuid) (panes : List Uuid)
  deriving DecidableEq, Repr

/-- SRC: engine.rs:232-303 -/
structure EngineState where
  sessions : AList fun _ : Uuid => SessionState
  panes : AList fun _ : Uuid => PaneEntry
  paneWindow : AList fun _ : Uuid => Uuid
  windowSession : AList fun _ : Uuid => Uuid
  /-- The panes that the supervision can restart: it has an entry with a handle on the pane. -/
  supervised : Finset Uuid
  /-- The panes whose process was started and neither exited nor was killed. -/
  running : Finset Uuid
  nextId : Uuid
  calls : AList fun _ : ℕ => Call
  sessionsLock : Option ℕ
  panesLock : Option ℕ
  sessionsPoisoned : Bool
  panesPoisoned : Bool

inductive EngineEvent where
  | createSession (call : ℕ)
  | splitPane (call : ℕ) (target : Uuid) (orientation : Orientation)
  | closePane (call : ℕ) (pane : Uuid)
  | createWindow (call : ℕ) (session : Uuid)
  | killSession (call : ℕ) (session : Uuid)
  | startPane (call : ℕ) (pane : Uuid)
  | reviveSession (call : ℕ) (session : Uuid)
  /-- The call takes its next step; `spawns` is false if the launch of a process fails, or if
  a revive leaves the pane as it is. -/
  | advance (call : ℕ) (spawns : Bool)
  /-- The process of a pane exits. -/
  | exit (pane : Uuid)
  /-- The supervisor restarts a pane. -/
  | restartDue (pane : Uuid)
  deriving DecidableEq, Repr

namespace EngineState

/-- An engine with the sessions of the last daemon, all of their panes dead.
SRC: engine.rs:348-399 -/
def loaded (sessions : AList fun _ : Uuid => SessionState) (nextId : Uuid) : EngineState where
  sessions
  panes := (sessions.entries.flatMap fun e => e.2.leaves).foldl (fun m p => m.insert p .dead) ∅
  paneWindow := (sessions.entries.flatMap fun e => e.2.windows.flatMap fun w =>
    w.layout.leaves.map (·, w.id)).foldl (fun m e => m.insert e.1 e.2) ∅
  windowSession := (sessions.entries.flatMap fun e => e.2.windows.map (·.id, e.1)).foldl
    (fun m e => m.insert e.1 e.2) ∅
  supervised := ∅
  running := ∅
  nextId
  calls := ∅
  sessionsLock := none
  panesLock := none
  sessionsPoisoned := false
  panesPoisoned := false

/-- The leaf pane ids over all windows of all sessions. -/
def leafIds (s : EngineState) : List Uuid :=
  s.sessions.entries.flatMap fun e => e.2.leaves

/-- SRC: engine.rs:405-414 -/
def windowAndSessionForPane (s : EngineState) (pane : Uuid) : Option (Uuid × Uuid) := do
  let window ← s.paneWindow.lookup pane
  let session ← s.windowSession.lookup window
  return (window, session)

/-- The call goes on at `next`. -/
def goto (s : EngineState) (c : ℕ) (next : Call) : EngineState :=
  { s with calls := s.calls.insert c next }

/-- The call returns. -/
def finish (s : EngineState) (c : ℕ) : EngineState := { s with calls := s.calls.erase c }

/-! ## Layout changes -/

/-- The split of one window among the windows of a session: the outer `Option` is a panic, the
inner one an error.
SRC: engine.rs:689-714 -/
def splitWindow (target : Uuid) (orientation : Orientation) (pane window : Uuid) :
    List SessionWindow → Option (Option (List SessionWindow))
  | [] => some none
  | w :: ws =>
    if w.id = window then do
      match ← w.layout.split? target orientation pane w.rows w.cols with
      | .error _ => return none
      | .ok layout => return some ({ w with layout } :: ws)
    else do
      let rest ← splitWindow target orientation pane window ws
      return rest.map (w :: ·)

/-- The removal of a pane from its window: the remaining windows, and the window if it closed.
SRC: engine.rs:747-774 -/
def closeWindow (pane window : Uuid) :
    List SessionWindow → Option (List SessionWindow × Option Uuid)
  | [] => none
  | w :: ws =>
    if w.id = window then
      match w.layout.remove pane with
      | .collapsed layout => some ({ w with layout } :: ws, none)
      | .windowEmpty => some (ws, some w.id)
    else (closeWindow pane window ws).map fun r => (w :: r.1, r.2)

/-- SRC: engine.rs:776-800 -/
def closedSession (session : SessionState) (windows : List SessionWindow)
    (windowClosed : Option Uuid) : SessionState where
  windows
  activeWindowId := match windows, windowClosed with
    | w :: _, some _ => w.id
    | _, _ => session.activeWindowId

def newWindow (window pane : Uuid) : SessionWindow where
  id := window
  layout := .leaf pane
  rows := defaultRows
  cols := defaultCols

/-- `forget`, the removal from the panes, and the kill.
SRC: engine.rs:614-624, 826-831 -/
def erasePane (s : EngineState) (pane : Uuid) : EngineState where
  __ := s
  supervised := s.supervised.erase pane
  panes := s.panes.erase pane
  running := if s.panes.lookup pane = some .live then s.running.erase pane else s.running

/-! ## The steps of a call -/

/-- A step with the sessions lock: blocked while it is held, a panic if it is poisoned. -/
def withSessions (s : EngineState) (c : ℕ) (k : Option EngineState) : Option EngineState :=
  if s.sessionsPoisoned then some (s.finish c)
  else if s.sessionsLock = none then k else none

/-- The same for the panes lock. The panic releases the sessions lock if the call holds it. -/
def withPanes (s : EngineState) (c : ℕ) (k : Option EngineState) : Option EngineState :=
  if s.panesPoisoned then
    some { s.finish c with
      sessionsPoisoned := s.sessionsPoisoned || s.sessionsLock = some c
      sessionsLock := if s.sessionsLock = some c then none else s.sessionsLock }
  else if s.panesLock = none then k else none

/-- SRC: engine.rs:470-1036 -/
def advanceCall (s : EngineState) (c : ℕ) (spawns : Bool) : Call → Option EngineState
  | .createInsertSession pane window session => s.withSessions c <|
      some ({ s with
        sessions := s.sessions.insert session ⟨[newWindow window pane], window⟩ }.goto c
          (.createInsertPane pane window session))
  | .createInsertPane pane window session => s.withPanes c <|
      some ({ s with panes := s.panes.insert pane .live }.goto c
        (.createRegister pane window session))
  | .createRegister pane window session =>
      some ({ s with supervised := insert pane s.supervised }.goto c
        (.createIndex pane window session))
  | .createIndex pane window session =>
      some ({ s with
        windowSession := s.windowSession.insert window session
        paneWindow := s.paneWindow.insert pane window }.finish c)
  | .splitLookup target orientation pane =>
      match s.windowAndSessionForPane target with
      | none => some (s.finish c)
      | some (window, session) =>
        some (s.goto c (.splitLayout target orientation pane window session))
  | .splitLayout target orientation pane window session => s.withSessions c <|
      match s.sessions.lookup session with
      | none => some (s.finish c)
      | some st =>
        match splitWindow target orientation pane window st.windows with
        | none => some { s.finish c with sessionsPoisoned := true }
        | some none => some (s.finish c)
        | some (some windows) =>
          some ({ s with sessions := s.sessions.insert session { st with windows } }.goto c
            (.splitInsertPane pane window session))
  | .splitInsertPane pane window session => s.withPanes c <|
      some ({ s with panes := s.panes.insert pane .live }.goto c
        (.splitRegister pane window session))
  | .splitRegister pane window session =>
      some ({ s with supervised := insert pane s.supervised }.goto c
        (.splitIndex pane window session))
  | .splitIndex pane window session =>
      some ({ s with paneWindow := s.paneWindow.insert pane window }.goto c
        (.splitSnapshot session))
  | .splitSnapshot session => s.withSessions c <|
      some ({ s with sessionsLock := some c }.goto c (.splitSnapshotPanes session))
  | .splitSnapshotPanes session => s.withPanes c <|
      -- `sessions[&session_id]` panics with both locks held
      if (s.sessions.lookup session).isSome then
        some ({ s with sessionsLock := none }.finish c)
      else some { s.finish c with
        sessionsLock := none
        sessionsPoisoned := true
        panesPoisoned := true }
  | .closeLookup pane =>
      match s.windowAndSessionForPane pane with
      | none => some (s.finish c)
      | some (window, session) => some (s.goto c (.closeLayout pane window session))
  | .closeLayout pane window session => s.withSessions c <|
      match s.sessions.lookup session with
      | none => some (s.finish c)
      | some st =>
        match closeWindow pane window st.windows with
        | none => some (s.finish c)
        | some ([], windowClosed) =>
          some ({ s with sessions := s.sessions.erase session }.goto c
            (.closeIndex pane windowClosed))
        | some (w :: ws, windowClosed) =>
          some ({ s with
            sessions := s.sessions.insert session (closedSession st (w :: ws) windowClosed)
            sessionsLock := some c }.goto c (.closeSnapshot pane windowClosed))
  | .closeSnapshot pane windowClosed => s.withPanes c <|
      some ({ s with sessionsLock := none }.goto c (.closeIndex pane windowClosed))
  | .closeIndex pane windowClosed =>
      some ({ s with
        paneWindow := s.paneWindow.erase pane
        windowSession := windowClosed.elim s.windowSession s.windowSession.erase }.goto c
          (.closePanes pane))
  | .closePanes pane => s.withPanes c <| some ((s.erasePane pane).finish c)
  | .windowLayout session pane window => s.withSessions c <|
      match s.sessions.lookup session with
      | none => some (s.finish c)
      | some st =>
        some ({ s with
          sessions := s.sessions.insert session ⟨st.windows ++ [newWindow window pane], window⟩
          sessionsLock := some c }.goto c (.windowInsertPane session pane window))
  | .windowInsertPane session pane window => s.withPanes c <|
      some ({ s with panes := s.panes.insert pane .live }.goto c
        (.windowRegister session pane window))
  | .windowRegister session pane window =>
      some ({ s with supervised := insert pane s.supervised }.goto c
        (.windowIndex session pane window))
  | .windowIndex session pane window =>
      some ({ s with
        windowSession := s.windowSession.insert window session
        paneWindow := s.paneWindow.insert pane window }.goto c .windowSnapshot)
  | .windowSnapshot => s.withPanes c <| some ({ s with sessionsLock := none }.finish c)
  | .killLayout session => s.withSessions c <|
      match s.sessions.lookup session with
      | none => some (s.finish c)
      | some st =>
        some ({ s with sessions := s.sessions.erase session }.goto c
          (.killIndex (st.windows.map SessionWindow.id) st.leaves))
  | .killIndex windows panes =>
      some ({ s with
        windowSession := windows.foldl (fun m w => m.erase w) s.windowSession
        paneWindow := panes.foldl (fun m p => m.erase p) s.paneWindow }.goto c (.killPanes panes))
  | .killPanes panes => s.withPanes c <|
      some ({ s with panesLock := some c }.goto c (.killEach panes))
  | .killEach [] => some ({ s with panesLock := none }.finish c)
  | .killEach (pane :: panes) => some ((s.erasePane pane).goto c (.killEach panes))
  | .reviveCollect session => s.withSessions c <|
      match s.sessions.lookup session with
      | none => some (s.finish c)
      | some st =>
        some (s.goto c (.reviveCheck st.leaves))
  | .reviveCheck panes => s.withPanes c <|
      if panes.any fun p => s.panes.lookup p = some .live ∧ p ∈ s.running then
        some (s.finish c)
      else some (s.goto c (.startEach panes))
  | .startEach [] => some (s.finish c)
  | .startEach (pane :: panes) => s.withPanes c <|
      match s.panes.lookup pane with
      | none => some (s.goto c (.startEach panes))
      | some .live =>
        if pane ∈ s.running then some (s.goto c (.startEach panes))
        else some (s.goto c (.startSupervised pane panes))
      | some .dead =>
        if spawns then
          some ({ s with
            panes := s.panes.insert pane .live
            supervised := insert pane s.supervised
            running := insert pane s.running }.goto c (.startEach panes))
        else some (s.goto c (.startEach panes))
  | .startSupervised pane panes =>
      if spawns ∧ pane ∈ s.supervised then
        some ({ s with running := insert pane s.running }.goto c (.startEach panes))
      else some (s.goto c (.startEach panes))

/-- A call begins. -/
def begin (s : EngineState) (c : ℕ) (first : Call) : Option EngineState :=
  if c ∈ s.calls then none else some (s.goto c first)

/-- The spawn of a new pane: an unused id, with its process running. -/
def spawn (s : EngineState) : EngineState where
  __ := s
  running := insert s.nextId s.running
  nextId := s.nextId + 3

def step (s : EngineState) : EngineEvent → Option EngineState
  | .createSession c =>
    s.spawn.begin c (.createInsertSession s.nextId (s.nextId + 1) (s.nextId + 2))
  | .splitPane c target orientation => s.spawn.begin c (.splitLookup target orientation s.nextId)
  | .closePane c pane => s.begin c (.closeLookup pane)
  | .createWindow c session =>
    s.spawn.begin c (.windowLayout session s.nextId (s.nextId + 1))
  | .killSession c session => s.begin c (.killLayout session)
  | .startPane c pane => s.begin c (.startEach [pane])
  | .reviveSession c session => s.begin c (.reviveCollect session)
  | .advance c spawns => (s.calls.lookup c).bind (s.advanceCall c spawns)
  | .exit pane => if pane ∈ s.running then some { s with running := s.running.erase pane } else none
  | .restartDue pane =>
    if pane ∈ s.supervised ∧ pane ∉ s.running then
      some { s with running := insert pane s.running }
    else none

end EngineState

end Tymux.Model
