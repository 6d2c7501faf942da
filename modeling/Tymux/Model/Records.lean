import Tymux.Model.Window
import Tymux.Model.Restart
import Mathlib.Data.List.AList
import Mathlib.Data.Finset.Basic

/-!
# The engine's calls and the stored records

`engine.rs` at the granularity of its locks, with the persistence behind it: the calls that change a
session take the sessions lock for the change, and `persist_session` takes the persist lock around
a snapshot of the session and the save. A call is a program counter with its local values; one step
of it ends where it takes the next lock, and a lock that is held across steps names its holder. A
panic releases and poisons the locks that its call holds, and whoever takes a poisoned lock panics
in turn.

The ids that a call draws are drawn where they first get into a map, as nobody can name them before.
Saves and deletes succeed. What a record keeps of each pane besides its id is left out.
-/

set_option autoImplicit false

namespace Tymux.Model

/-- SRC: engine.rs:29-38 -/
structure NamedWindow where
  id : Uuid
  name : String
  layout : LayoutNode
  rows : ℕ
  cols : ℕ
  deriving DecidableEq, Repr

/-- SRC: engine.rs:45-52 -/
structure NamedSession where
  name : String
  windows : List NamedWindow
  activeWindowId : Uuid
  defaultRestartPolicy : RestartPolicy
  deriving DecidableEq, Repr

/-- The leaf pane ids over all windows of a session. -/
def NamedSession.leaves (st : NamedSession) : List Uuid :=
  st.windows.flatMap fun w => w.layout.leaves

/-- SRC: persistence.rs:98-130 -/
structure SavedRecord where
  name : String
  windows : List (Uuid × String × LayoutNode)
  activeWindowId : Uuid
  defaultRestartPolicy : RestartPolicy
  deriving DecidableEq, Repr

/-- SRC: engine.rs:423-438, persistence.rs:132-160 -/
def NamedSession.record (st : NamedSession) : SavedRecord where
  name := st.name
  windows := st.windows.map fun w => (w.id, w.name, w.layout)
  activeWindowId := st.activeWindowId
  defaultRestartPolicy := st.defaultRestartPolicy

/-- What a `close_pane` has yet to do after its persist or its delete: the pane, and the window if it
closed. -/
abbrev Closing := Uuid × Option Uuid

/-- Where a call stands, with what it carries on. -/
inductive RecordCall where
  | createInsert (name : String) (policy : RestartPolicy)
  | createPane (session window pane : Uuid)
  | createRegister (session window pane : Uuid)
  | createIndex (session window pane : Uuid)
  | splitLookup (target : Uuid) (orientation : Orientation)
  | splitLayout (target : Uuid) (orientation : Orientation) (window session : Uuid)
  | splitPane (session window pane : Uuid)
  | splitRegister (session window pane : Uuid)
  | splitIndex (session window pane : Uuid)
  | splitSnapshot (session : Uuid)
  | splitSnapshotPanes (session : Uuid)
  | closeLookup (pane : Uuid)
  | closeLayout (pane window session : Uuid)
  | closeSnapshot (session : Uuid) (closing : Closing)
  | closeIndex (closing : Closing)
  | closePanes (pane : Uuid)
  | windowLayout (session : Uuid)
  | windowPane (session window pane : Uuid)
  | windowRegister (session window pane : Uuid)
  | windowIndex (session window pane : Uuid)
  | windowSnapshot (session : Uuid)
  | killLayout (session : Uuid)
  | killIndex (session : Uuid) (windows panes : List Uuid)
  | killPanes (session : Uuid) (panes : List Uuid)
  | killEach (session : Uuid) (panes : List Uuid)
  | policySession (session : Uuid) (policy : RestartPolicy) (applyToExisting : Bool)
  | policyEach (session : Uuid) (panes : List Uuid)
  | supervised (pane : Uuid)
  | resizeLookup (window rows cols : ℕ)
  | resizeWindow (session window rows cols : ℕ)
  /-- `persist_session`, up to the persist lock. -/
  | persist (session : Uuid) (closing : Option Closing)
  /-- The persist lock is held. -/
  | persistSessions (session : Uuid) (closing : Option Closing)
  /-- The persist lock and the sessions lock are held. -/
  | persistPanes (session : Uuid) (closing : Option Closing)
  /-- The snapshot is taken; the persist lock is held. -/
  | save (session : Uuid) (record : SavedRecord) (closing : Option Closing)
  | delete (session : Uuid) (closing : Option Closing)
  deriving DecidableEq, Repr

structure RecordState where
  sessions : AList fun _ : Uuid => NamedSession
  paneWindow : AList fun _ : Uuid => Uuid
  windowSession : AList fun _ : Uuid => Uuid
  /-- The panes that the supervision has an entry for. -/
  entries : Finset Uuid
  /-- The stored records. -/
  store : AList fun _ : Uuid => SavedRecord
  nextId : Uuid
  calls : AList fun _ : ℕ => RecordCall
  sessionsLock : Option ℕ
  panesLock : Option ℕ
  persistLock : Option ℕ
  sessionsPoisoned : Bool
  panesPoisoned : Bool
  persistPoisoned : Bool
  /-- Ghost: the sessions whose record was deleted at their end. -/
  deleted : Finset Uuid
  /-- Ghost: the window and the session a pane was made in. -/
  home : AList fun _ : Uuid => Uuid × Uuid
  /-- Ghost: the calls that set a session's policy and whose change is in no snapshot yet. -/
  owing : Finset (ℕ × Uuid)

inductive RecordEvent where
  | createSession (call : ℕ) (name : String) (policy : RestartPolicy)
  | splitPane (call : ℕ) (target : Uuid) (orientation : Orientation)
  | closePane (call : ℕ) (pane : Uuid)
  | createWindow (call : ℕ) (session : Uuid)
  | killSession (call : ℕ) (session : Uuid)
  | setSessionRestartPolicy (call : ℕ) (session : Uuid) (policy : RestartPolicy)
      (applyToExisting : Bool)
  /-- A change of the supervision of a pane, whose session is persisted. -/
  | supervisionPersist (call : ℕ) (pane : Uuid)
  /-- `recompute_window_geometry` with the size that it derives from the viewports. -/
  | recomputeWindow (call : ℕ) (window rows cols : ℕ)
  | advance (call : ℕ)
  deriving DecidableEq, Repr

namespace RecordState

def init : RecordState where
  sessions := ∅
  paneWindow := ∅
  windowSession := ∅
  entries := ∅
  store := ∅
  nextId := 0
  calls := ∅
  sessionsLock := none
  panesLock := none
  persistLock := none
  sessionsPoisoned := false
  panesPoisoned := false
  persistPoisoned := false
  deleted := ∅
  home := ∅
  owing := ∅

/-- SRC: engine.rs:401-413 -/
def windowAndSessionForPane (s : RecordState) (pane : Uuid) : Option (Uuid × Uuid) := do
  let window ← s.paneWindow.lookup pane
  let session ← s.windowSession.lookup window
  return (window, session)

/-- The call goes on at `next`. -/
def goto (s : RecordState) (c : ℕ) (next : RecordCall) : RecordState :=
  { s with calls := s.calls.insert c next }

/-- The call returns. -/
def finish (s : RecordState) (c : ℕ) : RecordState := { s with calls := s.calls.erase c }

/-- The call panics. -/
def panic (s : RecordState) (c : ℕ) : RecordState where
  __ := s.finish c
  sessionsPoisoned := s.sessionsPoisoned || s.sessionsLock = some c
  sessionsLock := if s.sessionsLock = some c then none else s.sessionsLock
  panesPoisoned := s.panesPoisoned || s.panesLock = some c
  panesLock := if s.panesLock = some c then none else s.panesLock
  persistPoisoned := s.persistPoisoned || s.persistLock = some c
  persistLock := if s.persistLock = some c then none else s.persistLock

/-- A step that takes the sessions lock. -/
def withSessions (s : RecordState) (c : ℕ) (k : Option RecordState) : Option RecordState :=
  if s.sessionsPoisoned then some (s.panic c) else if s.sessionsLock = none then k else none

def withPanes (s : RecordState) (c : ℕ) (k : Option RecordState) : Option RecordState :=
  if s.panesPoisoned then some (s.panic c) else if s.panesLock = none then k else none

def withPersist (s : RecordState) (c : ℕ) (k : Option RecordState) : Option RecordState :=
  if s.persistPoisoned then some (s.panic c) else if s.persistLock = none then k else none

/-! ## Changes of a session -/

def newWindow (window : Uuid) (name : String) (pane : Uuid) : NamedWindow :=
  ⟨window, name, .leaf pane, defaultRows, defaultCols⟩

/-- The split of one window among the windows of a session: the outer `Option` is a panic, the
inner one an error.
SRC: engine.rs:689-714 -/
def splitWindow (target : Uuid) (orientation : Orientation) (pane window : Uuid) :
    List NamedWindow → Option (Option (List NamedWindow))
  | [] => some none
  | w :: ws =>
    if w.id = window then do
      match ← w.layout.split? target orientation pane w.rows w.cols with
      | .error _ => return none
      | .ok layout => return some ({ w with layout } :: ws)
    else do
      let rest ← splitWindow target orientation pane window ws
      return rest.map (w :: ·)

/-- The removal of a pane from its window: the remaining windows, and the window if it closed.
SRC: engine.rs:751-774 -/
def closeWindow (pane window : Uuid) : List NamedWindow → Option (List NamedWindow × Option Uuid)
  | [] => none
  | w :: ws =>
    if w.id = window then
      match w.layout.remove pane with
      | .collapsed layout => some ({ w with layout } :: ws, none)
      | .windowEmpty => some (ws, some w.id)
    else (closeWindow pane window ws).map fun r => (w :: r.1, r.2)

/-- SRC: engine.rs:781-785 -/
def closedSession (st : NamedSession) (windows : List NamedWindow) (windowClosed : Option Uuid) :
    NamedSession where
  __ := st
  windows := windows
  activeWindowId := match windows, windowClosed with
    | w :: _, some _ => w.id
    | _, _ => st.activeWindowId

/-- SRC: engine.rs:878-886 -/
def addWindow (st : NamedSession) (window pane : Uuid) : NamedSession where
  __ := st
  windows := st.windows ++ [newWindow window (toString st.windows.length) pane]
  activeWindowId := window

/-- SRC: engine.rs:1301-1310 -/
def sizeWindow (st : NamedSession) (window rows cols : ℕ) : NamedSession where
  __ := st
  windows := st.windows.map fun w => if w.id = window then { w with rows := rows, cols := cols } else w

def setSession (s : RecordState) (session : Uuid) (st : NamedSession) : RecordState :=
  { s with sessions := s.sessions.insert session st }

/-! ## The steps of a call -/

/-- After its persist or its delete a call returns, or goes on to close its pane. -/
def afterPersist (s : RecordState) (c : ℕ) : Option Closing → RecordState
  | none => s.finish c
  | some closing => s.goto c (.closeIndex closing)

/-- SRC: engine.rs:470-522 -/
def advanceCreate (s : RecordState) (c : ℕ) : RecordCall → Option RecordState
  | .createInsert name policy => s.withSessions c <|
      let (session, window, pane) := (s.nextId, s.nextId + 1, s.nextId + 2)
      some ({ s with
        sessions := s.sessions.insert session ⟨name, [newWindow window "0" pane], window, policy⟩
        nextId := s.nextId + 3
        home := s.home.insert pane (window, session) }.goto c (.createPane session window pane))
  | .createPane session window pane => s.withPanes c <|
      some (s.goto c (.createRegister session window pane))
  | .createRegister session window pane =>
      some ({ s with entries := insert pane s.entries }.goto c (.createIndex session window pane))
  | .createIndex session window pane =>
      some ({ s with
        windowSession := s.windowSession.insert window session
        paneWindow := s.paneWindow.insert pane window }.goto c (.persist session none))
  | _ => none

/-- SRC: engine.rs:675-736 -/
def advanceSplit (s : RecordState) (c : ℕ) : RecordCall → Option RecordState
  | .splitLookup target orientation =>
      match s.windowAndSessionForPane target with
      | none => some (s.finish c)
      | some (window, session) => some (s.goto c (.splitLayout target orientation window session))
  | .splitLayout target orientation window session => s.withSessions c <|
      match s.sessions.lookup session with
      | none => some (s.finish c)
      | some st =>
        let pane := s.nextId
        match splitWindow target orientation pane window st.windows with
        | none => some ({ s with sessionsLock := some c }.panic c)
        | some none => some (s.finish c)
        | some (some windows) =>
          some ({ s.setSession session { st with windows } with
            nextId := s.nextId + 1
            home := s.home.insert pane (window, session) }.goto c (.splitPane session window pane))
  | .splitPane session window pane => s.withPanes c <|
      some (s.goto c (.splitRegister session window pane))
  | .splitRegister session window pane =>
      some ({ s with entries := insert pane s.entries }.goto c (.splitIndex session window pane))
  | .splitIndex session window pane =>
      some ({ s with paneWindow := s.paneWindow.insert pane window }.goto c (.splitSnapshot session))
  | .splitSnapshot session => s.withSessions c <|
      some ({ s with sessionsLock := some c }.goto c (.splitSnapshotPanes session))
  | .splitSnapshotPanes session => s.withPanes c <|
      -- `sessions[&session_id]` with both locks held
      if session ∈ s.sessions then
        some ({ s with sessionsLock := none }.goto c (.persist session none))
      else some ({ s with panesLock := some c }.panic c)
  | _ => none

/-- SRC: engine.rs:742-848 -/
def advanceClose (s : RecordState) (c : ℕ) : RecordCall → Option RecordState
  | .closeLookup pane =>
      match s.windowAndSessionForPane pane with
      | none => some (s.finish c)
      | some (window, session) => some (s.goto c (.closeLayout pane window session))
  | .closeLayout pane window session => s.withSessions c <|
      match s.sessions.lookup session with
      | none => some (s.finish c)
      | some st =>
        match closeWindow pane window st.windows with
        | none => some (s.finish c)
        | some ([], windowClosed) =>
          some ({ s with sessions := s.sessions.erase session }.goto c
            (.delete session (some (pane, windowClosed))))
        | some (w :: ws, windowClosed) =>
          some ({ s.setSession session (closedSession st (w :: ws) windowClosed) with
            sessionsLock := some c }.goto c (.closeSnapshot session (pane, windowClosed)))
  | .closeSnapshot session closing => s.withPanes c <|
      if session ∈ s.sessions then
        some ({ s with sessionsLock := none }.goto c (.persist session (some closing)))
      else some ({ s with panesLock := some c }.panic c)
  | .closeIndex (pane, windowClosed) =>
      some ({ s with
        paneWindow := s.paneWindow.erase pane
        windowSession := windowClosed.elim s.windowSession s.windowSession.erase }.goto c
          (.closePanes pane))
  | .closePanes pane => s.withPanes c <|
      some ({ s with entries := s.entries.erase pane }.finish c)
  | _ => none

/-- SRC: engine.rs:851-893 -/
def advanceWindow (s : RecordState) (c : ℕ) : RecordCall → Option RecordState
  | .windowLayout session => s.withSessions c <|
      match s.sessions.lookup session with
      | none => some (s.finish c)
      | some st =>
        let (window, pane) := (s.nextId, s.nextId + 1)
        some ({ s.setSession session (addWindow st window pane) with
          nextId := s.nextId + 2
          home := s.home.insert pane (window, session)
          sessionsLock := some c }.goto c (.windowPane session window pane))
  | .windowPane session window pane => s.withPanes c <|
      some (s.goto c (.windowRegister session window pane))
  | .windowRegister session window pane =>
      some ({ s with entries := insert pane s.entries }.goto c (.windowIndex session window pane))
  | .windowIndex session window pane =>
      some ({ s with
        windowSession := s.windowSession.insert window session
        paneWindow := s.paneWindow.insert pane window }.goto c (.windowSnapshot session))
  | .windowSnapshot session => s.withPanes c <|
      if session ∈ s.sessions then
        some ({ s with sessionsLock := none }.goto c (.persist session none))
      else some ({ s with panesLock := some c }.panic c)
  | _ => none

/-- SRC: engine.rs:588-628 -/
def advanceKill (s : RecordState) (c : ℕ) : RecordCall → Option RecordState
  | .killLayout session => s.withSessions c <|
      match s.sessions.lookup session with
      | none => some (s.finish c)
      | some st =>
        some ({ s with sessions := s.sessions.erase session }.goto c
          (.killIndex session (st.windows.map NamedWindow.id) st.leaves))
  | .killIndex session windows panes =>
      some ({ s with
        windowSession := windows.foldl (fun m w => m.erase w) s.windowSession
        paneWindow := panes.foldl (fun m p => m.erase p) s.paneWindow }.goto c
          (.killPanes session panes))
  | .killPanes session panes => s.withPanes c <|
      some ({ s with panesLock := some c }.goto c (.killEach session panes))
  | .killEach session [] => some ({ s with panesLock := none }.goto c (.delete session none))
  | .killEach session (pane :: panes) =>
      some ({ s with entries := s.entries.erase pane }.goto c (.killEach session panes))
  | _ => none

/-- SRC: engine.rs:1131-1160, engine.rs:1042-1045, engine.rs:1293-1343 -/
def advanceChange (s : RecordState) (c : ℕ) : RecordCall → Option RecordState
  | .policySession session policy applyToExisting => s.withSessions c <|
      match s.sessions.lookup session with
      | none => some (s.finish c)
      | some st =>
        some ({ s.setSession session { st with defaultRestartPolicy := policy } with
          owing := insert (c, session) s.owing }.goto c
            (.policyEach session (if applyToExisting then st.leaves else [])))
  | .policyEach session [] => some (s.goto c (.persist session none))
  | .policyEach session (pane :: panes) =>
      -- `supervision.set_policy(..)?` returns early for a pane without an entry
      if pane ∈ s.entries then some (s.goto c (.policyEach session panes)) else some (s.finish c)
  | .supervised pane =>
      match s.windowAndSessionForPane pane with
      | none => some (s.finish c)
      | some (_, session) => some (s.goto c (.persist session none))
  | .resizeLookup window rows cols =>
      match s.windowSession.lookup window with
      | none => some (s.finish c)
      | some session => some (s.goto c (.resizeWindow session window rows cols))
  | .resizeWindow session window rows cols => s.withSessions c <|
      match s.sessions.lookup session with
      | none => some (s.finish c)
      | some st =>
        if window ∈ st.windows.map NamedWindow.id then
          some ((s.setSession session (sizeWindow st window rows cols)).goto c
            (.persist session none))
        else some (s.finish c)
  | _ => none

/-- SRC: engine.rs:1042-1056, engine.rs:440-446, engine.rs:625-626, engine.rs:803-806 -/
def advancePersist (s : RecordState) (c : ℕ) : RecordCall → Option RecordState
  | .persist session closing => s.withPersist c <|
      some ({ s with persistLock := some c }.goto c (.persistSessions session closing))
  | .persistSessions session closing => s.withSessions c <|
      some ({ s with sessionsLock := some c }.goto c (.persistPanes session closing))
  | .persistPanes session closing => s.withPanes c <|
      match s.sessions.lookup session with
      | none =>
        some ({ s with sessionsLock := none, persistLock := none }.afterPersist c closing)
      | some st =>
        some ({ s with
          sessionsLock := none
          owing := s.owing.filter fun o => o.2 ≠ session }.goto c (.save session st.record closing))
  | .save session record closing =>
      some ({ s with
        store := s.store.insert session record
        persistLock := none }.afterPersist c closing)
  | .delete session closing => s.withPersist c <|
      some ({ s with
        store := s.store.erase session
        deleted := insert session s.deleted }.afterPersist c closing)
  | _ => none

def advanceCall (s : RecordState) (c : ℕ) (pc : RecordCall) : Option RecordState :=
  match pc with
  | .createInsert .. | .createPane .. | .createRegister .. | .createIndex .. => s.advanceCreate c pc
  | .splitLookup .. | .splitLayout .. | .splitPane .. | .splitRegister .. | .splitIndex ..
  | .splitSnapshot .. | .splitSnapshotPanes .. => s.advanceSplit c pc
  | .closeLookup .. | .closeLayout .. | .closeSnapshot .. | .closeIndex .. | .closePanes .. =>
    s.advanceClose c pc
  | .windowLayout .. | .windowPane .. | .windowRegister .. | .windowIndex .. | .windowSnapshot .. =>
    s.advanceWindow c pc
  | .killLayout .. | .killIndex .. | .killPanes .. | .killEach .. => s.advanceKill c pc
  | .policySession .. | .policyEach .. | .supervised .. | .resizeLookup .. | .resizeWindow .. =>
    s.advanceChange c pc
  | .persist .. | .persistSessions .. | .persistPanes .. | .save .. | .delete .. =>
    s.advancePersist c pc

/-- A call begins. -/
def begin (s : RecordState) (c : ℕ) (first : RecordCall) : Option RecordState :=
  if c ∈ s.calls then none else some (s.goto c first)

/-- A call with a policy returns at once if the policy is invalid. -/
def beginValid (s : RecordState) (c : ℕ) (policy : RestartPolicy) (first : RecordCall) :
    Option RecordState :=
  match policy.validate with
  | .error _ => some s
  | .ok () => s.begin c first

def step (s : RecordState) : RecordEvent → Option RecordState
  | .createSession c name policy => s.beginValid c policy (.createInsert name policy)
  | .splitPane c target orientation => s.begin c (.splitLookup target orientation)
  | .closePane c pane => s.begin c (.closeLookup pane)
  | .createWindow c session => s.begin c (.windowLayout session)
  | .killSession c session => s.begin c (.killLayout session)
  | .setSessionRestartPolicy c session policy applyToExisting =>
    s.beginValid c policy (.policySession session policy applyToExisting)
  | .supervisionPersist c pane => s.begin c (.supervised pane)
  | .recomputeWindow c window rows cols =>
    let (rows, cols) := clampViewport rows cols
    s.begin c (.resizeLookup window rows cols)
  | .advance c => (s.calls.lookup c).bind (s.advanceCall c)

/-- The session that an event indexes with `sessions[&session_id]`, the locks being free. -/
def indexed (s : RecordState) : RecordEvent → Option Uuid
  | .advance c =>
    if s.panesPoisoned || s.panesLock ≠ none then none
    else match s.calls.lookup c with
      | some (.splitSnapshotPanes session) | some (.closeSnapshot session _)
      | some (.windowSnapshot session) => some session
      | _ => none
  | _ => none

end RecordState

end Tymux.Model
