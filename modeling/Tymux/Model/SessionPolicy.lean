import Tymux.Model.Records
import Tymux.Model.EngineCalls

/-!
# The restart policy of a session

`set_session_restart_policy` of `engine.rs` between the steps of `split_pane` and `close_pane`: the
default changes in one section of the sessions lock, which also lists the panes, each pane gets the
policy in a section of the supervision lock, and the session is persisted in the end. One call sets
policies at a time, and sessions and windows are created when none does. What else happens to a pane
(an exit, a restart, a stop) may change its supervisor in any way that keeps the policy.

A call that finds a lock poisoned panics; here it goes on, so that there are more runs than in the
source. The snapshots that the calls return are left out, and what a record says besides the
policies.
-/

set_option autoImplicit false

namespace Tymux.Model

/-- What a record says of the policies: the default is left out when it is the default of a policy,
and each leaf has the state of its supervisor.
SRC: persistence.rs:94-157, 186-239 -/
structure PolicyRecord where
  defaultRestartPolicy : Option RestartPolicy
  panes : List (Uuid × Option PersistedRestartState)
  deriving DecidableEq, Repr

/-- `unwrap_or_default`
SRC: engine.rs:376-396 -/
def PolicyRecord.default (r : PolicyRecord) : RestartPolicy :=
  r.defaultRestartPolicy.getD RestartPolicy.default

/-- Where a `split_pane` or a `close_pane` stands. -/
inductive PolicyCall where
  | splitLookup (target : Uuid) (orientation : Orientation)
  | splitLayout (target : Uuid) (orientation : Orientation) (window session : Uuid)
  | splitRegister (session window pane : Uuid) (policy : RestartPolicy)
  | splitIndex (session window pane : Uuid)
  | closeLookup (pane : Uuid)
  | closeLayout (pane window session : Uuid)
  | closeIndex (closing : Closing)
  | closePanes (pane : Uuid)
  /-- `persist_session`, up to its snapshot. -/
  | persist (session : Uuid) (closing : Option Closing)
  /-- The snapshot is taken; the persist lock is held. -/
  | save (session : Uuid) (record : PolicyRecord) (closing : Option Closing)
  | delete (session : Uuid) (closing : Option Closing)
  deriving DecidableEq, Repr

/-- Where the `set_session_restart_policy` stands. -/
inductive PolicySetter where
  | idle
  | collect (session : Uuid) (policy : RestartPolicy) (applyToExisting : Bool)
  | each (session : Uuid) (policy : RestartPolicy) (panes : List Uuid)
  | persist (session : Uuid)
  | save (session : Uuid) (record : PolicyRecord)
  /-- The call has returned in the last step. -/
  | returned (result : Except CallError Unit)
  deriving DecidableEq, Repr

abbrev Supervisors := AList fun _ : Uuid => PaneSupervisor

/-- The last `set_session_restart_policy`: its arguments, what it found, and the panes that have been
leaves of the session since it began. -/
structure PolicyAttempt where
  session : Uuid
  policy : RestartPolicy
  applyToExisting : Bool
  defaultBefore : Option RestartPolicy
  before : Supervisors
  throughout : List Uuid

structure PolicyState where
  sessions : AList fun _ : Uuid => NamedSession
  paneWindow : AList fun _ : Uuid => Uuid
  windowSession : AList fun _ : Uuid => Uuid
  supervision : Supervisors
  /-- The stored records. -/
  store : AList fun _ : Uuid => PolicyRecord
  nextId : Uuid
  calls : AList fun _ : ℕ => PolicyCall
  setter : PolicySetter
  /-- The persist lock is held. -/
  persisting : Bool
  /-- Ghost: the window and the session a pane was made in. -/
  home : AList fun _ : Uuid => Uuid × Uuid
  /-- Ghost. -/
  attempt : PolicyAttempt

inductive PolicyEvent where
  | createSession (name : String) (policy : RestartPolicy) (now : ℕ)
  | createWindow (session : Uuid) (now : ℕ)
  | splitPane (call : ℕ) (target : Uuid) (orientation : Orientation)
  | closePane (call : ℕ) (pane : Uuid)
  /-- The next step of a `split_pane` or a `close_pane`. -/
  | advance (call : ℕ) (now : ℕ)
  | setSessionRestartPolicy (session : Uuid) (policy : RestartPolicy) (applyToExisting : Bool)
  /-- The next step of the `set_session_restart_policy`. -/
  | set
  /-- An exit, a restart, a stop or a start of the pane. -/
  | supervise (pane : Uuid) (next : PaneSupervisor)
  deriving DecidableEq, Repr

namespace PolicyState

def init : PolicyState where
  sessions := ∅
  paneWindow := ∅
  windowSession := ∅
  supervision := ∅
  store := ∅
  nextId := 0
  calls := ∅
  setter := .idle
  persisting := false
  home := ∅
  attempt := ⟨0, RestartPolicy.default, false, none, ∅, []⟩

/-- SRC: engine.rs:401-413 -/
def windowAndSessionForPane (s : PolicyState) (pane : Uuid) : Option (Uuid × Uuid) := do
  let window ← s.paneWindow.lookup pane
  let session ← s.windowSession.lookup window
  return (window, session)

/-- SRC: supervision.rs:101-114 -/
def registered (policy : RestartPolicy) (now : ℕ) : PaneSupervisor :=
  (PaneSupervisor.new policy).onStarted now

/-- SRC: engine.rs:423-438, supervision.rs:302-308 -/
def snapshotPersistedRecord (s : PolicyState) (st : NamedSession) : PolicyRecord where
  defaultRestartPolicy := (some st.defaultRestartPolicy).filter fun p => p ≠ RestartPolicy.default
  panes := st.leaves.map fun p => (p, (s.supervision.lookup p).map PaneSupervisor.persisted)

def setSession (s : PolicyState) (session : Uuid) (st : NamedSession) : PolicyState :=
  { s with sessions := s.sessions.insert session st }

def setCall (s : PolicyState) (c : ℕ) (next : Option PolicyCall) : PolicyState :=
  { s with calls := Lib.updateCall s.calls c next }

/-- `persist_session` in one step. -/
def persistNow (s : PolicyState) (session : Uuid) : PolicyState :=
  match s.sessions.lookup session with
  | none => s
  | some st => { s with store := s.store.insert session (s.snapshotPersistedRecord st) }

/-! ## Creations -/

/-- SRC: engine.rs:448-525 -/
def createSession (s : PolicyState) (name : String) (policy : RestartPolicy) (now : ℕ) :
    PolicyState :=
  let (session, window, pane) := (s.nextId, s.nextId + 1, s.nextId + 2)
  let st := ⟨name, [RecordState.newWindow window "0" pane], window, policy⟩
  { s.setSession session st with
    nextId := s.nextId + 3
    paneWindow := s.paneWindow.insert pane window
    windowSession := s.windowSession.insert window session
    supervision := s.supervision.insert pane (registered policy now)
    home := s.home.insert pane (window, session) }.persistNow session

/-- SRC: engine.rs:851-893 -/
def createWindow (s : PolicyState) (session : Uuid) (now : ℕ) : PolicyState :=
  match s.sessions.lookup session with
  | none => s
  | some st =>
    let (window, pane) := (s.nextId, s.nextId + 1)
    { s.setSession session (RecordState.addWindow st window pane) with
      nextId := s.nextId + 2
      paneWindow := s.paneWindow.insert pane window
      windowSession := s.windowSession.insert window session
      supervision := s.supervision.insert pane (registered st.defaultRestartPolicy now)
      home := s.home.insert pane (window, session) }.persistNow session

/-! ## The steps of a split or a close -/

/-- After its persist or its delete a call returns, or goes on to close its pane. -/
def afterPersist : Option Closing → Option PolicyCall
  | none => none
  | some closing => some (.closeIndex closing)

/-- SRC: engine.rs:675-736 -/
def advanceSplit (s : PolicyState) (c now : ℕ) : PolicyCall → Option PolicyState
  | .splitLookup target orientation =>
    match s.windowAndSessionForPane target with
    | none => some (s.setCall c none)
    | some (window, session) =>
      some (s.setCall c (some (.splitLayout target orientation window session)))
  | .splitLayout target orientation window session =>
    match s.sessions.lookup session with
    | none => some (s.setCall c none)
    | some st =>
      let pane := s.nextId
      match RecordState.splitWindow target orientation pane window st.windows with
      | none | some none => some (s.setCall c none)
      | some (some windows) =>
        some ({ s.setSession session { st with windows } with
          nextId := s.nextId + 1
          home := s.home.insert pane (window, session) }.setCall c
            (some (.splitRegister session window pane st.defaultRestartPolicy)))
  | .splitRegister session window pane policy =>
    some ({ s with supervision := s.supervision.insert pane (registered policy now) }.setCall c
      (some (.splitIndex session window pane)))
  | .splitIndex session window pane =>
    some ({ s with paneWindow := s.paneWindow.insert pane window }.setCall c
      (some (.persist session none)))
  | _ => none

/-- SRC: engine.rs:742-848 -/
def advanceClose (s : PolicyState) (c : ℕ) : PolicyCall → Option PolicyState
  | .closeLookup pane =>
    match s.windowAndSessionForPane pane with
    | none => some (s.setCall c none)
    | some (window, session) => some (s.setCall c (some (.closeLayout pane window session)))
  | .closeLayout pane window session =>
    match s.sessions.lookup session with
    | none => some (s.setCall c none)
    | some st =>
      match RecordState.closeWindow pane window st.windows with
      | none => some (s.setCall c none)
      | some ([], windowClosed) =>
        some ({ s with sessions := s.sessions.erase session }.setCall c
          (some (.delete session (some (pane, windowClosed)))))
      | some (w :: ws, windowClosed) =>
        some ((s.setSession session (RecordState.closedSession st (w :: ws) windowClosed)).setCall c
          (some (.persist session (some (pane, windowClosed)))))
  | .closeIndex (pane, windowClosed) =>
    some ({ s with
      paneWindow := s.paneWindow.erase pane
      windowSession := windowClosed.elim s.windowSession s.windowSession.erase }.setCall c
        (some (.closePanes pane)))
  | .closePanes pane =>
    some ({ s with supervision := s.supervision.erase pane }.setCall c none)
  | _ => none

/-- SRC: engine.rs:1042-1056, engine.rs:440-446, engine.rs:803-806 -/
def advancePersist (s : PolicyState) (c : ℕ) : PolicyCall → Option PolicyState
  | .persist session closing =>
    if s.persisting then none
    else match s.sessions.lookup session with
      | none => some (s.setCall c (afterPersist closing))
      | some st =>
        some ({ s with persisting := true }.setCall c
          (some (.save session (s.snapshotPersistedRecord st) closing)))
  | .save session record closing =>
    some ({ s with
      store := s.store.insert session record
      persisting := false }.setCall c (afterPersist closing))
  | .delete session closing =>
    if s.persisting then none
    else some ({ s with store := s.store.erase session }.setCall c (afterPersist closing))
  | _ => none

def advanceCall (s : PolicyState) (c now : ℕ) (pc : PolicyCall) : Option PolicyState :=
  match pc with
  | .splitLookup .. | .splitLayout .. | .splitRegister .. | .splitIndex .. => s.advanceSplit c now pc
  | .closeLookup .. | .closeLayout .. | .closeIndex .. | .closePanes .. => s.advanceClose c pc
  | .persist .. | .save .. | .delete .. => s.advancePersist c pc

/-! ## The steps of the policy change -/

/-- SRC: supervision.rs:322-345 -/
def setPolicy (s : PolicyState) (pane : Uuid) (policy : RestartPolicy) :
    Except CallError Supervisors :=
  match policy.validate with
  | .error invalid => .error (.invalidRestartPolicy invalid)
  | .ok () =>
    match s.supervision.lookup pane with
    | none => .error (.paneNotFound pane)
    | some sup => .ok (s.supervision.insert pane (sup.setPolicy policy))

/-- SRC: engine.rs:1129-1157 -/
def advanceSetter (s : PolicyState) : Option PolicyState :=
  match s.setter with
  | .collect session policy applyToExisting =>
    match s.sessions.lookup session with
    | none => some { s with setter := .returned (.error (.sessionNotFound session)) }
    | some st =>
      some { s.setSession session { st with defaultRestartPolicy := policy } with
        setter := .each session policy (if applyToExisting then st.leaves else []) }
  | .each session _ [] => some { s with setter := .persist session }
  | .each session policy (pane :: panes) =>
    match s.setPolicy pane policy with
    | .error e => some { s with setter := .returned (.error e) }
    | .ok supervision => some { s with supervision, setter := .each session policy panes }
  | .persist session =>
    if s.persisting then none
    else match s.sessions.lookup session with
      | none => some { s with setter := .returned (.ok ()) }
      | some st =>
        some { s with persisting := true, setter := .save session (s.snapshotPersistedRecord st) }
  | .save session record =>
    some { s with
      store := s.store.insert session record
      persisting := false
      setter := .returned (.ok ()) }
  | .idle | .returned _ => none

/-- The leaves of the session, none if there is no such session. -/
def leavesOf (s : PolicyState) (session : Uuid) : List Uuid :=
  (s.sessions.lookup session).elim [] NamedSession.leaves

/-- SRC: engine.rs:1129-1137 -/
def beginSetter (s : PolicyState) (session : Uuid) (policy : RestartPolicy)
    (applyToExisting : Bool) : PolicyState where
  __ := s
  setter := match policy.validate with
    | .error invalid => .returned (.error (.invalidRestartPolicy invalid))
    | .ok () => .collect session policy applyToExisting
  attempt := ⟨session, policy, applyToExisting,
    (s.sessions.lookup session).map NamedSession.defaultRestartPolicy, s.supervision,
    s.leavesOf session⟩

/-! ## Runs -/

/-- No policy is being set. -/
def atRest (s : PolicyState) : Bool :=
  match s.setter with
  | .idle | .returned _ => true
  | _ => false

/-- A call that has returned is over. -/
def settled (s : PolicyState) : PolicyState where
  __ := s
  setter := if s.atRest then .idle else s.setter

/-- The panes that have left the session are not followed any more. -/
def followed (s : PolicyState) : PolicyState where
  __ := s
  attempt := { s.attempt with
    throughout := s.attempt.throughout.filter fun p => p ∈ s.leavesOf s.attempt.session }

/-- A call begins. -/
def begin (s : PolicyState) (c : ℕ) (first : PolicyCall) : Option PolicyState :=
  if c ∈ s.calls then none else some (s.setCall c (some first))

def act (s : PolicyState) : PolicyEvent → Option PolicyState
  | .createSession name policy now =>
    match s.atRest, policy.validate with
    | true, .ok () => some (s.createSession name policy now)
    | true, .error _ => some s
    | false, _ => none
  | .createWindow session now => if s.atRest then some (s.createWindow session now) else none
  | .splitPane c target orientation => s.begin c (.splitLookup target orientation)
  | .closePane c pane => s.begin c (.closeLookup pane)
  | .advance c now => (s.calls.lookup c).bind (s.advanceCall c now)
  | .setSessionRestartPolicy session policy applyToExisting =>
    if s.atRest then some (s.beginSetter session policy applyToExisting) else none
  | .set => s.advanceSetter
  | .supervise pane next =>
    match s.supervision.lookup pane with
    | none => none
    | some sup =>
      if next.policy = sup.policy then
        some { s with supervision := s.supervision.insert pane next }
      else none

def step (s : PolicyState) (e : PolicyEvent) : Option PolicyState :=
  (s.settled.act e).map followed

/-- The pane that the policy change looks up next. -/
def nextPane (s : PolicyState) : Option Uuid :=
  match s.setter with
  | .each _ _ (pane :: _) => some pane
  | _ => none

/-- A step that applies the policy to a pane finds the pane in the supervision. -/
def FindsEntry (s : PolicyState) : PolicyEvent → Prop
  | .set => ∀ pane ∈ s.nextPane, pane ∈ s.supervision
  | _ => True

instance decidableFindsEntry (s : PolicyState) : ∀ e, Decidable (FindsEntry s e)
  | .set => inferInstanceAs (Decidable (∀ pane ∈ s.nextPane, pane ∈ s.supervision))
  | .createSession .. | .createWindow .. | .splitPane .. | .closePane .. | .advance ..
  | .setSessionRestartPolicy .. | .supervise .. => isTrue trivial

end PolicyState

end Tymux.Model
