import Tymux.Model.Layout
import Tymux.Model.Restart
import Tymux.Model.Window
import Tymux.Lib.Binary32
import Mathlib.Data.List.AList

/-!
# Persisted sessions

`persistence.rs` with `load_persisted` and `snapshot_persisted_record` of `engine.rs`: the record
of a session on disk, its validation, the reconstruction of dead sessions when the daemon starts
and the snapshot that is written back. A record comes from a file, so its trees are modelled as
the source declares them: a split has any number of children and a ratio is any `f32`.

The maps of the engine here hold what these functions read and write: the metadata of a pane, and
the supervisor of each pane.
-/

set_option autoImplicit false

namespace Tymux.Model.Persistence

open Tymux.Lib (F32)

/-! ## Layout trees -/

mutual

/-- `LayoutNode` and `PersistedLayoutNode` are this tree with a pane id or a pane record at each
leaf.
SRC: layout.rs:57-72, persistence.rs:48-61 -/
inductive LayoutTree (α : Type) where
  | leaf (pane : α)
  | split (orientation : Orientation) (children : LayoutChildren α)
  deriving DecidableEq, Repr

/-- The vector of the children with their ratios. -/
inductive LayoutChildren (α : Type) where
  | nil
  | cons (child : LayoutTree α) (ratio : F32) (rest : LayoutChildren α)
  deriving DecidableEq, Repr

end

/-- SRC: launch.rs:19-25 -/
inductive ArgSpec where
  | literal (text : String)
  | fileContents (path : String)
  deriving DecidableEq, Repr

/-- SRC: launch.rs:27-46 -/
structure Launch where
  args : List String
  env : List (String × String)
  argSpecs : List ArgSpec
  stderrPath : Option String
  stdinPath : Option String
  stdinStream : Bool
  deriving DecidableEq, Repr

def Launch.default : Launch where
  args := []
  env := []
  argSpecs := []
  stderrPath := none
  stdinPath := none
  stdinStream := false

/-- SRC: persistence.rs:19-41 -/
structure PersistedPaneRecord where
  paneId : Uuid
  command : String
  cwd : String
  rows : ℕ
  cols : ℕ
  exitCode : Option ℤ
  launch : Launch
  restart : Option PersistedRestartState
  deriving DecidableEq, Repr

abbrev PersistedLayoutNode := LayoutTree PersistedPaneRecord

abbrev LiveLayoutNode := LayoutTree Uuid

/-- SRC: persistence.rs:186-191 -/
structure PersistedWindowRecord where
  id : Uuid
  name : String
  layout : PersistedLayoutNode
  deriving DecidableEq, Repr

/-- SRC: persistence.rs:193-204 -/
structure PersistedSessionRecord where
  schemaVersion : ℕ
  sessionId : Uuid
  name : String
  windows : List PersistedWindowRecord
  activeWindowId : Uuid
  defaultRestartPolicy : Option RestartPolicy
  deriving DecidableEq, Repr

/-! ## Validation -/

/-- SRC: persistence.rs:17 -/
def currentSchemaVersion : ℕ := 1

/-- Why a record is refused. The source renders these as text. -/
inductive Invalid where
  | schemaVersion (got : ℕ)
  | children (count : ℕ)
  | ratios (sum : F32)
  deriving DecidableEq, Repr

/-- The `f32` nearest to 0.01. -/
def ratioTolerance : F32 := .finite (5368709 / 536870912)

namespace LayoutChildren

variable {α : Type}

def length : LayoutChildren α → ℕ
  | nil => 0
  | cons _ _ rest => rest.length + 1

/-- `children.iter().map(|(_, r)| r).sum()`, which adds from the left. -/
def sumFrom : LayoutChildren α → F32 → F32
  | nil, sum => sum
  | cons _ ratio rest, sum => rest.sumFrom (sum.add ratio)

def ratioSum (children : LayoutChildren α) : F32 := children.sumFrom (.finite 0)

end LayoutChildren

mutual

/-- SRC: persistence.rs:64-92 -/
def LayoutTree.validateStructure {α : Type} : LayoutTree α → Except Invalid Unit
  | .leaf _ => .ok ()
  | .split _ children =>
    if children.length ≠ 2 then .error (.children children.length)
    else if ((children.ratioSum.sub (.finite 1)).abs).gt ratioTolerance then
      .error (.ratios children.ratioSum)
    else children.validateEach

def LayoutChildren.validateEach {α : Type} : LayoutChildren α → Except Invalid Unit
  | .nil => .ok ()
  | .cons child _ rest => do
    child.validateStructure
    rest.validateEach

end

/-- SRC: persistence.rs:241-254 -/
def PersistedSessionRecord.validate (r : PersistedSessionRecord) : Except Invalid Unit :=
  if r.schemaVersion ≠ currentSchemaVersion then .error (.schemaVersion r.schemaVersion)
  else r.windows.forM fun w => w.layout.validateStructure

/-! ## The live tree -/

mutual

/-- Every leaf, pre-order.
SRC: layout.rs:309-317 -/
def LayoutTree.leaves {α : Type} : LayoutTree α → List α
  | .leaf pane => [pane]
  | .split _ children => children.leaves

def LayoutChildren.leaves {α : Type} : LayoutChildren α → List α
  | .nil => []
  | .cons child _ rest => child.leaves ++ rest.leaves

end

/-- SRC: layout.rs:354-360 -/
def splitExtent (extent : ℕ) (ratio : F32) : ℕ :=
  ((F32.finite extent).mul ratio).floorTo u16Max

/-- The rectangles of the leaves, `none` for a panic: an index past the children, or an
arithmetic overflow. The children after the second are not looked at.
SRC: layout.rs:135-185 -/
def LayoutTree.computeGeometryAt :
    LiveLayoutNode → ℕ → ℕ → ℕ → ℕ → Option (List (Uuid × PtyRect))
  | .leaf paneId, row, col, rows, cols => some [(paneId, ⟨row, col, rows, cols⟩)]
  | .split .horizontal (.cons first firstRatio (.cons second _ _)), row, col, rows, cols => do
    let firstCols := splitExtent cols firstRatio
    let secondCols ← checkedSub cols firstCols
    let out ← first.computeGeometryAt row col rows firstCols
    let secondCol ← checkedAdd col firstCols
    let rest ← second.computeGeometryAt row secondCol rows secondCols
    return out ++ rest
  | .split .vertical (.cons first firstRatio (.cons second _ _)), row, col, rows, cols => do
    let firstRows := splitExtent rows firstRatio
    let secondRows ← checkedSub rows firstRows
    let out ← first.computeGeometryAt row col firstRows cols
    let secondRow ← checkedAdd row firstRows
    let rest ← second.computeGeometryAt secondRow col secondRows cols
    return out ++ rest
  | .split _ _, _, _, _, _ => none

/-- SRC: layout.rs:126-133 -/
def LayoutTree.computeGeometry (t : LiveLayoutNode) (rows cols : ℕ) :
    Option (List (Uuid × PtyRect)) :=
  t.computeGeometryAt 0 0 rows cols

/-! ## The engine -/

/-- What a snapshot reads of a running pane. The sizes are `u32`. -/
structure LivePane where
  command : String
  cwd : String
  rows : ℕ
  cols : ℕ
  exitCode : Option ℤ
  launch : Launch
  deriving DecidableEq, Repr

/-- SRC: engine.rs:60-63 -/
inductive PaneEntry where
  | live (pane : LivePane)
  | dead (record : PersistedPaneRecord)
  deriving DecidableEq, Repr

/-- SRC: engine.rs:29-38 -/
structure WindowState where
  id : Uuid
  name : String
  layout : LiveLayoutNode
  rows : ℕ
  cols : ℕ
  deriving DecidableEq, Repr

/-- SRC: engine.rs:45-52 -/
structure SessionState where
  id : Uuid
  name : String
  windows : List WindowState
  activeWindowId : Uuid
  defaultRestartPolicy : RestartPolicy
  deriving DecidableEq, Repr

def SessionState.leaves (st : SessionState) : List Uuid :=
  st.windows.flatMap fun w => w.layout.leaves

abbrev PaneMap := AList fun _ : Uuid => PaneEntry

/-- SRC: engine.rs:232-303 -/
structure Engine where
  sessions : AList fun _ : Uuid => SessionState
  panes : PaneMap
  paneWindow : AList fun _ : Uuid => Uuid
  windowSession : AList fun _ : Uuid => Uuid
  supervision : AList fun _ : Uuid => PaneSupervisor

/-- SRC: engine.rs:305-333 -/
def Engine.new : Engine where
  sessions := ∅
  panes := ∅
  paneWindow := ∅
  windowSession := ∅
  supervision := ∅

/-! ## Loading -/

mutual

/-- SRC: persistence.rs:159-184 -/
def LayoutTree.toLive : PersistedLayoutNode → PaneMap → LiveLayoutNode × PaneMap
  | .leaf pane, panes => (.leaf pane.paneId, panes.insert pane.paneId (.dead pane))
  | .split orientation children, panes =>
    let (children, panes) := children.toLive panes
    (.split orientation children, panes)

def LayoutChildren.toLive :
    LayoutChildren PersistedPaneRecord → PaneMap → LayoutChildren Uuid × PaneMap
  | .nil, panes => (.nil, panes)
  | .cons child ratio rest, panes =>
    let (child, panes) := child.toLive panes
    let (rest, panes) := rest.toLive panes
    (.cons child ratio rest, panes)

end

namespace Engine

/-- SRC: supervision.rs:115-134 -/
def registerRestored (e : Engine) (paneId : Uuid) (persisted : Option PersistedRestartState)
    (defaultPolicy : RestartPolicy) : Engine :=
  let sup := match persisted with
    | some p => PaneSupervisor.restore p
    | none => PaneSupervisor.new defaultPolicy
  { e with supervision := e.supervision.insert paneId sup }

/-- The body of the loop over the leaves of a loaded window.
SRC: engine.rs:368-380 -/
def loadLeaf (window : Uuid) (policy : RestartPolicy) (e : Engine) (paneId : Uuid) : Engine :=
  let restored := match e.panes.lookup paneId with
    | some (.dead r) => r.restart
    | _ => none
  { e with paneWindow := e.paneWindow.insert paneId window }.registerRestored paneId restored policy

/-- The closure over the windows of a record.
SRC: engine.rs:356-383 -/
def loadWindow (session : Uuid) (policy : RestartPolicy) (e : Engine) (w : PersistedWindowRecord) :
    Engine × WindowState :=
  let (layout, panes) := w.layout.toLive e.panes
  let window : WindowState := ⟨w.id, w.name, layout, defaultRows, defaultCols⟩
  let e := { e with panes, windowSession := e.windowSession.insert window.id session }
  (window.layout.leaves.foldl (loadLeaf window.id policy) e, window)

/-- The windows of a record, one after the other. -/
def loadWindows (session : Uuid) (policy : RestartPolicy) :
    Engine → List PersistedWindowRecord → Engine × List WindowState
  | e, [] => (e, [])
  | e, w :: ws =>
    let (e, window) := e.loadWindow session policy w
    let (e, windows) := loadWindows session policy e ws
    (e, window :: windows)

/-- SRC: engine.rs:352-397 -/
def loadRecord (e : Engine) (record : PersistedSessionRecord) : Engine :=
  let policy := record.defaultRestartPolicy.getD .default
  let (e, windows) := e.loadWindows record.sessionId policy record.windows
  let session : SessionState :=
    ⟨record.sessionId, record.name, windows, record.activeWindowId, policy⟩
  { e with sessions := e.sessions.insert record.sessionId session }

/-- SRC: engine.rs:342-399 -/
def loadPersisted (e : Engine) (records : List PersistedSessionRecord) : Engine :=
  records.foldl loadRecord e

end Engine

/-! ## Snapshots -/

abbrev RestartMap := AList fun _ : Uuid => PersistedRestartState

/-- The record of one leaf.
SRC: persistence.rs:100-144 -/
def leafRecord (panes : PaneMap) (restart : RestartMap) (paneId : Uuid) : PersistedPaneRecord :=
  let record : PersistedPaneRecord := match panes.lookup paneId with
    | some (.live pane) =>
      { paneId
        command := pane.command
        cwd := pane.cwd
        rows := pane.rows % (u16Max + 1)
        cols := pane.cols % (u16Max + 1)
        exitCode := pane.exitCode
        launch := pane.launch
        restart := none }
    | some (.dead record) => record
    | none =>
      { paneId
        command := ""
        cwd := ""
        rows := 0
        cols := 0
        exitCode := none
        launch := .default
        restart := none }
  { record with restart := (restart.lookup paneId).or record.restart }

mutual

/-- SRC: persistence.rs:94-156 -/
def LayoutTree.fromLive (panes : PaneMap) (restart : RestartMap) :
    LiveLayoutNode → PersistedLayoutNode
  | .leaf paneId => .leaf (leafRecord panes restart paneId)
  | .split orientation children => .split orientation (children.fromLive panes restart)

def LayoutChildren.fromLive (panes : PaneMap) (restart : RestartMap) :
    LayoutChildren Uuid → LayoutChildren PersistedPaneRecord
  | .nil => .nil
  | .cons child ratio rest => .cons (child.fromLive panes restart) ratio (rest.fromLive panes restart)

end

/-- SRC: persistence.rs:216-239 -/
def fromSessionStateWithRestart (session : SessionState) (panes : PaneMap) (restart : RestartMap) :
    PersistedSessionRecord where
  schemaVersion := currentSchemaVersion
  sessionId := session.id
  name := session.name
  windows := session.windows.map fun w => ⟨w.id, w.name, w.layout.fromLive panes restart⟩
  activeWindowId := session.activeWindowId
  defaultRestartPolicy :=
    (some session.defaultRestartPolicy).filter fun p => p ≠ RestartPolicy.default

namespace Engine

/-- SRC: supervision.rs:302-308 -/
def persistedFor (e : Engine) (paneIds : List Uuid) : RestartMap :=
  paneIds.foldl (fun m id => match e.supervision.lookup id with
    | some sup => m.insert id sup.persisted
    | none => m) ∅

/-- SRC: engine.rs:416-438 -/
def snapshotPersistedRecord (e : Engine) (sessionId : Uuid) : Option PersistedSessionRecord :=
  (e.sessions.lookup sessionId).map fun session =>
    fromSessionStateWithRestart session e.panes (e.persistedFor session.leaves)

end Engine

end Tymux.Model.Persistence
