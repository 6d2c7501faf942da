import Tymux.Model.Persistence
import Tymux.Lib.Fill

/-!
# What loading a record builds

The live tree of a persisted tree is the same tree with a pane id at each leaf, whatever the maps
hold; the panes and the supervision get one entry per leaf. Both walks of the source are so `map`
on the tree and `fill` on the maps.
-/

set_option autoImplicit false

namespace Tymux.Model.Persistence

open Tymux.Lib

/-! ## Trees under a function on the leaves -/

mutual

def LayoutTree.map {α β : Type} (f : α → β) : LayoutTree α → LayoutTree β
  | .leaf pane => .leaf (f pane)
  | .split orientation children => .split orientation (children.map f)

def LayoutChildren.map {α β : Type} (f : α → β) : LayoutChildren α → LayoutChildren β
  | .nil => .nil
  | .cons child ratio rest => .cons (child.map f) ratio (rest.map f)

end

section Map

variable {α β γ : Type}

mutual

theorem LayoutTree.leaves_map (f : α → β) : ∀ t : LayoutTree α,
    (t.map f).leaves = t.leaves.map f
  | .leaf _ => rfl
  | .split _ children => children.leaves_map f

theorem LayoutChildren.leaves_map (f : α → β) : ∀ c : LayoutChildren α,
    (c.map f).leaves = c.leaves.map f
  | .nil => rfl
  | .cons child _ rest => by
    simp only [LayoutChildren.map, LayoutChildren.leaves, List.map_append,
      child.leaves_map f, rest.leaves_map f]

end

mutual

theorem LayoutTree.map_map (g : β → γ) (f : α → β) : ∀ t : LayoutTree α,
    (t.map f).map g = t.map (g ∘ f)
  | .leaf _ => rfl
  | .split _ children => by
    simp only [LayoutTree.map, children.map_map g f]

theorem LayoutChildren.map_map (g : β → γ) (f : α → β) : ∀ c : LayoutChildren α,
    (c.map f).map g = c.map (g ∘ f)
  | .nil => rfl
  | .cons child _ rest => by
    simp only [LayoutChildren.map, child.map_map g f, rest.map_map g f]

end

mutual

theorem LayoutTree.map_congr {f g : α → β} : ∀ {t : LayoutTree α},
    (∀ x ∈ t.leaves, f x = g x) → t.map f = t.map g
  | .leaf pane, h => by
    rw [LayoutTree.map, LayoutTree.map, h pane List.mem_cons_self]
  | .split _ _, h => by
    rw [LayoutTree.map, LayoutTree.map, LayoutChildren.map_congr h]

theorem LayoutChildren.map_congr {f g : α → β} : ∀ {c : LayoutChildren α},
    (∀ x ∈ c.leaves, f x = g x) → c.map f = c.map g
  | .nil, _ => rfl
  | .cons _ _ _, h => by
    rw [LayoutChildren.map, LayoutChildren.map,
      LayoutTree.map_congr fun x hx => h x (List.mem_append_left _ hx),
      LayoutChildren.map_congr fun x hx => h x (List.mem_append_right _ hx)]

end

theorem LayoutChildren.length_map (f : α → β) : ∀ c : LayoutChildren α,
    (c.map f).length = c.length
  | .nil => rfl
  | .cons _ _ rest => congrArg (· + 1) (rest.length_map f)

theorem LayoutChildren.sumFrom_map (f : α → β) : ∀ (c : LayoutChildren α) (sum : F32),
    (c.map f).sumFrom sum = c.sumFrom sum
  | .nil, _ => rfl
  | .cons _ ratio rest, sum => rest.sumFrom_map f (sum.add ratio)

mutual

theorem LayoutTree.validateStructure_map (f : α → β) : ∀ t : LayoutTree α,
    (t.map f).validateStructure = t.validateStructure
  | .leaf _ => rfl
  | .split _ children => by
    rw [LayoutTree.map, LayoutTree.validateStructure, LayoutTree.validateStructure,
      LayoutChildren.ratioSum, children.length_map f, children.sumFrom_map f,
      children.validateEach_map f, LayoutChildren.ratioSum]

theorem LayoutChildren.validateEach_map (f : α → β) : ∀ c : LayoutChildren α,
    (c.map f).validateEach = c.validateEach
  | .nil => rfl
  | .cons child _ rest => by
    simp only [LayoutChildren.map, LayoutChildren.validateEach, child.validateStructure_map f,
      rest.validateEach_map f]

end

end Map

/-! ## The two walks -/

mutual

/-- INTERNAL: The live tree does not depend on the panes, and the panes get the leaves in order.
SRC: persistence.rs:159-184 -/
theorem LayoutTree.toLive_eq : ∀ (t : PersistedLayoutNode) (panes : PaneMap),
    t.toLive panes =
      (t.map PersistedPaneRecord.paneId, fill PersistedPaneRecord.paneId .dead panes t.leaves)
  | .leaf _, _ => rfl
  | .split _ children, panes => by
    simp only [LayoutTree.toLive, LayoutTree.map, LayoutTree.leaves, children.toLive_eq panes]

theorem LayoutChildren.toLive_eq :
    ∀ (c : LayoutChildren PersistedPaneRecord) (panes : PaneMap),
    c.toLive panes =
      (c.map PersistedPaneRecord.paneId, fill PersistedPaneRecord.paneId .dead panes c.leaves)
  | .nil, _ => rfl
  | .cons child _ rest, panes => by
    simp only [LayoutChildren.toLive, LayoutChildren.map, LayoutChildren.leaves,
      child.toLive_eq panes, rest.toLive_eq, fill, List.foldl_append]

end

mutual

/-- INTERNAL: The snapshot of a tree asks for the record of each leaf.
SRC: persistence.rs:94-156 -/
theorem LayoutTree.fromLive_eq (panes : PaneMap) (restart : RestartMap) :
    ∀ t : LiveLayoutNode, t.fromLive panes restart = t.map (leafRecord panes restart)
  | .leaf _ => rfl
  | .split _ children => by
    simp only [LayoutTree.fromLive, LayoutTree.map, children.fromLive_eq panes restart]

theorem LayoutChildren.fromLive_eq (panes : PaneMap) (restart : RestartMap) :
    ∀ c : LayoutChildren Uuid, c.fromLive panes restart = c.map (leafRecord panes restart)
  | .nil => rfl
  | .cons child _ rest => by
    simp only [LayoutChildren.fromLive, LayoutChildren.map, child.fromLive_eq panes restart,
      rest.fromLive_eq panes restart]

end

/-! ## Windows and sessions -/

/-- The leaves of the windows of a record. -/
def windowLeaves (ws : List PersistedWindowRecord) : List PersistedPaneRecord :=
  ws.flatMap fun w => w.layout.leaves

def PersistedSessionRecord.paneIds (r : PersistedSessionRecord) : List Uuid :=
  (windowLeaves r.windows).map PersistedPaneRecord.paneId

def PersistedWindowRecord.live (w : PersistedWindowRecord) : WindowState :=
  ⟨w.id, w.name, w.layout.map PersistedPaneRecord.paneId, defaultRows, defaultCols⟩

def PersistedSessionRecord.policy (r : PersistedSessionRecord) : RestartPolicy :=
  r.defaultRestartPolicy.getD .default

/-- The session that a record is loaded as. -/
def PersistedSessionRecord.live (r : PersistedSessionRecord) : SessionState :=
  ⟨r.sessionId, r.name, r.windows.map PersistedWindowRecord.live, r.activeWindowId, r.policy⟩

theorem PersistedSessionRecord.leaves_live (r : PersistedSessionRecord) :
    r.live.leaves = r.paneIds := by
  unfold SessionState.leaves PersistedSessionRecord.paneIds windowLeaves
  rw [List.map_flatMap, PersistedSessionRecord.live, List.flatMap_map]
  simp only [PersistedWindowRecord.live, LayoutTree.leaves_map]

/-- The supervisor that a restored pane gets. -/
def supervisorOf (policy : RestartPolicy) (restart : Option PersistedRestartState) :
    PaneSupervisor :=
  match restart with
  | some p => PaneSupervisor.restore p
  | none => PaneSupervisor.new policy

/-- What the loop over the leaves finds of a pane's restart state. -/
def restartIn (panes : PaneMap) (paneId : Uuid) : Option PersistedRestartState :=
  match panes.lookup paneId with
  | some (.dead r) => r.restart
  | _ => none

namespace Engine

/-- INTERNAL: The loop over the leaves only fills the pane index and the supervision.
SRC: engine.rs:368-380 -/
theorem foldl_loadLeaf (window : Uuid) (policy : RestartPolicy) (ids : List Uuid) (e : Engine) :
    ids.foldl (loadLeaf window policy) e =
      { e with
        paneWindow := fill id (fun _ => window) e.paneWindow ids
        supervision :=
          fill id (fun p => supervisorOf policy (restartIn e.panes p)) e.supervision ids } := by
  induction ids generalizing e with
  | nil => rfl
  | cons p ids ih =>
      rw [List.foldl_cons, ih]
      rfl

/-- INTERNAL: One window adds its leaves to the panes and to the supervision.
SRC: engine.rs:356-383 -/
theorem loadWindow_eq (session : Uuid) (policy : RestartPolicy) (e : Engine)
    (w : PersistedWindowRecord) :
    e.loadWindow session policy w =
      let panes := fill PersistedPaneRecord.paneId .dead e.panes w.layout.leaves
      let ids := w.layout.leaves.map PersistedPaneRecord.paneId
      ({ e with
          panes
          windowSession := e.windowSession.insert w.id session
          paneWindow := fill id (fun _ => w.id) e.paneWindow ids
          supervision :=
            fill id (fun p => supervisorOf policy (restartIn panes p)) e.supervision ids }, w.live) := by
  unfold loadWindow
  rw [LayoutTree.toLive_eq]
  simp only [foldl_loadLeaf, LayoutTree.leaves_map]
  rfl

theorem loadWindows_windows (session : Uuid) (policy : RestartPolicy)
    (ws : List PersistedWindowRecord) (e : Engine) :
    (e.loadWindows session policy ws).2 = ws.map PersistedWindowRecord.live := by
  induction ws generalizing e with
  | nil => rfl
  | cons w ws ih =>
      unfold loadWindows
      rw [List.map_cons, ← ih (e.loadWindow session policy w).1]
      rw [loadWindow_eq]

theorem loadWindows_sessions (session : Uuid) (policy : RestartPolicy)
    (ws : List PersistedWindowRecord) (e : Engine) :
    (e.loadWindows session policy ws).1.sessions = e.sessions := by
  induction ws generalizing e with
  | nil => rfl
  | cons w ws ih =>
      unfold loadWindows
      apply (ih (e.loadWindow session policy w).1).trans
      rw [loadWindow_eq]

theorem loadRecord_sessions (e : Engine) (r : PersistedSessionRecord) :
    (e.loadRecord r).sessions = e.sessions.insert r.sessionId r.live := by
  unfold loadRecord
  dsimp only
  rw [loadWindows_sessions, loadWindows_windows]
  rfl

/-- INTERNAL: The sessions after loading: the last record with each id.
SRC: engine.rs:348-399 -/
theorem loadPersisted_sessions (records : List PersistedSessionRecord) (e : Engine) :
    (e.loadPersisted records).sessions =
      fill PersistedSessionRecord.sessionId PersistedSessionRecord.live e.sessions records := by
  induction records generalizing e with
  | nil => rfl
  | cons r records ih =>
      rw [loadPersisted, List.foldl_cons, ← loadPersisted, ih, loadRecord_sessions]
      rfl

end Engine

end Tymux.Model.Persistence
