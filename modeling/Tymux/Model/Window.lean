import Tymux.Model.Layout

/-!
# One window: its layout, its size, and the viewports of its clients

The part of `engine.rs` that sizes a window. Every attached client reports a viewport,
`clampViewport` bounds it, the window runs at the dimension-wise minimum of the reports
(24x80 with no client), and `recomputeWindowGeometry` hands every live pane the rectangle
the layout gives it. `WindowOp` is what can happen to the window from outside: the two
layout mutations and the viewport paths.
-/

set_option autoImplicit false

namespace Tymux.Model

/-- SRC: pane.rs:255-256 -/
def maxPaneRows : ℕ := 500

def maxPaneCols : ℕ := 1000

/-- SRC: engine.rs:21-22 -/
def defaultRows : ℕ := 24

def defaultCols : ℕ := 80

/-- SRC: engine.rs:65-72 -/
def clampViewport (rows cols : ℕ) : ℕ × ℕ :=
  (max minPaneRows (min rows maxPaneRows), max minPaneCols (min cols maxPaneCols))

/-- The entry of one window in `Engine.viewports`: client id and its last clamped report.
SRC: engine.rs:24-26 -/
abbrev Viewports := List (ℕ × ℕ × ℕ)

/-- `HashMap::insert`. -/
def Viewports.insert (v : Viewports) (client rows cols : ℕ) : Viewports :=
  (client, rows, cols) :: v.filter fun e => e.1 ≠ client

/-- `HashMap::remove`. -/
def Viewports.remove (v : Viewports) (client : ℕ) : Viewports :=
  v.filter fun e => e.1 ≠ client

/-- The window size the registered viewports ask for.
SRC: engine.rs:1270-1280 -/
def Viewports.effectiveSize : Viewports → ℕ × ℕ
  | [] => (defaultRows, defaultCols)
  | (_, r, c) :: rest =>
    (rest.foldl (fun m e => min m e.2.1) r, rest.foldl (fun m e => min m e.2.2) c)

/-- SRC: engine.rs:28-37 -/
structure WindowState where
  layout : LayoutNode
  rows : ℕ
  cols : ℕ
  deriving DecidableEq, Repr

/-- A window together with what the engine keeps for it elsewhere: the panes map (only its
keys with a `Live` entry), the viewports, and the supply of unused ids. `window` is `none`
once the last pane is closed. -/
structure WindowWorld where
  window : Option WindowState
  panes : List Uuid
  viewports : Viewports
  nextId : Uuid
  deriving DecidableEq, Repr

/-- A window as `create_session` leaves it: one pane, nobody attached.
SRC: engine.rs:483-500 -/
def WindowWorld.new (pane : Uuid) : WindowWorld where
  window := some ⟨.leaf pane, defaultRows, defaultCols⟩
  panes := [pane]
  viewports := []
  nextId := pane + 1

/-- What happens to a window. `recompute` is the bare `recompute_window_geometry` that the
daemon calls after a detach. -/
inductive WindowOp where
  | splitPane (target : Uuid) (orientation : Orientation)
  | closePane (pane : Uuid)
  | reportViewport (client rows cols : ℕ)
  | unregisterViewport (client : ℕ)
  | recompute
  deriving DecidableEq, Repr

namespace WindowWorld

/-- Stores the new window size and returns the rectangles passed to `Pane::resize`, one for
each leaf with a live pane, in tree order.
SRC: engine.rs:1249-1345 -/
def recomputeWindowGeometry (w : WindowWorld) : Option (WindowWorld × List (Uuid × PtyRect)) :=
  match w.window with
  | none => some (w, [])
  | some win => do
    let (rows, cols) := w.viewports.effectiveSize
    let rects ← win.layout.computeGeometry rows cols
    return ({ w with window := some ⟨win.layout, rows, cols⟩ },
      rects.filter fun e => decide (e.1 ∈ w.panes))

/-- SRC: engine.rs:675-736; the new pane gets an unused id, and an error changes nothing. -/
def splitPane (w : WindowWorld) (target : Uuid) (orientation : Orientation) :
    Option WindowWorld :=
  match w.window with
  | none => some w
  | some win => do
    let w' : WindowWorld := { w with nextId := w.nextId + 1 }
    match ← win.layout.split? target orientation w.nextId win.rows win.cols with
    | .error _ => return w'
    | .ok layout =>
      return { w' with window := some ⟨layout, win.rows, win.cols⟩, panes := w.nextId :: w.panes }

/-- SRC: engine.rs:742-848; a pane outside the window is not found and changes nothing. -/
def closePane (w : WindowWorld) (pane : Uuid) : WindowWorld :=
  match w.window with
  | none => w
  | some win =>
    if win.layout.contains pane then
      match win.layout.remove pane with
      | .collapsed layout =>
        { w with window := some ⟨layout, win.rows, win.cols⟩, panes := w.panes.erase pane }
      | .windowEmpty => { w with window := none, panes := w.panes.erase pane }
    else w

/-- One operation, with the rectangles it passes to `Pane::resize`. -/
def step (w : WindowWorld) : WindowOp → Option (WindowWorld × List (Uuid × PtyRect))
  | .splitPane target orientation => (w.splitPane target orientation).map (·, [])
  | .closePane pane => some (w.closePane pane, [])
  | .reportViewport client rows cols =>
    let (rows, cols) := clampViewport rows cols
    { w with viewports := w.viewports.insert client rows cols }.recomputeWindowGeometry
  | .unregisterViewport client => some ({ w with viewports := w.viewports.remove client }, [])
  | .recompute => w.recomputeWindowGeometry

/-- A run, with every rectangle passed to `Pane::resize` on the way. -/
def run (w : WindowWorld) : List WindowOp → Option (WindowWorld × List (Uuid × PtyRect))
  | [] => some (w, [])
  | op :: ops => do
    let (w', rects) ← w.step op
    let (w'', more) ← w'.run ops
    return (w'', rects ++ more)

end WindowWorld

end Tymux.Model
