import Tymux.Model.Window
import Mathlib.Data.List.AList

/-!
# Concurrent recomputations of one window

`report_viewport_and_recompute`, and `unregister_viewport` followed by
`recompute_window_geometry`, as calls that take their steps in any order. A call changes the
viewports first, then it waits for the lock of the window, which it holds while it reads the
viewports, stores the size of the window and resizes the panes one by one. `Pane::resize` stores the
rows and the columns of a pane in two operations; it is taken to succeed. A layout whose geometry
panics takes no step there.
-/

set_option autoImplicit false

namespace Tymux.Model

/-- What stays as it is: the layout, in which a pane has one leaf, and the panes that are live. -/
structure SizedWindow where
  layout : LayoutNode
  nodup : layout.leaves.Nodup
  live : List Uuid

/-- What a call has read, and what it does next.
SRC: engine.rs:1270-1345 -/
inductive RecomputePhase where
  /-- The viewports are updated; the lock of the window is next. -/
  | waiting
  /-- The lock is held; the viewports are read next. -/
  | locked
  | read (rows cols : ℕ)
  /-- The panes that are yet to be resized. -/
  | applying (rest : List (Uuid × PtyRect))
  /-- The rows of a pane are stored, its columns are next. -/
  | storedRows (pane : Uuid) (cols : ℕ) (rest : List (Uuid × PtyRect))
  deriving DecidableEq, Repr

structure ResizeState where
  viewports : Viewports
  rows : ℕ
  cols : ℕ
  /-- `Pane::size` -/
  size : Uuid → ℕ × ℕ
  /-- The call that holds `resize_locks[window_id]`. -/
  lock : Option ℕ
  calls : AList fun _ : ℕ => RecomputePhase

inductive ResizeEvent where
  | reportViewport (call client rows cols : ℕ)
  | unregisterViewport (call client : ℕ)
  | recompute (call : ℕ)
  /-- The next operation of a call. -/
  | next (call : ℕ)
  deriving DecidableEq, Repr

namespace ResizeState

/-- A call has done its part on the viewports. -/
def begin (s : ResizeState) (call : ℕ) (viewports : Viewports) : Option ResizeState :=
  if call ∈ s.calls then none
  else some { s with viewports := viewports, calls := s.calls.insert call .waiting }

/-- SRC: engine.rs:1278-1343, pane.rs:960-992 -/
def next (w : SizedWindow) (s : ResizeState) (call : ℕ) : RecomputePhase → Option ResizeState
  | .waiting =>
    if s.lock = none then
      some { s with lock := some call, calls := s.calls.insert call .locked }
    else none
  | .locked =>
    let (rows, cols) := s.viewports.effectiveSize
    some { s with calls := s.calls.insert call (.read rows cols) }
  | .read rows cols =>
    (w.layout.computeGeometry rows cols).map fun rects =>
      { s with
        rows := rows
        cols := cols
        calls := s.calls.insert call (.applying (rects.filter fun e => decide (e.1 ∈ w.live))) }
  | .applying [] => some { s with lock := none, calls := s.calls.erase call }
  | .applying ((pane, rect) :: rest) =>
    let (rows, cols) := (min rect.rows maxPaneRows, min rect.cols maxPaneCols)
    if s.size pane = (rows, cols) then some { s with calls := s.calls.insert call (.applying rest) }
    else some { s with
      size := Function.update s.size pane (rows, (s.size pane).2)
      calls := s.calls.insert call (.storedRows pane cols rest) }
  | .storedRows pane cols rest =>
    some { s with
      size := Function.update s.size pane ((s.size pane).1, cols)
      calls := s.calls.insert call (.applying rest) }

/-- SRC: engine.rs:1211-1245, engine.rs:1270-1345 -/
def step (w : SizedWindow) (s : ResizeState) : ResizeEvent → Option ResizeState
  | .reportViewport call client rows cols =>
    let (rows, cols) := clampViewport rows cols
    s.begin call (s.viewports.insert client rows cols)
  | .unregisterViewport call client => s.begin call (s.viewports.remove client)
  | .recompute call => s.begin call s.viewports
  | .next call => (s.calls.lookup call).bind (s.next w call)

end ResizeState

end Tymux.Model
