import Tymux.Model.Basic

/-!
# The layout tree of one window

`layout.rs`: a binary tree of splits whose leaves name panes, the rectangles it assigns to
them (`computeGeometry`), and the two mutations `split` and `remove`. A result of `none` is
a panic: an unsigned subtraction below zero, an addition past `u16::MAX`, or a failed
`expect`.

The ratio of a child is an `f32`. It is a rational here, and `splitExtent` is the exact
product: the only ratio the mutations below ever store is `1/2`, for which the `f32` product
of a `u16` is exact as well.
-/

set_option autoImplicit false

namespace Tymux.Model

/-- Split direction: `horizontal` is side by side, `vertical` is stacked.
SRC: layout.rs:4-12 -/
inductive Orientation where
  | horizontal
  | vertical
  deriving DecidableEq, Repr

/-- SRC: layout.rs:21-22 -/
def minPaneRows : ℕ := 2

def minPaneCols : ℕ := 10

/-- The bar a horizontal split's target must reach.
SRC: layout.rs:36 -/
def recommendedSplitMinRows : ℕ := 20

/-- A leaf's rectangle in cells.
SRC: layout.rs:38-47 -/
structure PtyRect where
  row : ℕ
  col : ℕ
  rows : ℕ
  cols : ℕ
  deriving DecidableEq, Repr

/-- One window's pane arrangement. The source's `children` vector always has two entries,
so a split is built from exactly two.
SRC: layout.rs:57-72 -/
inductive LayoutNode where
  | leaf (paneId : Uuid)
  | split (orientation : Orientation) (first : LayoutNode) (firstRatio : ℚ)
      (second : LayoutNode) (secondRatio : ℚ)
  deriving DecidableEq, Repr

/-- SRC: layout.rs:74-82 -/
inductive RemoveOutcome where
  | collapsed (tree : LayoutNode)
  | windowEmpty
  deriving DecidableEq, Repr

/-- SRC: layout.rs:84-97 -/
inductive LayoutError where
  | belowMinimumSize (rows cols : ℕ)
  | belowRecommendedSize (rows : ℕ)
  | paneNotFound (paneId : Uuid)
  deriving DecidableEq, Repr

/-- The cells of `extent` that `ratio` gives to the first child: the floor of the product,
saturated to `u16` as Rust's float-to-integer cast is.
SRC: layout.rs:354-360 -/
def splitExtent (extent : ℕ) (ratio : ℚ) : ℕ :=
  min ⌊(extent : ℚ) * ratio⌋.toNat u16Max

namespace LayoutNode

/-- SRC: layout.rs:135-185 -/
def computeGeometryAt : LayoutNode → ℕ → ℕ → ℕ → ℕ → Option (List (Uuid × PtyRect))
  | leaf paneId, row, col, rows, cols => some [(paneId, ⟨row, col, rows, cols⟩)]
  | split .horizontal first firstRatio second _, row, col, rows, cols => do
    let firstCols := splitExtent cols firstRatio
    let secondCols ← checkedSub cols firstCols
    let out ← first.computeGeometryAt row col rows firstCols
    let secondCol ← checkedAdd col firstCols
    let rest ← second.computeGeometryAt row secondCol rows secondCols
    return out ++ rest
  | split .vertical first firstRatio second _, row, col, rows, cols => do
    let firstRows := splitExtent rows firstRatio
    let secondRows ← checkedSub rows firstRows
    let out ← first.computeGeometryAt row col firstRows cols
    let secondRow ← checkedAdd row firstRows
    let rest ← second.computeGeometryAt secondRow col secondRows cols
    return out ++ rest

/-- One rectangle per leaf, in tree order.
SRC: layout.rs:126-133 -/
def computeGeometry (t : LayoutNode) (rows cols : ℕ) : Option (List (Uuid × PtyRect)) :=
  t.computeGeometryAt 0 0 rows cols

/-- SRC: layout.rs:300-307 -/
def contains : LayoutNode → Uuid → Bool
  | leaf id, paneId => id = paneId
  | split _ first _ second _, paneId => first.contains paneId || second.contains paneId

/-- Every leaf's pane id, pre-order.
SRC: layout.rs:309-317 -/
def leaves : LayoutNode → List Uuid
  | leaf id => [id]
  | split _ first _ second _ => first.leaves ++ second.leaves

/-- The walk of `replace_leaf`. The flag says that `f`, a `FnOnce`, has been taken: a second
matching leaf fails the `expect` on it.
SRC: layout.rs:324-346 -/
def replaceLeafGo (target : Uuid) (f : LayoutNode → LayoutNode) :
    LayoutNode → Bool → Option (LayoutNode × Bool)
  | leaf id, taken =>
    if id = target then
      if taken then none else some (f (leaf id), true)
    else some (leaf id, taken)
  | split o first firstRatio second secondRatio, taken => do
    let (first', taken) ← replaceLeafGo target f first taken
    let (second', taken) ← replaceLeafGo target f second taken
    return (split o first' firstRatio second' secondRatio, taken)

/-- SRC: layout.rs:319-351 -/
def replaceLeaf (t : LayoutNode) (target : Uuid) (f : LayoutNode → LayoutNode) :
    Option LayoutNode :=
  (replaceLeafGo target f t false).map Prod.fst

/-- Replaces the leaf for `target` by a split of it and a new leaf, each half. The outer
`Option` is a panic, the `Except` the source's `Result`; an error leaves the tree as it was.
SRC: layout.rs:187-241 -/
def split? (t : LayoutNode) (target : Uuid) (orientation : Orientation) (newPane : Uuid)
    (windowRows windowCols : ℕ) : Option (Except LayoutError LayoutNode) :=
  if !t.contains target then some (.error (.paneNotFound target)) else do
    let geometry ← t.computeGeometry windowRows windowCols
    let (_, targetRect) ← geometry.find? fun e => e.1 = target
    let (newRows, newCols) := match orientation with
      | .horizontal => (targetRect.rows, targetRect.cols / 2)
      | .vertical => (targetRect.rows / 2, targetRect.cols)
    if newRows < minPaneRows ∨ newCols < minPaneCols then
      return .error (.belowMinimumSize newRows newCols)
    if orientation = .horizontal ∧ newRows < recommendedSplitMinRows then
      return .error (.belowRecommendedSize newRows)
    let t' ← t.replaceLeaf target fun oldLeaf =>
      split orientation oldLeaf (1 / 2) (leaf newPane) (1 / 2)
    return .ok t'

/-- SRC: layout.rs:259-262, `matches!(first, LayoutNode::Leaf { .. })` -/
def isLeaf : LayoutNode → Bool
  | leaf _ => true
  | split .. => false

/-- Removes the leaf for `paneId`; its split collapses into the surviving sibling.
SRC: layout.rs:243-298 -/
def remove : LayoutNode → Uuid → RemoveOutcome
  | leaf id, paneId => if id = paneId then .windowEmpty else .collapsed (leaf id)
  | split o first firstRatio second secondRatio, paneId =>
    if first.contains paneId && first.isLeaf then .collapsed second
    else if second.contains paneId && second.isLeaf then .collapsed first
    else if first.contains paneId then
      match first.remove paneId with
      | .collapsed newFirst => .collapsed (split o newFirst firstRatio second secondRatio)
      | .windowEmpty => .collapsed second
    else if second.contains paneId then
      match second.remove paneId with
      | .collapsed newSecond => .collapsed (split o first firstRatio newSecond secondRatio)
      | .windowEmpty => .collapsed first
    else .collapsed (split o first firstRatio second secondRatio)

end LayoutNode

end Tymux.Model
