import Tymux.Model.Layout

/-!
# The layout tree with its vectors

`layout.rs` keeps the children of a split in a vector, which by the comment at the type always has
two entries: each function here reads and builds that vector as the source does. `LayoutNode` has
the two children in the type.
-/

set_option autoImplicit false

namespace Tymux.Model

/-- SRC: layout.rs:57-72 -/
inductive VecNode where
  | leaf (paneId : Uuid)
  | split (orientation : Orientation) (children : List (VecNode × ℚ))

namespace VecNode

/-- SRC: layout.rs:74-82 -/
inductive RemoveOutcome where
  | collapsed (tree : VecNode)
  | windowEmpty

/-- SRC: layout.rs:135-185 -/
def computeGeometryAt : VecNode → ℕ → ℕ → ℕ → ℕ → Option (List (Uuid × PtyRect))
  | leaf paneId, row, col, rows, cols => some [(paneId, ⟨row, col, rows, cols⟩)]
  | split .horizontal ((first, firstRatio) :: (second, _) :: _), row, col, rows, cols => do
    let firstCols := splitExtent cols firstRatio
    let secondCols ← checkedSub cols firstCols
    let out ← first.computeGeometryAt row col rows firstCols
    let secondCol ← checkedAdd col firstCols
    let rest ← second.computeGeometryAt row secondCol rows secondCols
    return out ++ rest
  | split .vertical ((first, firstRatio) :: (second, _) :: _), row, col, rows, cols => do
    let firstRows := splitExtent rows firstRatio
    let secondRows ← checkedSub rows firstRows
    let out ← first.computeGeometryAt row col firstRows cols
    let secondRow ← checkedAdd row firstRows
    let rest ← second.computeGeometryAt secondRow col secondRows cols
    return out ++ rest
  | split _ _, _, _, _, _ => none

/-- SRC: layout.rs:126-133 -/
def computeGeometry (t : VecNode) (rows cols : ℕ) : Option (List (Uuid × PtyRect)) :=
  t.computeGeometryAt 0 0 rows cols

/-- SRC: layout.rs:300-307 -/
def contains : VecNode → Uuid → Bool
  | leaf id, paneId => id = paneId
  | split _ children, paneId => any children paneId
where
  any : List (VecNode × ℚ) → Uuid → Bool
    | [], _ => false
    | (child, _) :: children, paneId => child.contains paneId || any children paneId

/-- SRC: layout.rs:309-317 -/
def leaves : VecNode → List Uuid
  | leaf id => [id]
  | split _ children => flatMap children
where
  flatMap : List (VecNode × ℚ) → List Uuid
    | [] => []
    | (child, _) :: children => child.leaves ++ flatMap children

/-- The walk of `replace_leaf`, as in `LayoutNode.replaceLeafGo`.
SRC: layout.rs:324-346 -/
def replaceLeafGo (target : Uuid) (f : VecNode → VecNode) :
    VecNode → Bool → Option (VecNode × Bool)
  | leaf id, taken =>
    if id = target then
      if taken then none else some (f (leaf id), true)
    else some (leaf id, taken)
  | split o children, taken => do
    let (children, taken) ← each children taken
    return (split o children, taken)
where
  each : List (VecNode × ℚ) → Bool → Option (List (VecNode × ℚ) × Bool)
    | [], taken => some ([], taken)
    | (child, ratio) :: children, taken => do
      let (child, taken) ← replaceLeafGo target f child taken
      let (children, taken) ← each children taken
      return ((child, ratio) :: children, taken)

/-- SRC: layout.rs:319-351 -/
def replaceLeaf (t : VecNode) (target : Uuid) (f : VecNode → VecNode) : Option VecNode :=
  (replaceLeafGo target f t false).map Prod.fst

/-- The tree that the call leaves, and its result.
SRC: layout.rs:187-241 -/
def split? (t : VecNode) (target : Uuid) (orientation : Orientation) (newPane : Uuid)
    (windowRows windowCols : ℕ) : Option (VecNode × Except LayoutError Unit) :=
  if !t.contains target then some (t, .error (.paneNotFound target)) else do
    let geometry ← t.computeGeometry windowRows windowCols
    let (_, targetRect) ← geometry.find? fun e => e.1 = target
    let (newRows, newCols) := match orientation with
      | .horizontal => (targetRect.rows, targetRect.cols / 2)
      | .vertical => (targetRect.rows / 2, targetRect.cols)
    if newRows < minPaneRows ∨ newCols < minPaneCols then
      return (t, .error (.belowMinimumSize newRows newCols))
    if orientation = .horizontal ∧ newRows < recommendedSplitMinRows then
      return (t, .error (.belowRecommendedSize newRows))
    let t' ← t.replaceLeaf target fun oldLeaf =>
      split orientation [(oldLeaf, 1 / 2), (leaf newPane, 1 / 2)]
    return (t', .ok ())

/-- SRC: layout.rs:259-262, `matches!(first, LayoutNode::Leaf { .. })` -/
def isLeaf : VecNode → Bool
  | leaf _ => true
  | split .. => false

/-- The last two children are popped; fewer fail the `unwrap`, and more are dropped.
SRC: layout.rs:243-298 -/
def remove : VecNode → Uuid → Option RemoveOutcome
  | leaf id, paneId => some (if id = paneId then .windowEmpty else .collapsed (leaf id))
  | split o children, paneId =>
    match _hpop : children.reverse with
    | (second, secondRatio) :: (first, firstRatio) :: _ =>
      if first.contains paneId && first.isLeaf then some (.collapsed second)
      else if second.contains paneId && second.isLeaf then some (.collapsed first)
      else if first.contains paneId then
        match first.remove paneId with
        | some (.collapsed newFirst) =>
          some (.collapsed (split o [(newFirst, firstRatio), (second, secondRatio)]))
        | some .windowEmpty => some (.collapsed second)
        | none => none
      else if second.contains paneId then
        match second.remove paneId with
        | some (.collapsed newSecond) =>
          some (.collapsed (split o [(first, firstRatio), (newSecond, secondRatio)]))
        | some .windowEmpty => some (.collapsed first)
        | none => none
      else some (.collapsed (split o [(first, firstRatio), (second, secondRatio)]))
    | _ => none
  termination_by t => sizeOf t
  decreasing_by
    · have hmem : (first, firstRatio) ∈ children := by
        rw [← List.mem_reverse, _hpop]
        exact List.mem_cons_of_mem _ List.mem_cons_self
      have hsize := List.sizeOf_lt_of_mem hmem
      simp only [Prod.mk.sizeOf_spec] at hsize
      simp only [split.sizeOf_spec]
      omega
    · have hmem : (second, secondRatio) ∈ children := by
        rw [← List.mem_reverse, _hpop]
        exact List.mem_cons_self
      have hsize := List.sizeOf_lt_of_mem hmem
      simp only [Prod.mk.sizeOf_spec] at hsize
      simp only [split.sizeOf_spec]
      omega

/-- Every split has two children. -/
inductive Binary : VecNode → Prop
  | leaf (paneId : Uuid) : Binary (leaf paneId)
  | split {first second : VecNode} (o : Orientation) (firstRatio secondRatio : ℚ)
      (hfirst : Binary first) (hsecond : Binary second) :
      Binary (split o [(first, firstRatio), (second, secondRatio)])

end VecNode

end Tymux.Model
