import Tymux.Model.Vt.Reflow

/-!
# The steps of a resize

`Grid::set_size` read as a sequence of named steps: the lines are taken together, the number of
rows is made to fit, what the scrollback can no longer hold is cut off, the lines are rewrapped and
cut to the new width, and the result is split into scrollback and rows.
-/

set_option autoImplicit false

namespace Tymux.Analysis.Vt

open Tymux.Model Tymux.Model.Vt

/-- SRC: reflow.rs:402-426 -/
def linesOf (g : Grid) (size : Size) : Lines where
  lines := g.scrollback ++ if g.size.cols < size.cols then
      g.rows.map fun line => { line with cells := resizeCells line.cells size.cols Cell.new }
    else g.rows
  ybase := g.scrollback.length
  y := g.pos.row
  savedY := if g.savedSet then g.scrollback.length + g.savedPos.row else 0
  maxLen := g.scrollbackLen + size.rows

/-- The lines with the new number of rows, and how far the position moves down for it.
SRC: reflow.rs:427-449 -/
def fitRows (oldRows : ℕ) (size : Size) (b : Lines) : Lines × ℕ :=
  if oldRows < size.rows then (growOne size.cols size.rows)^[size.rows - oldRows] (b, 0)
  else ((shrinkOne size.rows)^[oldRows - size.rows] b, 0)

/-- The lines that a smaller limit leaves no room for.
SRC: reflow.rs:450-453 -/
def surplus (g : Grid) (b : Lines) : ℕ :=
  if b.maxLen < g.scrollbackLen + g.size.rows then b.lines.length - b.maxLen else 0

/-- SRC: reflow.rs:454-460 -/
def cutTop (last trim : ℕ) (r : Lines × ℕ) : Lines where
  lines := r.1.lines.drop trim
  ybase := r.1.ybase - trim
  y := min r.1.y last + r.2
  savedY := r.1.savedY - trim
  maxLen := r.1.maxLen

theorem gather_eq (g : Grid) (size : Size) :
    g.gather size = (checkedSub size.rows 1).map fun last =>
      (cutTop last (surplus g (fitRows g.size.rows size (linesOf g size)).1)
        (fitRows g.size.rows size (linesOf g size)),
        surplus g (fitRows g.size.rows size (linesOf g size)).1) := by
  cases h : checkedSub size.rows 1 with
  | none =>
      unfold Grid.gather
      rw [h]
      rfl
  | some last =>
      unfold Grid.gather
      rw [h]
      rfl

/-- SRC: reflow.rs:463-469 -/
def rewrapped (oldCols : ℕ) (size : Size) (reflow : Bool) (b : Lines) : Option Lines :=
  if reflow ∧ oldCols ≠ size.cols ∧ 2 ≤ size.cols then
    if oldCols < size.cols then reflowLarger b oldCols size.cols size.rows
    else reflowSmaller b oldCols size.cols size.rows
  else some b

/-- The lines when they reach the padding.
SRC: reflow.rs:470-484 -/
def cutLines (cols : ℕ) (b : Lines) : List Row :=
  (b.lines.map (cropLine cols)).take b.ybase ++
    ((b.lines.map (cropLine cols)).drop b.ybase).map fun line =>
      { line with cells := resizeCells line.cells cols Cell.new }

/-- SRC: reflow.rs:486-491 -/
def padLines (cols need : ℕ) (lines : List Row) : List Row :=
  (lines ++ List.replicate (need - lines.length) (blankLine cols false)).take need

/-- The grid with its lines put back.
SRC: reflow.rs:492-507 -/
def putLines (g : Grid) (size : Size) (lastRow lastCol trim : ℕ) (b : Lines) (lines : List Row) :
    Grid :=
  { g with
    freedRows := g.freedRows + trim
    scrollback := lines.take b.ybase
    rows := lines.drop b.ybase
    size
    pos := ⟨min b.y lastRow, min g.pos.col lastCol⟩
    savedPos := ⟨min (b.savedY - b.ybase) lastRow, min g.savedPos.col lastCol⟩
    scrollTop := 0
    scrollBottom := lastRow
    scrollbackOffset := min g.scrollbackOffset (lines.take b.ybase).length }

theorem setSize_eq (g : Grid) (size : Size) (reflow : Bool) :
    g.setSize size reflow = if size = g.size then some g else do
      let r ← g.gather size
      let b ← rewrapped g.size.cols size reflow r.1
      let lastRow ← checkedSub size.rows 1
      let lastCol ← checkedSub size.cols 1
      let g ← (putLines g size lastRow lastCol r.2 b
        (padLines size.cols (b.ybase + size.rows) (cutLines size.cols b))).padScrollbackWindow
      let tabStops ← resizeTabStops g.tabStops size.cols
      return { g with tabStops } := rfl

end Tymux.Analysis.Vt
