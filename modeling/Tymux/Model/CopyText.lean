import Tymux.Model.AttachLoop

/-!
# The text of a copy-mode selection

What a yank in copy mode copies: the attach loop captures the screen at the current offset and
extracts the selection from it. The text of a cell is the list of its UTF-8 bytes.
-/

set_option autoImplicit false

namespace Tymux.Model

/-- The text of a selection, in either order of its ends. An index is cast to 16 bits.
SRC: copy_mode.rs:108-137 -/
def extractSelection (grid : List (List (List UInt8))) (a b : CellPos) : List UInt8 :=
  let (start, stop) :=
    if a.row < b.row ∨ a.row = b.row ∧ a.col ≤ b.col then (a, b) else (b, a)
  grid.zipIdx.flatMap fun (row, i) =>
    let rowIdx := i % 2 ^ 16
    if rowIdx < start.row ∨ stop.row < rowIdx then []
    else
      let colStart := if rowIdx = start.row then start.col else 0
      let colEnd := if rowIdx = stop.row then stop.col else (row.length - 1) % 2 ^ 16
      (row.zipIdx.flatMap fun (cell, j) =>
        let colIdx := j % 2 ^ 16
        if colStart ≤ colIdx ∧ colIdx ≤ colEnd then cell else []) ++
          if rowIdx ≠ stop.row then [0x0a] else []

/-- What a read in copy mode yanks; `capture` is the grid that `capture_pane` answers at a
scrollback offset.
SRC: main.rs:1168-1184 -/
def CopyModeRead.yanked (read : CopyModeRead) (capture : ℕ → List (List (List UInt8))) :
    Option (List UInt8) :=
  read.yankRange.map fun (start, stop) =>
    extractSelection (capture read.state.scrollbackOffset) start stop

/-- A history that does not change: `back` lines above a screen of `rows` lines, each as wide as
the screen. -/
structure FixedHistory (rows cols back : ℕ) where
  lines : List (List (List UInt8))
  length_lines : lines.length = back + rows
  length_line : ∀ line ∈ lines, line.length = cols

/-- The screen at a scrollback offset, which is clamped to what there is.
SRC: pane.rs:1066-1081, grid.rs:228-231 -/
def FixedHistory.capture {rows cols back : ℕ} (h : FixedHistory rows cols back) (offset : ℕ) :
    List (List (List UInt8)) :=
  (h.lines.drop (back - min offset back)).take rows

end Tymux.Model
