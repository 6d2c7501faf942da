import Tymux.Model.Basic
import Tymux.Lib.Total

/-!
# Cells and rows of the emulator

`cell.rs`, `attrs.rs` and the part of `row.rs` that changes rows. A cell holds one character
with its combining marks, or one half of a wide character; a row is a list of cells and a flag
that says whether it continues the row above. An access that is out of bounds panics, which is
`none` here.

The display width of a character comes from the `unicode-width` crate and is the parameter
`width`.
-/

set_option autoImplicit false

namespace Tymux.Model.Vt

open Tymux.Lib

/-- SRC: attrs.rs:4-16 -/
inductive Color where
  | default
  | idx (n : ℕ)
  | rgb (r g b : ℕ)
  deriving DecidableEq, Repr

/-- SRC: attrs.rs:29-43 -/
inductive UnderlineStyle where
  | single
  | double
  | curly
  | dotted
  | dashed
  deriving DecidableEq, Repr

/-- The bits of `mode` are fields of their own.
SRC: attrs.rs:45-57 -/
structure Attrs where
  fgcolor : Color := .default
  bgcolor : Color := .default
  ulcolor : Color := .default
  bold : Bool := false
  dim : Bool := false
  italic : Bool := false
  underline : Bool := false
  inverse : Bool := false
  strikethrough : Bool := false
  blink : Bool := false
  conceal : Bool := false
  overline : Bool := false
  underlineStyle : UnderlineStyle := .single
  hyperlink : ℕ := 0
  deriving DecidableEq, Repr

namespace Attrs

/-- SRC: attrs.rs:91-101 -/
def setUnderline (a : Attrs) : Option UnderlineStyle → Attrs
  | some style => { a with underline := true, underlineStyle := style }
  | none => { a with underline := false, underlineStyle := .single }

/-- SRC: attrs.rs:109-115 -/
def sgrReset (a : Attrs) : Attrs := { hyperlink := a.hyperlink }

/-- SRC: attrs.rs:117-125 -/
def forErase (a : Attrs) : Attrs := { bgcolor := a.bgcolor }

end Attrs

/-- `CONTENT_BYTES` -/
def contentBytes : ℕ := 22

/-- The length byte of the source is split into the characters and the two flags.
SRC: cell.rs:9-15 -/
structure Cell where
  contents : List Char := []
  wide : Bool := false
  wideContinuation : Bool := false
  attrs : Attrs := {}
  deriving DecidableEq, Repr

namespace Cell

/-- SRC: cell.rs:31-37 -/
def new : Cell := {}

/-- SRC: cell.rs:39-41 -/
def len (c : Cell) : ℕ := (c.contents.map Char.utf8Size).sum

/-- SRC: cell.rs:92-94 -/
def hasContents (c : Cell) : Bool := 0 < c.len

/-- `c.is_ascii()` -/
def isAscii (c : Char) : Bool := c.toNat < 128

/-- SRC: cell.rs:43-51 -/
def set (width : Char → Option ℕ) (_ : Cell) (c : Char) (a : Attrs) : Cell where
  contents := [c]
  wide := !isAscii c && (width c).getD 1 > 1
  wideContinuation := false
  attrs := a

/-- SRC: cell.rs:53-72 -/
def append (cell : Cell) (c : Char) : Cell :=
  if contentBytes - 4 ≤ cell.len then cell
  else if cell.len = 0 then { cell with contents := [' ', c] }
  else { cell with contents := cell.contents ++ [c] }

/-- SRC: cell.rs:74-77 -/
def clear (_ : Cell) (attrs : Attrs) : Cell := { attrs }

end Cell

/-- SRC: row.rs:3-8 -/
structure Row where
  cells : List Cell
  wrapped : Bool
  deriving DecidableEq, Repr

/-- `cells.resize(len, cell)` -/
def resizeCells (cells : List Cell) (len : ℕ) (cell : Cell) : List Cell :=
  cells.take len ++ List.replicate (len - cells.length) cell

namespace Row

/-- SRC: row.rs:38-45 -/
def new (cols : ℕ) : Row where
  cells := List.replicate cols Cell.new
  wrapped := false

/-- SRC: row.rs:59-64 -/
def clear (row : Row) (attrs : Attrs) : Row where
  cells := row.cells.map (·.clear attrs)
  wrapped := false

def wrap (row : Row) (wrapped : Bool) : Row := { row with wrapped }

/-- `row.get_mut(col).unwrap()`, changed by `f`. -/
def modify (row : Row) (col : ℕ) (f : Cell → Cell) : Option Row := do
  let cells ← updateAt row.cells col fun c => some (f c)
  return { row with cells }

/-- SRC: row.rs:78-82 -/
def insert (row : Row) (i : ℕ) (cell : Cell) : Option Row := do
  let cells ← insertAt row.cells i cell
  return { row with cells }

/-- SRC: row.rs:121-131 -/
def clearWide (row : Row) (col : ℕ) : Option Row := do
  let cell ← row.cells[col]?
  if cell.wide then row.modify (col + 1) fun other => other.clear other.attrs
  else if cell.wideContinuation then
    let before ← checkedSub col 1
    row.modify before fun other => other.clear other.attrs
  else return row

/-- SRC: row.rs:84-87 -/
def remove (row : Row) (i : ℕ) : Option Row := do
  let row ← row.clearWide i
  let r ← removeAt row.cells i
  return { row with cells := r.2 }

/-- SRC: row.rs:89-92 -/
def erase (row : Row) (i : ℕ) (attrs : Attrs) : Option Row := do
  let row ← row.clearWide i
  row.modify i fun c => c.clear attrs

/-- SRC: row.rs:94-100 -/
def truncate (row : Row) (len : ℕ) : Option Row := do
  let last ← checkedSub len 1
  let row := { row with cells := row.cells.take len }
  row.modify last fun c => if c.wide then c.clear c.attrs else c

/-- SRC: row.rs:102-112 -/
def resize (row : Row) (len : ℕ) (cell : Cell) : Row :=
  let cells := resizeCells row.cells len cell
  match cells.getLast? with
  | none => { row with cells }
  | some last => { row with cells := if last.wide then cells.dropLast ++ [cell] else cells }

end Row

end Tymux.Model.Vt
