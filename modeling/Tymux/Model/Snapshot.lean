import Tymux.Model.Vt.Screen
import Tymux.Model.Config
import Mathlib.Data.List.DropRight
import Mathlib.Data.List.Infix

/-!
# Snapshots of a pane and their text

What a pane answers to a capture: the cells of the screen as the protocol carries them, which have
no flag for a wide character, and the text that the `capture` command makes of them. Beside it the
emulator's own writer of a row, and the two reads of the history: both scroll the emulator and
scroll it back. The window title is left out, as it is of the screen.
-/

set_option autoImplicit false

namespace Tymux.Model

open Vt Lib

/-! ## Cells -/

/-- SRC: pane.rs:1345-1357 -/
def packColor : Color → ℕ
  | .default => 0
  | .idx i => 0x01000000 ||| i
  | .rgb r g b => 0x02000000 ||| r <<< 16 ||| g <<< 8 ||| b

/-- SRC: pane.rs:1371-1379 -/
def packUnderlineStyle : UnderlineStyle → ℕ
  | .single => 0
  | .double => 1
  | .curly => 2
  | .dotted => 3
  | .dashed => 4

/-- SRC: pane.rs:1359-1369, pane.rs:1381-1412 -/
def packAttrs (a : Attrs) : ℕ :=
  [(a.bold, 1), (a.underline, 2), (a.inverse, 4), (a.italic, 8), (a.dim, 16),
    (a.strikethrough, 32), (a.blink, 64), (a.conceal, 128), (a.overline, 256)].foldl
    (fun attrs (set, bit) => if set then attrs ||| bit else attrs) 0

/-- SRC: pane.rs:335-345 -/
structure CellSnapshot where
  text : List Char := []
  fg : ℕ := 0
  bg : ℕ := 0
  attrs : ℕ := 0
  underlineStyle : ℕ := 0
  underlineColor : ℕ := 0
  hyperlink : ℕ := 0
  deriving DecidableEq, Repr

/-- The links of a snapshot and where a link of the screen stands among them. -/
structure LinkTable where
  hyperlinks : List (String × String) := []
  linkIndex : List (ℕ × ℕ) := []

/-- SRC: pane.rs:1273-1284 -/
def linkEntry (screen : Screen) (index : ℕ) : StateM LinkTable ℕ := fun table =>
  if index = 0 then (0, table)
  else
    match table.linkIndex.lookup index with
    | some n => (n, table)
    | none =>
      match screen.hyperlink index with
      | some link =>
        let n := table.hyperlinks.length + 1
        (n, { hyperlinks := table.hyperlinks ++ [link], linkIndex := (index, n) :: table.linkIndex })
      | none => (0, { table with linkIndex := (index, 0) :: table.linkIndex })

/-- SRC: pane.rs:1271-1305 -/
def cellSnapshot (screen : Screen) : Option Cell → StateM LinkTable CellSnapshot
  | some cell => do
    let hyperlink ← linkEntry screen cell.attrs.hyperlink
    return {
      text := cell.contents
      fg := packColor cell.attrs.fgcolor
      bg := packColor cell.attrs.bgcolor
      attrs := packAttrs cell.attrs
      underlineStyle := packUnderlineStyle cell.attrs.underlineStyle
      underlineColor := packColor cell.attrs.ulcolor
      hyperlink }
  | none => return {}

/-! ## The screen -/

/-- SRC: pane.rs:283-299 -/
structure TerminalModes where
  appCursorKeys : Bool
  appKeypad : Bool
  bracketedPaste : Bool
  focusEvents : Bool
  mouseMode : ℕ
  mouseEncoding : ℕ
  reverseVideo : Bool
  origin : Bool
  noAutowrap : Bool
  insert : Bool
  newline : Bool
  deriving DecidableEq, Repr

/-- SRC: pane.rs:308-333 -/
def terminalModes (screen : Screen) : TerminalModes where
  appCursorKeys := screen.modes.applicationCursor
  appKeypad := screen.modes.applicationKeypad
  bracketedPaste := screen.modes.bracketedPaste
  focusEvents := screen.modes.focusEvents
  mouseMode := match screen.mouseProtocolMode with
    | .none => 0
    | .press => 1
    | .pressRelease => 2
    | .buttonMotion => 3
    | .anyMotion => 4
  mouseEncoding := match screen.mouseProtocolEncoding with
    | .default => 0
    | .utf8 => 1
    | .sgr => 2
    | .urxvt => 3
  reverseVideo := screen.modes.reverseVideo
  origin := screen.currentGrid.originMode
  noAutowrap := screen.modes.noAutowrap
  insert := screen.modes.insert
  newline := screen.modes.newline

/-- SRC: screen.rs:704-717 -/
def charsetId : Charset → ℕ
  | .ascii => 0
  | .decSpecial => 1
  | .uk => 2

/-- SRC: pane.rs:258-281 -/
structure PaneSnapshot where
  rows : ℕ
  cols : ℕ
  grid : List (List CellSnapshot)
  cursorRow : ℕ
  cursorCol : ℕ
  cursorPendingWrap : Bool
  hyperlinks : List (String × String)
  modes : TerminalModes
  cursorHidden : Bool
  cursorStyle : ℕ
  altScreen : Bool
  scrollTop : ℕ
  scrollBottom : ℕ
  tabStops : List ℕ
  charsets : List ℕ
  gl : ℕ
  deriving DecidableEq, Repr

/-- The scroll region as 1-based rows, or zeros where it covers the screen.
SRC: grid.rs:670-677 -/
def scrollRegion (g : Grid) : ℕ × ℕ :=
  if g.scrollTop = 0 ∧ g.scrollBottom + 1 = g.size.rows then (0, 0)
  else (g.scrollTop + 1, g.scrollBottom + 1)

/-- The cells of one row of the screen; `row` is the row in view, if there is one. -/
def rowSnapshot (screen : Screen) (row : Option Row) : StateM LinkTable (List CellSnapshot) :=
  (List.range screen.currentGrid.size.cols).mapM fun col =>
    cellSnapshot screen (row.bind fun row => row.cells[col]?)

/-- SRC: pane.rs:1258-1343 -/
def snapshotFromScreen (screen : Screen) : Option PaneSnapshot := do
  let g := screen.currentGrid
  let visible ← g.visibleRows
  let (grid, table) := ((List.range g.size.rows).mapM fun row =>
    rowSnapshot screen visible[row]?) |>.run {}
  return {
    rows := g.size.rows
    cols := g.size.cols
    grid
    cursorRow := g.pos.row
    cursorCol := min g.pos.col (g.size.cols - 1)
    cursorPendingWrap := g.size.cols ≤ g.pos.col
    hyperlinks := table.hyperlinks
    modes := terminalModes screen
    cursorHidden := screen.modes.hideCursor
    cursorStyle := screen.cursorStyle
    altScreen := screen.modes.alternateScreen
    scrollTop := (scrollRegion g).1
    scrollBottom := (scrollRegion g).2
    tabStops := (List.range g.tabStops.length).filter fun c => g.tabStops[c]?.getD false
    charsets := screen.charsets.g.toList.map charsetId
    gl := screen.charsets.gl.val }

/-! ## Text -/

/-- Lines as they are printed, without the blank ones at the end.
SRC: main.rs:168-171 -/
def printLines (lines : List (List Char)) : List Char :=
  (lines.rdropWhile (·.isEmpty)).flatMap (· ++ ['\n'])

/-- What the `capture` command prints. The daemon sends the text of each cell as it is in the
snapshot.
SRC: main.rs:148-172 -/
def snapshotText (snap : PaneSnapshot) : List Char :=
  printLines (snap.grid.map fun row =>
    (row.flatMap fun c => if c.text.isEmpty then [' '] else c.text).rdropWhile isWhitespace)

namespace Vt.Row

/-- Where the writer of a row stands. -/
structure Written where
  contents : List Char
  prevWasWide : Bool := false
  prevCol : ℕ

/-- SRC: row.rs:144-160 -/
def writeCell (w : Written) (cell : Cell) (col : ℕ) : Written :=
  if w.prevWasWide then { w with prevWasWide := false }
  else if cell.hasContents then
    { contents := w.contents ++ List.replicate (col - w.prevCol) ' ' ++ cell.contents
      prevWasWide := cell.wide
      prevCol := w.prevCol + (col - w.prevCol) + if cell.wide then 2 else 1 }
  else { w with prevWasWide := cell.wide }

/-- SRC: row.rs:134-165 -/
def writeContents (row : Row) (contents : List Char) (start width : ℕ) (wrapping : Bool) :
    List Char :=
  let cells := (row.cells.zipIdx.drop start).take width
  let w := cells.foldl (fun w (cell, col) => writeCell w cell col) { contents, prevCol := start }
  if w.prevCol = start ∧ wrapping then w.contents ++ ['\n'] else w.contents

end Vt.Row

/-! ## Reads -/

/-- SRC: pane.rs:1066-1081 -/
def snapshotAtOffset (screen : Screen) (offset : ℕ) : Option (Screen × PaneSnapshot) := do
  let screen ← screen.setScrollback offset
  let snapshot ← snapshotFromScreen screen
  let screen ← screen.setScrollback 0
  return (screen, snapshot)

/-- The text of the row at the top, as the search reads it.
SRC: pane.rs:1102-1107 -/
def topLine (cols : ℕ) (screen : Screen) : Option (List Char) := do
  let visible ← screen.currentGrid.visibleRows
  return (List.range cols).flatMap fun col =>
    ((visible[0]?.bind fun row => row.cells[col]?).map fun cell => cell.contents).getD []

/-- SRC: pane.rs:1099-1109 -/
def searchOffsets (pattern : List Char) (cols : ℕ) :
    Screen → List ℕ → Option (Screen × Option (ℕ × List Char))
  | screen, [] => some (screen, none)
  | screen, offset :: offsets => do
    let screen ← screen.setScrollback offset
    let line ← topLine cols screen
    if pattern <:+: line then return (screen, some (offset, line))
    else searchOffsets pattern cols screen offsets

/-- SRC: pane.rs:1083-1112 -/
def searchScrollback (screen : Screen) (pattern : List Char) (startOffset : ℕ) :
    Option (Screen × Option (ℕ × List Char)) :=
  if pattern.isEmpty then some (screen, none)
  else do
    let cols := screen.currentGrid.size.cols
    let screen ← screen.setScrollback u64Max
    let maxOffset := screen.currentGrid.scrollbackOffset
    let offsets := List.range' startOffset (maxOffset + 1 - startOffset)
    let (screen, result) ← searchOffsets pattern cols screen offsets
    let screen ← screen.setScrollback 0
    return (screen, result)

end Tymux.Model
