import Tymux.Model.Vt.Reflow

/-!
# The screen of the emulator

`screen.rs`: the two grids with the pen, the character sets, the modes and the hyperlink table,
and what each control does to them. The operations that the source gives an `unhandled` callback
return how often they call it. The window title is left out: nothing but its own getter reads it.
-/

set_option autoImplicit false

namespace Tymux.Model.Vt

open Tymux.Lib

/-- `MAX_HYPERLINKS`, `MAX_COMPACT_SKIP`, `MAX_URI_BYTES` and `MAX_LINK_ID_BYTES` -/
def maxHyperlinks : ℕ := 4096

def maxCompactSkip : ℕ := 1024

def maxUriBytes : ℕ := 8192

def maxLinkIdBytes : ℕ := 256

/-- SRC: screen.rs:31-54 -/
inductive MouseProtocolMode where
  | none
  | press
  | pressRelease
  | buttonMotion
  | anyMotion
  deriving DecidableEq, Repr

/-- SRC: screen.rs:57-71 -/
inductive MouseProtocolEncoding where
  | default
  | utf8
  | sgr
  | urxvt
  deriving DecidableEq, Repr

/-- SRC: screen.rs:74-80 -/
inductive Charset where
  | ascii
  | decSpecial
  | uk
  deriving DecidableEq, Repr

/-- SRC: screen.rs:108-144 -/
def decSpecialGraphics (c : Char) : Char :=
  match c with
  | '_' => Char.ofNat 0xa0
  | '\x60' => Char.ofNat 0x25c6
  | 'a' => Char.ofNat 0x2592
  | 'b' => Char.ofNat 0x2409
  | 'c' => Char.ofNat 0x240c
  | 'd' => Char.ofNat 0x240d
  | 'e' => Char.ofNat 0x240a
  | 'f' => Char.ofNat 0xb0
  | 'g' => Char.ofNat 0xb1
  | 'h' => Char.ofNat 0x2424
  | 'i' => Char.ofNat 0x240b
  | 'j' => Char.ofNat 0x2518
  | 'k' => Char.ofNat 0x2510
  | 'l' => Char.ofNat 0x250c
  | 'm' => Char.ofNat 0x2514
  | 'n' => Char.ofNat 0x253c
  | 'o' => Char.ofNat 0x23ba
  | 'p' => Char.ofNat 0x23bb
  | 'q' => Char.ofNat 0x2500
  | 'r' => Char.ofNat 0x23bc
  | 's' => Char.ofNat 0x23bd
  | 't' => Char.ofNat 0x251c
  | 'u' => Char.ofNat 0x2524
  | 'v' => Char.ofNat 0x2534
  | 'w' => Char.ofNat 0x252c
  | 'x' => Char.ofNat 0x2502
  | 'y' => Char.ofNat 0x2264
  | 'z' => Char.ofNat 0x2265
  | '\x7b' => Char.ofNat 0x3c0
  | '|' => Char.ofNat 0x2260
  | '\x7d' => Char.ofNat 0xa3
  | '~' => Char.ofNat 0xb7
  | _ => c

namespace Charset

/-- SRC: screen.rs:83-90 -/
def fromFinal (b : UInt8) : Option Charset :=
  if b = 0x42 then some .ascii
  else if b = 0x30 then some .decSpecial
  else if b = 0x41 then some .uk
  else none

/-- SRC: screen.rs:92-104 -/
def map (set : Charset) (c : Char) : Char :=
  match set with
  | ascii => c
  | uk => if c = '#' then Char.ofNat 0xa3 else c
  | decSpecial => decSpecialGraphics c

end Charset

/-- There are four character sets, G0 to G3. -/
instance neZero_charsets : NeZero 4 := ⟨by decide⟩

/-- SRC: screen.rs:147-155 -/
structure Charsets where
  g : Vector Charset 4 := Vector.replicate 4 .ascii
  gl : Fin 4 := 0
  singleShift : Option (Fin 4) := none

/-- The bits of `modes`.
SRC: screen.rs:16-28 -/
structure Modes where
  applicationKeypad : Bool := false
  applicationCursor : Bool := false
  hideCursor : Bool := false
  alternateScreen : Bool := false
  bracketedPaste : Bool := false
  insert : Bool := false
  newline : Bool := false
  noAutowrap : Bool := false
  focusEvents : Bool := false
  reverseVideo : Bool := false
  deriving DecidableEq, Repr

/-- SRC: screen.rs:158-188 -/
structure Screen where
  grid : Grid
  alternateGrid : Grid
  attrs : Attrs := {}
  savedAttrs : Attrs := {}
  charsets : Charsets := {}
  savedCharsets : Charsets := {}
  lastBase : Char := ' '
  lastMarks : List Char := []
  lastClusterLive : Bool := false
  hyperlinks : List (String × String) := []
  compactSkip : ℕ := 0
  compactDelay : ℕ := 0
  compactFreedMark : ℕ := 0
  cursorStyle : ℕ := 0
  modes : Modes := {}
  mouseProtocolMode : MouseProtocolMode := .none
  mouseProtocolEncoding : MouseProtocolEncoding := .default

/-- The display width of a character.
SRC: screen.rs:1846-1852 -/
def charWidth (width : Char → Option ℕ) (c : Char) : Option ℕ :=
  if ' ' ≤ c ∧ c ≤ '~' then some 1
  else if c.toNat = 0xad then some 1
  else width c

namespace Screen

/-- SRC: screen.rs:191-217 -/
def new (size : Size) (scrollbackLen : ℕ) : Option Screen := do
  let grid ← Grid.new size scrollbackLen
  let alternateGrid ← Grid.new size 0
  return { grid := grid.allocateRows, alternateGrid }

/-- SRC: screen.rs:808-814 -/
def currentGrid (s : Screen) : Grid := if s.modes.alternateScreen then s.alternateGrid else s.grid

/-- `grid_mut`
SRC: screen.rs:816-822 -/
def putGrid (s : Screen) (g : Grid) : Screen :=
  if s.modes.alternateScreen then { s with alternateGrid := g } else { s with grid := g }

def withGrid (s : Screen) (f : Grid → Option Grid) : Option Screen :=
  (f s.currentGrid).map s.putGrid

/-- SRC: screen.rs:220-224 -/
def setSize (s : Screen) (rows cols : ℕ) : Option Screen := do
  let grid ← s.grid.setSize ⟨rows, cols⟩ true
  let alternateGrid ← s.alternateGrid.setSize ⟨rows, cols⟩ false
  return { s with grid, alternateGrid }

/-- SRC: screen.rs:245-247 -/
def setScrollback (s : Screen) (rows : ℕ) : Option Screen := s.withGrid (·.setScrollback rows)

/-- SRC: screen.rs:827-836 -/
def enterAlternateGrid (s : Screen) : Option Screen :=
  if s.modes.alternateScreen then some s
  else do
    let s ← s.setScrollback 0
    return { s with
      modes := { s.modes with alternateScreen := true }
      alternateGrid := { s.alternateGrid.allocateRows with pos := s.grid.pos } }

/-- SRC: screen.rs:838-845 -/
def exitAlternateGrid (s : Screen) : Screen :=
  if s.modes.alternateScreen then
    { s with
      modes := { s.modes with alternateScreen := false }
      grid := { s.grid with pos := s.alternateGrid.pos } }
  else s

/-- SRC: screen.rs:847-851 -/
def saveCursor (s : Screen) : Screen where
  __ := s.putGrid s.currentGrid.saveCursor
  savedAttrs := s.attrs
  savedCharsets := s.charsets

/-- SRC: screen.rs:861-865 -/
def syncBlankAttrs (s : Screen) : Screen where
  __ := s
  grid := { s.grid with blankAttrs := s.attrs.forErase }
  alternateGrid := { s.alternateGrid with blankAttrs := s.attrs.forErase }

/-- SRC: screen.rs:853-858 -/
def restoreCursor (s : Screen) : Option Screen := do
  let s ← s.withGrid (·.restoreCursor)
  return { s with attrs := s.savedAttrs, charsets := s.savedCharsets }.syncBlankAttrs

/-! ## Hyperlinks -/

/-- SRC: screen.rs:868-876 -/
def hyperlink (s : Screen) (index : ℕ) : Option (String × String) := do
  let i ← checkedSub index 1
  s.hyperlinks[i]?

/-- SRC: screen.rs:950-952 -/
def freedRows (s : Screen) : ℕ := s.grid.freedRows + s.alternateGrid.freedRows

/-- The hyperlinks of all stored cells. -/
def cellLinks (g : Grid) : List ℕ :=
  (g.rows ++ g.scrollback).flatMap fun row => row.cells.map fun c => c.attrs.hyperlink

def mapLinks (f : ℕ → ℕ) (g : Grid) : Grid :=
  let onRow := fun row : Row => { row with
    cells := row.cells.map fun c => { c with attrs.hyperlink := f c.attrs.hyperlink } }
  { g with rows := g.rows.map onRow, scrollback := g.scrollback.map onRow }

/-- SRC: screen.rs:956-1001 -/
def compactHyperlinks (s : Screen) : Screen × Bool :=
  let refs := s.attrs.hyperlink :: s.savedAttrs.hyperlink ::
    (cellLinks s.grid ++ cellLinks s.alternateGrid)
  let indices := (List.range s.hyperlinks.length).map (· + 1)
  if indices.all fun i => !refs.contains i then ({ s with hyperlinks := [] }, true)
  else if indices.all fun i => refs.contains i then (s, false)
  else
    let kept := indices.filter fun i => refs.contains i
    -- the new index is the place among the entries that are kept
    let renumber := fun i => if i ∈ kept then kept.idxOf i + 1 else 0
    ({ s with
      hyperlinks := kept.filterMap fun i => s.hyperlinks[i - 1]?
      attrs.hyperlink := renumber s.attrs.hyperlink
      savedAttrs.hyperlink := renumber s.savedAttrs.hyperlink
      grid := mapLinks renumber s.grid
      alternateGrid := mapLinks renumber s.alternateGrid }, true)

/-- `char::is_control` -/
def isControl (c : Char) : Bool := c.toNat < 0x20 || (0x7f ≤ c.toNat && c.toNat ≤ 0x9f)

/-- A full table is compacted, unless the backoff after a futile scan says otherwise.
SRC: screen.rs:912-927 -/
def makeRoom (s : Screen) : Option Screen := do
  let freed ← checkedSub s.freedRows s.compactFreedMark
  let s := if minRearmRows ≤ freed then { s with compactSkip := 0, compactDelay := 0 } else s
  if 0 < s.compactSkip then return { s with compactSkip := s.compactSkip - 1 }
  else
    match s.compactHyperlinks with
    | (s, true) => return { s with compactDelay := 0 }
    | (s, false) =>
      let delay := max 1 (min (s.compactDelay * 2) maxCompactSkip)
      return { s with compactDelay := delay, compactSkip := delay, compactFreedMark := s.freedRows }

/-- The index of the link in the table, entered if there is room.
SRC: screen.rs:901-945 -/
def linkTo (s : Screen) (link : String × String) : Option Screen :=
  match s.hyperlinks.idxOf? link with
  | some i => some { s with attrs.hyperlink := i + 1 }
  | none => do
    let s ← (if maxHyperlinks ≤ s.hyperlinks.length then s.makeRoom else some s)
    if maxHyperlinks ≤ s.hyperlinks.length then return { s with attrs.hyperlink := 0 }
    else
      match s.hyperlinks.idxOf? link with
      | some i => return { s with attrs.hyperlink := i + 1 }
      | none => return { s with
          hyperlinks := s.hyperlinks ++ [link]
          attrs.hyperlink := s.hyperlinks.length + 1 }

/-- SRC: screen.rs:878-948 -/
def osc8 (s : Screen) (params uri : List UInt8) : Option Screen :=
  let s := { s with lastClusterLive := false }
  let ended := { s with attrs.hyperlink := 0 }
  if uri.isEmpty then some ended
  else
    match String.fromUTF8? ⟨uri.toArray⟩, String.fromUTF8? ⟨params.toArray⟩ with
    | some uri, some params =>
      let id := ((params.splitOn ":").findSome? fun kv =>
        if kv.startsWith "id=" then some ((kv.drop 3).toString) else none).getD ""
      if maxUriBytes < uri.utf8ByteSize ∨ maxLinkIdBytes < id.utf8ByteSize ∨
          uri.toList.any isControl ∨ id.toList.any isControl then some ended
      else s.linkTo (uri, id)
    | _, _ => some ended

/-! ## Character sets -/

/-- SRC: screen.rs:1004-1018 -/
def scs (s : Screen) (slot finalByte : UInt8) : Screen :=
  let s := { s with lastClusterLive := false }
  let set := (Charset.fromFinal finalByte).getD .ascii
  let g : Option (Fin 4) := if slot = 0x28 then some 0 else if slot = 0x29 then some 1
    else if slot = 0x2a then some 2 else if slot = 0x2b then some 3 else none
  match g with
  | some i => { s with charsets.g := s.charsets.g.set i set }
  | none => s

/-- SRC: screen.rs:1021-1024 -/
def shift (s : Screen) (g : Fin 4) : Screen :=
  { s with lastClusterLive := false, charsets.gl := g }

/-- SRC: screen.rs:1027-1030 -/
def singleShift (s : Screen) (g : Fin 4) : Screen :=
  { s with lastClusterLive := false, charsets.singleShift := some g }

/-- SRC: screen.rs:1033-1035 -/
def breakRep (s : Screen) : Screen := { s with lastClusterLive := false }

/-! ## Drawing -/

/-- A combining mark joins the character before the cursor.
SRC: screen.rs:1199-1260 -/
def drawMark (g : Grid) (c : Char) : Option Grid :=
  if 0 < g.pos.col then do
    let before : Pos := ⟨g.pos.row, g.pos.col - 1⟩
    let prev ← g.drawingCell before
    if prev.wideContinuation then
      let col ← checkedSub g.pos.col 2
      g.modifyCell ⟨g.pos.row, col⟩ (·.append c)
    else g.modifyCell before (·.append c)
  else if 0 < g.pos.row then
    if g.rows[g.pos.row]?.any fun row => row.wrapped then do
      let last ← checkedSub g.size.cols 1
      let prev ← g.drawingCell ⟨g.pos.row - 1, last⟩
      if prev.wideContinuation then
        let col ← checkedSub g.size.cols 2
        g.modifyCell ⟨g.pos.row - 1, col⟩ (·.append c)
      else g.modifyCell ⟨g.pos.row - 1, last⟩ (·.append c)
    else some g
  else some g

/-- The cell at `pos`, if there is one, changed by `f`. -/
def tryModifyCell (g : Grid) (pos : Pos) (f : Cell → Cell) : Option Grid :=
  if (g.drawingCell pos).isSome then g.modifyCell pos f else some g

/-- The first half, or the whole, of a character is written at the cursor.
SRC: screen.rs:1261-1321 -/
def drawFirst (width : Char → Option ℕ) (attrs : Attrs) (g : Grid) (c : Char) : Option Grid := do
  let cell ← g.drawingCell g.pos
  let g ← (if cell.wideContinuation then do
      let col ← checkedSub g.pos.col 1
      g.modifyCell ⟨g.pos.row, col⟩ (·.clear attrs)
    else some g)
  let cell ← g.drawingCell g.pos
  let g ← (if cell.wide then
      tryModifyCell g ⟨g.pos.row, g.pos.col + 1⟩ fun next => next.set width ' ' attrs
    else some g)
  let g ← g.modifyCell g.pos fun cell => cell.set width c attrs
  return g.colInc 1

/-- The second half of a wide character.
SRC: screen.rs:1322-1356 -/
def drawSecond (attrs : Attrs) (g : Grid) : Option Grid := do
  let cell ← g.drawingCell g.pos
  let g ← (if cell.wide then
      tryModifyCell g ⟨g.pos.row, g.pos.col + 1⟩ fun next => next.clear attrs
    else some g)
  let g ← g.modifyCell g.pos fun cell => { cell.clear attrs with wideContinuation := true }
  return g.colInc 1

/-- SRC: screen.rs:1193-1357 -/
def drawAt (width : Char → Option ℕ) (attrs : Attrs) (insert : Bool) (g : Grid) (c : Char) (w : ℕ) :
    Option Grid := do
  let g ← (if insert ∧ 0 < w then g.insertCells w else some g)
  if w = 0 then drawMark g c
  else
    let g ← drawFirst width attrs g c
    if 1 < w then drawSecond attrs g else return g

/-- A wide character that does not fit leaves the last column blank.
SRC: screen.rs:1179-1189 -/
def blankLast (attrs : Attrs) (g : Grid) (w : ℕ) : Option Grid :=
  if 1 < w then do
    let last ← checkedSub g.size.cols 1
    if g.pos.col = last ∧ g.pos.row < g.rows.length then
      g.modifyCurrentRow fun row => row.erase last { attrs with hyperlink := 0 }
    else return g
  else some g

/-- What happens before the character is written, and whether it is written.
SRC: screen.rs:1165-1192 -/
def drawWrap (attrs : Attrs) (noAutowrap : Bool) (g : Grid) (w : ℕ) : Option (Grid × Bool) :=
  if noAutowrap then do
    let last ← checkedSub g.size.cols w
    if last < g.pos.col then
      let lastCol ← checkedSub g.size.cols 1
      let g ← g.colSet lastCol
      return (g, w ≤ 1)
    else return (g, true)
  else do
    let g ← blankLast attrs g w
    let g ← g.colWrap w
    return (g, true)

/-- SRC: screen.rs:1124-1358 -/
def draw (width : Char → Option ℕ) (s : Screen) (c : Char) : Option Screen :=
  if c.toNat = 0xfeff then some s
  else if charWidth width c = none ∧ c.toNat < 256 then some s
  else
    let g := s.currentGrid
    let w := (charWidth width c).getD 1
    if g.size.cols < w then some s
    else if w = 1 ∧ g.pos.col < g.size.cols ∧ !s.modes.insert ∧
        (g.drawingCell g.pos).any fun cell => !cell.wide && !cell.wideContinuation then
      s.withGrid fun g => do
        let g ← g.modifyCell g.pos fun cell => cell.set width c s.attrs
        return g.colInc 1
    else s.withGrid fun g => do
      let r ← drawWrap s.attrs s.modes.noAutowrap g w
      if r.2 then drawAt width s.attrs s.modes.insert r.1 c w else return r.1

/-- SRC: screen.rs:1038-1057 -/
def rep (width : Char → Option ℕ) (s : Screen) (count : ℕ) : Option Screen :=
  if s.lastClusterLive then do
    let base := s.lastBase
    let marks := s.lastMarks
    let size := s.currentGrid.size
    let s ← repeatM (fun s : Screen => do
      let s ← s.draw width base
      marks.foldlM (fun s c => s.draw width c) s) (min count (size.rows * size.cols)) s
    return { s with lastClusterLive := false }
  else some s

/-- SRC: screen.rs:1093-1115 -/
def text (width : Char → Option ℕ) (s : Screen) (c : Char) : Option Screen := do
  let g := s.charsets.singleShift.getD s.charsets.gl
  let s := { s with charsets.singleShift := none }
  let c := (s.charsets.g[g]).map c
  let s ← s.draw width c
  match charWidth width c with
  | none => return s
  | some 0 => return if s.lastClusterLive then { s with lastMarks := s.lastMarks ++ [c] } else s
  | some _ => return { s with lastBase := c, lastMarks := [], lastClusterLive := true }

/-! ## Controls -/

/-- SRC: screen.rs:1470-1472 -/
def cr (s : Screen) : Option Screen := s.withGrid (·.colSet 0)

/-- SRC: screen.rs:1362-1364 -/
def bs (s : Screen) : Option Screen := s.withGrid (·.colDecRestricted 1)

/-- SRC: screen.rs:1366-1368 -/
def tab (s : Screen) : Option Screen := s.withGrid (·.colForwardTab 1)

/-- SRC: screen.rs:1370-1375 -/
def lf (s : Screen) : Option Screen := do
  let s ← (if s.modes.newline then s.cr else some s)
  s.withGrid (·.lineFeed)

/-- SRC: screen.rs:1378-1382 -/
def ind (s : Screen) : Option Screen := s.withGrid fun g => do
  let g ← g.colClamp
  let r ← g.rowIncScroll 1
  return r.1

/-- SRC: screen.rs:1385-1388 -/
def nel (s : Screen) : Option Screen := s.cr >>= ind

/-- SRC: screen.rs:1391-1393 -/
def hts (s : Screen) : Screen := s.putGrid s.currentGrid.setTabStop

/-- SRC: screen.rs:1396-1402 -/
def tbc (s : Screen) (mode : ℕ) : Screen × ℕ :=
  match mode with
  | 0 => (s.putGrid s.currentGrid.clearTabStop, 0)
  | 3 => (s.putGrid s.currentGrid.clearAllTabStops, 0)
  | _ => (s, 1)

/-- SRC: screen.rs:1405-1411 -/
def cht (s : Screen) (count : ℕ) : Option Screen := s.withGrid (·.colForwardTab count)

def cbt (s : Screen) (count : ℕ) : Option Screen := s.withGrid (·.colBackTab count)

/-- SRC: screen.rs:1414-1416 -/
def decaln (width : Char → Option ℕ) (s : Screen) : Option Screen := s.withGrid (·.alignTest width)

/-- SRC: screen.rs:1419-1436 -/
def decstr (s : Screen) : Option Screen := do
  let s := { s with
    attrs := {}
    savedAttrs := {}
    charsets := {}
    savedCharsets := {}
    lastClusterLive := false
    cursorStyle := 0
    modes := { s.modes with
      insert := false
      newline := false
      noAutowrap := false
      applicationCursor := false
      applicationKeypad := false
      hideCursor := false } }
  let s ← s.withGrid (·.softReset)
  return s.syncBlankAttrs

/-- SRC: screen.rs:1439-1460 -/
def ansiMode (s : Screen) (params : List (List ℕ)) (on : Bool) : Screen × ℕ :=
  params.foldl (fun r param => match param with
    | [4] => ({ r.1 with modes := { r.1.modes with insert := on } }, r.2)
    | [20] => ({ r.1 with modes := { r.1.modes with newline := on } }, r.2)
    | _ => (r.1, r.2 + 1)) (s, 0)

/-- SRC: screen.rs:1487-1494 -/
def deckpam (s : Screen) (on : Bool) : Screen :=
  { s with modes := { s.modes with applicationKeypad := on } }

/-- SRC: screen.rs:1497-1499 -/
def ri (s : Screen) : Option Screen := s.withGrid (·.reverseIndex)

/-- SRC: screen.rs:1502-1504 -/
def ris (s : Screen) : Option Screen := new s.grid.size s.grid.scrollbackLen

/-- SRC: screen.rs:1509-1512 -/
def ich (s : Screen) (count : ℕ) : Option Screen :=
  s.withGrid fun g => do (← g.colClamp).insertCells count

/-- SRC: screen.rs:1515-1518 -/
def cuu (s : Screen) (offset : ℕ) : Option Screen :=
  s.withGrid fun g => do return (← g.colClamp).rowDecClamp offset

/-- SRC: screen.rs:1521-1524 -/
def cud (s : Screen) (offset : ℕ) : Option Screen :=
  s.withGrid fun g => do (← g.colClamp).rowIncClamp offset

/-- SRC: screen.rs:1527-1529 -/
def cuf (s : Screen) (offset : ℕ) : Option Screen := s.withGrid (·.colIncClamp offset)

/-- SRC: screen.rs:1532-1534 -/
def cub (s : Screen) (offset : ℕ) : Option Screen := s.withGrid (·.colDecRestricted offset)

/-- SRC: screen.rs:1537-1540 -/
def cnl (s : Screen) (offset : ℕ) : Option Screen :=
  s.withGrid fun g => do (← g.colSet 0).rowIncClamp offset

/-- SRC: screen.rs:1543-1546 -/
def cpl (s : Screen) (offset : ℕ) : Option Screen :=
  s.withGrid fun g => do return (← g.colSet 0).rowDecClamp offset

/-- SRC: screen.rs:1549-1551 -/
def cha (s : Screen) (col : ℕ) : Option Screen := do
  let col ← checkedSub col 1
  s.withGrid (·.colSet col)

/-- SRC: screen.rs:1554-1559 -/
def cup (s : Screen) (row col : ℕ) : Option Screen := do
  let row ← checkedSub row 1
  let col ← checkedSub col 1
  s.withGrid (·.setPos ⟨row, col⟩)

/-- SRC: screen.rs:1562-1570 -/
def ed (s : Screen) (mode : ℕ) : Option (Screen × ℕ) :=
  let attrs := s.attrs.forErase
  match mode with
  | 0 => (s.withGrid (·.eraseAllForward attrs)).map (·, 0)
  | 1 => (s.withGrid (·.eraseAllBackward attrs)).map (·, 0)
  | 2 => some (s.putGrid (s.currentGrid.eraseAll attrs), 0)
  | _ => some (s, 1)

/-- SRC: screen.rs:1578-1586 -/
def el (s : Screen) (mode : ℕ) : Option (Screen × ℕ) :=
  let attrs := s.attrs.forErase
  match mode with
  | 0 => (s.withGrid (·.eraseRowForward attrs)).map (·, 0)
  | 1 => (s.withGrid (·.eraseRowBackward attrs)).map (·, 0)
  | 2 => (s.withGrid (·.eraseRow attrs)).map (·, 0)
  | _ => some (s, 1)

/-- SRC: screen.rs:1594-1601 -/
def il (s : Screen) (count : ℕ) : Option Screen := s.withGrid (·.insertLines count)

def dl (s : Screen) (count : ℕ) : Option Screen := s.withGrid (·.deleteLines count)

/-- SRC: screen.rs:1604-1607 -/
def dch (s : Screen) (count : ℕ) : Option Screen :=
  s.withGrid fun g => do (← g.colClamp).deleteCells count

/-- SRC: screen.rs:1610-1617 -/
def su (s : Screen) (count : ℕ) : Option Screen := s.withGrid (·.scrollUpDiscard count)

def sd (s : Screen) (count : ℕ) : Option Screen := s.withGrid (·.scrollDown count false)

/-- SRC: screen.rs:1620-1624 -/
def ech (s : Screen) (count : ℕ) : Option Screen :=
  s.withGrid fun g => do (← g.colClamp).eraseCells count s.attrs.forErase

/-- SRC: screen.rs:1627-1630 -/
def vpa (s : Screen) (row : ℕ) : Option Screen := do
  let s ← s.withGrid (·.colClamp)
  let row ← checkedSub row 1
  s.withGrid (·.rowSet row)

/-- SRC: screen.rs:1059-1073 -/
def setMouseMode (s : Screen) (mode : MouseProtocolMode) : Screen :=
  { s with mouseProtocolMode := mode }

def clearMouseMode (s : Screen) (mode : MouseProtocolMode) : Screen :=
  if s.mouseProtocolMode = mode then { s with mouseProtocolMode := .none } else s

/-- SRC: screen.rs:1081-1089 -/
def setMouseEncoding (s : Screen) (encoding : MouseProtocolEncoding) : Screen :=
  { s with mouseProtocolEncoding := encoding }

def clearMouseEncoding (s : Screen) (encoding : MouseProtocolEncoding) : Screen :=
  if s.mouseProtocolEncoding = encoding then { s with mouseProtocolEncoding := .default } else s

/-- The parameter is handled. -/
def handled (s : Screen) : Option (Option Screen) := some (some s)

def withModes (s : Screen) (modes : Modes) : Screen := { s with modes }

/-- One parameter of `CSI ? h`; `none` inside is an unhandled one.
SRC: screen.rs:1633-1672 -/
def decsetOne (s : Screen) (param : List ℕ) : Option (Option Screen) :=
  match param with
  | [1] => handled (s.withModes { s.modes with applicationCursor := true })
  | [5] => handled (s.withModes { s.modes with reverseVideo := true })
  | [6] => (s.withGrid (·.setOriginMode true)).map some
  | [7] => handled (s.withModes { s.modes with noAutowrap := false })
  | [9] => handled (s.setMouseMode .press)
  | [25] => handled (s.withModes { s.modes with hideCursor := false })
  | [47] => s.enterAlternateGrid.map some
  | [1047] => s.enterAlternateGrid.map some
  | [1048] => handled s.saveCursor
  | [1000] => handled (s.setMouseMode .pressRelease)
  | [1002] => handled (s.setMouseMode .buttonMotion)
  | [1003] => handled (s.setMouseMode .anyMotion)
  | [1005] => handled (s.setMouseEncoding .utf8)
  | [1006] => handled (s.setMouseEncoding .sgr)
  | [1015] => handled (s.setMouseEncoding .urxvt)
  | [1004] => handled (s.withModes { s.modes with focusEvents := true })
  | [1049] => do
    let s := s.saveCursor
    let s ← (if s.modes.alternateScreen then some s
      else (s.alternateGrid.clear).map fun g => { s with alternateGrid := g })
    s.enterAlternateGrid.map some
  | [2004] => handled (s.withModes { s.modes with bracketedPaste := true })
  | _ => some none

/-- One parameter of `CSI ? l`.
SRC: screen.rs:1675-1719 -/
def decrstOne (s : Screen) (param : List ℕ) : Option (Option Screen) :=
  match param with
  | [1] => handled (s.withModes { s.modes with applicationCursor := false })
  | [5] => handled (s.withModes { s.modes with reverseVideo := false })
  | [6] => (s.withGrid (·.setOriginMode false)).map some
  | [7] => handled (s.withModes { s.modes with noAutowrap := true })
  | [9] => handled (s.clearMouseMode .press)
  | [25] => handled (s.withModes { s.modes with hideCursor := true })
  | [47] => handled s.exitAlternateGrid
  | [1047] =>
    let s := s.exitAlternateGrid
    (s.alternateGrid.clear).map fun g => some { s with alternateGrid := g }
  | [1048] => s.restoreCursor.map some
  | [1000] => handled (s.clearMouseMode .pressRelease)
  | [1002] => handled (s.clearMouseMode .buttonMotion)
  | [1003] => handled (s.clearMouseMode .anyMotion)
  | [1005] => handled (s.clearMouseEncoding .utf8)
  | [1006] => handled (s.clearMouseEncoding .sgr)
  | [1015] => handled (s.clearMouseEncoding .urxvt)
  | [1004] => handled (s.withModes { s.modes with focusEvents := false })
  | [1049] => s.exitAlternateGrid.restoreCursor.map some
  | [2004] => handled (s.withModes { s.modes with bracketedPaste := false })
  | _ => some none

/-- The parameters in order; the ones that are not handled are counted. -/
def eachParam (f : Screen → List ℕ → Option (Option Screen)) (s : Screen) (params : List (List ℕ)) :
    Option (Screen × ℕ) :=
  params.foldlM (fun r param => (f r.1 param).map fun
    | some s => (s, r.2)
    | none => (r.1, r.2 + 1)) (s, 0)

/-- SRC: screen.rs:1633-1672 -/
def decset (s : Screen) (params : List (List ℕ)) : Option (Screen × ℕ) := s.eachParam decsetOne params

/-- SRC: screen.rs:1675-1719 -/
def decrst (s : Screen) (params : List (List ℕ)) : Option (Screen × ℕ) := s.eachParam decrstOne params

/-! ## SGR -/

/-- `u8::try_from` -/
def toByte (n : ℕ) : Option ℕ := if n ≤ 255 then some n else none

/-- The next parameter, if it is a single number. -/
def nextParam : List (List ℕ) → Option (ℕ × List (List ℕ))
  | [n] :: rest => some (n, rest)
  | _ => none

/-- The colour after 38, 48 or 58, with the parameters left to read.
SRC: screen.rs:1864-1889 -/
def extendedColor (head : List ℕ) (rest : List (List ℕ)) : Option (Color × List (List ℕ)) :=
  match head.tail with
  | [] => do
    let (kind, rest) ← nextParam rest
    match kind with
    | 5 =>
      let (n, rest) ← nextParam rest
      return (.idx (← toByte n), rest)
    | 2 =>
      let (r, rest) ← nextParam rest
      let r ← toByte r
      let (g, rest) ← nextParam rest
      let g ← toByte g
      let (b, rest) ← nextParam rest
      return (.rgb r g (← toByte b), rest)
    | _ => none
  | [5, n] => do return (.idx (← toByte n), rest)
  | [2, r, g, b] => do return (.rgb (← toByte r) (← toByte g) (← toByte b), rest)
  | [2, _, r, g, b] => do return (.rgb (← toByte r) (← toByte g) (← toByte b), rest)
  | _ => none

/-- A parameter that stands alone; `none` if it is not handled.
SRC: screen.rs:1727-1813 -/
def sgrOne (a : Attrs) (p : List ℕ) : Option Attrs :=
  match p with
  | [0] => some a.sgrReset
  | [1] => some { a with bold := true }
  | [2] => some { a with dim := true }
  | [3] => some { a with italic := true }
  | [4] => some (a.setUnderline (some .single))
  | [4, 0] => some (a.setUnderline none)
  | [4, 1] => some (a.setUnderline (some .single))
  | [4, 2] => some (a.setUnderline (some .double))
  | [4, 3] => some (a.setUnderline (some .curly))
  | [4, 4] => some (a.setUnderline (some .dotted))
  | [4, 5] => some (a.setUnderline (some .dashed))
  | [5] => some { a with blink := true }
  | [6] => some { a with blink := true }
  | [7] => some { a with inverse := true }
  | [8] => some { a with conceal := true }
  | [9] => some { a with strikethrough := true }
  | [21] => some (a.setUnderline (some .double))
  | [22] => some { a with bold := false, dim := false }
  | [23] => some { a with italic := false }
  | [24] => some (a.setUnderline none)
  | [25] => some { a with blink := false }
  | [27] => some { a with inverse := false }
  | [28] => some { a with conceal := false }
  | [29] => some { a with strikethrough := false }
  | [39] => some { a with fgcolor := .default }
  | [49] => some { a with bgcolor := .default }
  | [53] => some { a with overline := true }
  | [55] => some { a with overline := false }
  | [59] => some { a with ulcolor := .default }
  | [n] =>
    if 30 ≤ n ∧ n ≤ 37 then some { a with fgcolor := .idx (n - 30) }
    else if 40 ≤ n ∧ n ≤ 47 then some { a with bgcolor := .idx (n - 40) }
    else if 90 ≤ n ∧ n ≤ 97 then some { a with fgcolor := .idx (n - 82) }
    else if 100 ≤ n ∧ n ≤ 107 then some { a with bgcolor := .idx (n - 92) }
    else none
  | _ => none

/-- The pen after the parameters, and how many were not handled. A colour that cannot be read
ends the sequence. The fuel is the number of parameters.
SRC: screen.rs:1727-1813 -/
def sgrLoop : ℕ → Attrs → List (List ℕ) → Attrs × ℕ
  | fuel + 1, a, p :: rest =>
    match p with
    | 38 :: _ => match extendedColor p rest with
      | some (color, rest) => sgrLoop fuel { a with fgcolor := color } rest
      | none => (a, 1)
    | 48 :: _ => match extendedColor p rest with
      | some (color, rest) => sgrLoop fuel { a with bgcolor := color } rest
      | none => (a, 1)
    | 58 :: _ => match extendedColor p rest with
      | some (color, rest) => sgrLoop fuel { a with ulcolor := color } rest
      | none => (a, 1)
    | p => match sgrOne a p with
      | some a => sgrLoop fuel a rest
      | none =>
        let r := sgrLoop fuel a rest
        (r.1, r.2 + 1)
  | _, a, _ => (a, 0)

/-- SRC: screen.rs:1722-1725 -/
def sgr (s : Screen) (params : List (List ℕ)) : Screen × ℕ :=
  let r := if params.isEmpty then (s.attrs.sgrReset, 0) else sgrLoop params.length s.attrs params
  ({ s with attrs := r.1 }.syncBlankAttrs, r.2)

/-- SRC: screen.rs:1816-1820 -/
def decscusr (s : Screen) (style : ℕ) : Screen :=
  if style ≤ 6 then { s with cursorStyle := style } else s

/-- SRC: screen.rs:1838-1840 -/
def decstbm (s : Screen) (top bottom : ℕ) : Option Screen := do
  let top ← checkedSub top 1
  let bottom ← checkedSub bottom 1
  s.withGrid (·.setScrollRegion top bottom)

end Screen

end Tymux.Model.Vt
