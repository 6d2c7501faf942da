import Tymux.Model.Vt.Cell

/-!
# The grid of the emulator

`grid.rs`: the rows that are drawn on, the scrollback above them, the cursor, the scroll region
and the tab stops. The subtractions of the source are `checkedSub`, its `unwrap`s and indexings
are the checked list accesses, so a panic is `none`.
-/

set_option autoImplicit false

namespace Tymux.Model.Vt

open Tymux.Lib

/-- SRC: grid.rs:895-899 -/
structure Size where
  rows : ℕ
  cols : ℕ
  deriving DecidableEq, Repr

/-- SRC: grid.rs:901-905 -/
structure Pos where
  row : ℕ := 0
  col : ℕ := 0
  deriving DecidableEq, Repr

/-- `MIN_REARM_ROWS` -/
def minRearmRows : ℕ := 16

/-- SRC: grid.rs:9-33 -/
structure Grid where
  freedRows : ℕ
  size : Size
  pos : Pos
  savedPos : Pos
  savedSet : Bool
  rows : List Row
  scrollTop : ℕ
  scrollBottom : ℕ
  originMode : Bool
  savedOriginMode : Bool
  scrollback : List Row
  scrollbackLen : ℕ
  scrollbackOffset : ℕ
  blankAttrs : Attrs
  tabStops : List Bool
  deriving DecidableEq, Repr

/-- SRC: grid.rs:35-37 -/
def defaultTabStops (cols : ℕ) : List Bool :=
  (List.range cols).map fun c => c % 8 = 0 && c ≠ 0

namespace Grid

/-- SRC: grid.rs:40-58 -/
def new (size : Size) (scrollbackLen : ℕ) : Option Grid := do
  let scrollBottom ← checkedSub size.rows 1
  return {
    freedRows := 0
    size
    pos := {}
    savedPos := {}
    savedSet := false
    rows := []
    scrollTop := 0
    scrollBottom
    originMode := false
    savedOriginMode := false
    scrollback := []
    scrollbackLen
    scrollbackOffset := 0
    blankAttrs := {}
    tabStops := defaultTabStops size.cols }

/-- SRC: grid.rs:64-68 -/
def blankCell (g : Grid) : Cell := Cell.new.clear g.blankAttrs

/-- SRC: grid.rs:70-77 -/
def allocateRows (g : Grid) : Grid :=
  if g.rows.isEmpty then { g with rows := List.replicate g.size.rows (Row.new g.size.cols) } else g

/-- SRC: grid.rs:79-85 -/
def newRow (g : Grid) : Row :=
  let row := Row.new g.size.cols
  if g.blankAttrs ≠ {} then row.clear g.blankAttrs else row

/-- SRC: grid.rs:87-99 -/
def clear (g : Grid) : Option Grid := do
  let scrollBottom ← checkedSub g.size.rows 1
  return { g with
    freedRows := g.freedRows + max g.size.rows minRearmRows
    pos := {}
    savedPos := {}
    savedSet := false
    rows := g.rows.map (·.clear {})
    scrollTop := 0
    scrollBottom
    originMode := false
    savedOriginMode := false }

/-! ## The cursor -/

/-- SRC: grid.rs:857-865 -/
def rowClampTop (g : Grid) (limitToScrollRegion : Bool) : Grid :=
  if limitToScrollRegion ∧ g.pos.row < g.scrollTop then
    { g with pos := { g.pos with row := g.scrollTop } }
  else g

/-- The grid, and by how much the row was over.
SRC: grid.rs:867-880 -/
def rowClampBottom (g : Grid) (limitToScrollRegion : Bool) : Option (Grid × ℕ) := do
  let bottom ← (if limitToScrollRegion then some g.scrollBottom else checkedSub g.size.rows 1)
  if bottom < g.pos.row then
    let rows ← checkedSub g.pos.row bottom
    return ({ g with pos := { g.pos with row := bottom } }, rows)
  else return (g, 0)

/-- SRC: grid.rs:882-886 -/
def rowClamp (g : Grid) : Option Grid := do
  let last ← checkedSub g.size.rows 1
  return if last < g.pos.row then { g with pos := { g.pos with row := last } } else g

/-- SRC: grid.rs:888-892 -/
def colClamp (g : Grid) : Option Grid := do
  let last ← checkedSub g.size.cols 1
  return if last < g.pos.col then { g with pos := { g.pos with col := last } } else g

/-- SRC: grid.rs:117-125 -/
def setPos (g : Grid) (pos : Pos) : Option Grid := do
  let pos := if g.originMode then { pos with row := saturatingAdd u16Max pos.row g.scrollTop }
    else pos
  let g := { g with pos }
  let g := g.rowClampTop g.originMode
  let r ← g.rowClampBottom g.originMode
  r.1.colClamp

/-- SRC: grid.rs:133-137 -/
def saveCursor (g : Grid) : Grid where
  __ := g
  savedPos := g.pos
  savedSet := true
  savedOriginMode := g.originMode

/-- SRC: grid.rs:139-144 -/
def restoreCursor (g : Grid) : Option Grid :=
  { g with pos := g.savedPos, originMode := g.savedOriginMode }.colClamp

/-- SRC: grid.rs:146-164 -/
def visibleRows (g : Grid) : Option (List Row) := do
  let skip ← checkedSub g.scrollback.length g.scrollbackOffset
  return (g.scrollback.drop skip).take g.rows.length ++
    g.rows.take (g.rows.length - g.scrollbackOffset)

/-- `current_row_mut`, changed by `f`.
SRC: grid.rs:197-201 -/
def modifyCurrentRow (g : Grid) (f : Row → Option Row) : Option Grid := do
  let rows ← updateAt g.rows g.pos.row f
  return { g with rows }

/-- `drawing_cell`
SRC: grid.rs:207-209 -/
def drawingCell (g : Grid) (pos : Pos) : Option Cell :=
  g.rows[pos.row]?.bind fun row => row.cells[pos.col]?

/-- `drawing_cell_mut(pos).unwrap()`, changed by `f`.
SRC: grid.rs:211-214 -/
def modifyCell (g : Grid) (pos : Pos) (f : Cell → Cell) : Option Grid := do
  let rows ← updateAt g.rows pos.row fun row => row.modify pos.col f
  return { g with rows }

/-- The rows of the scrollback that are in view, padded to the full width.
SRC: reflow.rs:522-533 -/
def padScrollbackWindow (g : Grid) : Option Grid := do
  let shown := min g.scrollbackOffset g.scrollback.length
  let skip ← checkedSub g.scrollback.length shown
  let pad := fun row : Row =>
    if row.cells.length < g.size.cols then
      { row with cells := resizeCells row.cells g.size.cols Cell.new }
    else row
  return { g with
    scrollback := g.scrollback.take skip ++
      ((g.scrollback.drop skip).take g.rows.length).map pad ++
      (g.scrollback.drop skip).drop g.rows.length }

/-- SRC: grid.rs:228-231 -/
def setScrollback (g : Grid) (rows : ℕ) : Option Grid :=
  { g with scrollbackOffset := min rows g.scrollback.length }.padScrollbackWindow

/-! ## Erasing -/

def clearRows (rows : List Row) (attrs : Attrs) : List Row := rows.map (·.clear attrs)

/-- SRC: grid.rs:457-462 -/
def eraseAll (g : Grid) (attrs : Attrs) : Grid where
  __ := g
  freedRows := g.freedRows + max g.size.rows minRearmRows
  rows := clearRows g.rows attrs

/-- The columns `start..stop` of a row, erased one after the other. -/
def eraseCols (row : Row) (start stop : ℕ) (attrs : Attrs) : Option Row :=
  (List.range' start (stop - start)).foldlM (fun row col => row.erase col attrs) row

/-- SRC: grid.rs:504-514 -/
def eraseRowForward (g : Grid) (attrs : Attrs) : Option Grid :=
  g.modifyCurrentRow fun row => do
    let row ← eraseCols row g.pos.col g.size.cols attrs
    return if g.pos.col = 0 then row.wrap false else row

/-- SRC: grid.rs:516-523 -/
def eraseRowBackward (g : Grid) (attrs : Attrs) : Option Grid := do
  let last ← checkedSub g.size.cols 1
  g.modifyCurrentRow fun row => eraseCols row 0 (min g.pos.col last + 1) attrs

/-- SRC: grid.rs:464-471 -/
def eraseAllForward (g : Grid) (attrs : Attrs) : Option Grid :=
  { g with rows := g.rows.take (g.pos.row + 1) ++
      clearRows (g.rows.drop (g.pos.row + 1)) attrs }.eraseRowForward attrs

/-- SRC: grid.rs:475-496 -/
def eraseAllBackward (g : Grid) (attrs : Attrs) : Option Grid := do
  let g := { g with rows := clearRows (g.rows.take g.pos.row) attrs ++ g.rows.drop g.pos.row }
  let g ← g.eraseRowBackward attrs
  let g ← g.modifyCurrentRow fun row => some (row.wrap false)
  if g.size.cols ≤ g.pos.col + 1 then
    let abs := g.pos.row + 1
    if abs < g.scrollback.length then
      let scrollback ← updateAt g.scrollback abs fun row => some (row.wrap false)
      return { g with scrollback }
    else
      let next ← checkedSub abs g.scrollback.length
      return { g with rows := g.rows.modify next (·.wrap false) }
  else return g

/-- SRC: grid.rs:498-500 -/
def eraseRow (g : Grid) (attrs : Attrs) : Option Grid :=
  g.modifyCurrentRow fun row => some (row.clear attrs)

/-- SRC: grid.rs:563-570 -/
def eraseCells (g : Grid) (count : ℕ) (attrs : Attrs) : Option Grid :=
  g.modifyCurrentRow fun row =>
    eraseCols row g.pos.col (min (saturatingAdd u16Max g.pos.col count) g.size.cols) attrs

/-! ## Inserting and deleting -/

/-- One blank inserted at `col`. If `col` holds the second half of a wide character, the blank
takes that part over.
SRC: grid.rs:541-549 -/
def insertBlank (wide : Bool) (col : ℕ) (blank : Cell) (row : Row) : Option Row := do
  let row ← (if wide then row.modify col fun c => { c with wideContinuation := false } else some row)
  let row ← row.insert col blank
  if wide then row.modify col fun c => { c with wideContinuation := true } else some row

/-- SRC: grid.rs:525-550 -/
def insertCells (g : Grid) (count : ℕ) : Option Grid := do
  let wide ← (if g.pos.col < g.size.cols then
      (g.drawingCell g.pos).map fun c => c.wideContinuation
    else some false)
  g.modifyCurrentRow fun row => do
    let row ← repeatM (insertBlank wide g.pos.col g.blankCell)
      (min count (g.size.cols - g.pos.col)) row
    row.truncate g.size.cols

/-- SRC: grid.rs:552-561 -/
def deleteCells (g : Grid) (count : ℕ) : Option Grid := do
  let left ← checkedSub g.size.cols g.pos.col
  g.modifyCurrentRow fun row => do
    let row ← repeatM (fun row => row.remove g.pos.col) (min count left) row
    return row.resize g.size.cols g.blankCell

/-- SRC: grid.rs:662-664 -/
def inScrollRegion (g : Grid) : Bool := g.scrollTop ≤ g.pos.row && g.pos.row ≤ g.scrollBottom

/-- SRC: grid.rs:574-585 -/
def insertLines (g : Grid) (count : ℕ) : Option Grid := do
  let g ← g.colClamp
  if !g.inScrollRegion then return g
  else
    let g := { g with pos := { g.pos with col := 0 } }
    let left ← checkedSub g.scrollBottom g.pos.row
    repeatM (fun g : Grid => do
      let r ← removeAt g.rows g.scrollBottom
      let rows ← insertAt r.2 g.pos.row g.newRow
      return { g with rows }) (min count (left + 1)) g

/-- SRC: grid.rs:587-598 -/
def deleteLines (g : Grid) (count : ℕ) : Option Grid := do
  let g ← g.colClamp
  if !g.inScrollRegion then return g
  else
    let g := { g with pos := { g.pos with col := 0 } }
    let left ← checkedSub g.scrollBottom g.pos.row
    repeatM (fun g : Grid => do
      let rows ← insertAt g.rows (g.scrollBottom + 1) g.newRow
      let r ← removeAt rows g.pos.row
      return { g with rows := r.2 }) (min count (left + 1)) g

/-! ## Scrolling -/

/-- One row is scrolled off; `pop_front` runs until the scrollback is within its limit.
SRC: grid.rs:615-632 -/
def scrollOne (feedScrollback : Bool) (g : Grid) : Option Grid := do
  let rows ← insertAt g.rows (g.scrollBottom + 1) g.newRow
  let r ← removeAt rows g.scrollTop
  let g := { g with rows := r.2 }
  if feedScrollback ∧ 0 < g.scrollbackLen ∧ g.scrollTop = 0 then
    let scrollback := g.scrollback ++ [r.1]
    let excess := scrollback.length - g.scrollbackLen
    let scrollback := scrollback.drop excess
    return { g with
      scrollback
      freedRows := g.freedRows + excess
      scrollbackOffset := if 0 < g.scrollbackOffset then
          min scrollback.length (g.scrollbackOffset + 1)
        else g.scrollbackOffset }
  else return { g with freedRows := g.freedRows + 1 }

/-- SRC: grid.rs:612-633 -/
def scrollRegionUp (g : Grid) (count : ℕ) (feedScrollback : Bool) : Option Grid := do
  let height ← checkedSub g.scrollBottom g.scrollTop
  repeatM (scrollOne feedScrollback) (min count (height + 1)) g

/-- SRC: grid.rs:602-604 -/
def scrollUp (g : Grid) (count : ℕ) : Option Grid := g.scrollRegionUp count true

/-- SRC: grid.rs:608-610 -/
def scrollUpDiscard (g : Grid) (count : ℕ) : Option Grid := g.scrollRegionUp count false

/-- SRC: grid.rs:637-647 -/
def scrollDown (g : Grid) (count : ℕ) (bce : Bool) : Option Grid := do
  let height ← checkedSub g.scrollBottom g.scrollTop
  repeatM (fun g : Grid => do
    let r ← removeAt g.rows g.scrollBottom
    let rows ← insertAt r.2 g.scrollTop (if bce then g.newRow else Row.new g.size.cols)
    return { g with rows }) (min count (height + 1)) g

/-- SRC: grid.rs:649-660 -/
def setScrollRegion (g : Grid) (top bottom : ℕ) : Option Grid := do
  let last ← checkedSub g.size.rows 1
  let bottom := min bottom last
  return if top < bottom then
    { g with
      scrollTop := top
      scrollBottom := bottom
      pos := ⟨if g.originMode then top else 0, 0⟩ }
  else g

/-- SRC: grid.rs:686-689 -/
def setOriginMode (g : Grid) (mode : Bool) : Option Grid :=
  { g with originMode := mode }.setPos {}

/-! ## Moving -/

/-- SRC: grid.rs:691-695 -/
def rowIncClamp (g : Grid) (count : ℕ) : Option Grid := do
  let r ← { g with pos := { g.pos with row := saturatingAdd u16Max g.pos.row count } }.rowClampBottom
    g.inScrollRegion
  return r.1

/-- SRC: grid.rs:709-719 -/
def rowIncScroll (g : Grid) (count : ℕ) : Option (Grid × ℕ) := do
  let r ← { g with pos := { g.pos with row := saturatingAdd u16Max g.pos.row count } }.rowClampBottom
    g.inScrollRegion
  if g.inScrollRegion then
    let g' ← r.1.scrollUp r.2
    return (g', r.2)
  else return (r.1, 0)

/-- SRC: grid.rs:699-707 -/
def lineFeed (g : Grid) : Option Grid := do
  let before := g.pos.row
  let r ← g.rowIncScroll 1
  let g := r.1
  let g ← (if r.2 = 0 ∧ g.pos.row = before + 1 then
      g.modifyCurrentRow fun row => some (row.wrap false)
    else some g)
  g.colClamp

/-- SRC: grid.rs:721-725 -/
def rowDecClamp (g : Grid) (count : ℕ) : Grid :=
  { g with pos := { g.pos with row := g.pos.row - count } }.rowClampTop g.inScrollRegion

/-- SRC: grid.rs:735-742 -/
def reverseIndex (g : Grid) : Option Grid := do
  let g ← g.colClamp
  if g.pos.row = g.scrollTop then g.scrollDown 1 true
  else return { g with pos := { g.pos with row := g.pos.row - 1 } }

/-- SRC: grid.rs:744-747 -/
def rowSet (g : Grid) (i : ℕ) : Option Grid := { g with pos := { g.pos with row := i } }.rowClamp

/-- SRC: grid.rs:749-751 -/
def colInc (g : Grid) (count : ℕ) : Grid :=
  { g with pos := { g.pos with col := saturatingAdd u16Max g.pos.col count } }

/-- SRC: grid.rs:753-756 -/
def colIncClamp (g : Grid) (count : ℕ) : Option Grid := (g.colInc count).colClamp

/-- SRC: grid.rs:764-766 -/
def colDec (g : Grid) (count : ℕ) : Grid := { g with pos := { g.pos with col := g.pos.col - count } }

/-- SRC: grid.rs:759-762 -/
def colDecRestricted (g : Grid) (count : ℕ) : Option Grid := do
  let g ← g.colClamp
  return g.colDec count

/-- SRC: grid.rs:840-843 -/
def colSet (g : Grid) (i : ℕ) : Option Grid := { g with pos := { g.pos with col := i } }.colClamp

/-- SRC: grid.rs:773-786 -/
def colForwardTab (g : Grid) (count : ℕ) : Option Grid :=
  if g.size.cols ≤ g.pos.col then some g
  else do
    let g ← repeatM (fun g : Grid => do
      let start := g.pos.col + 1
      let next ← (List.range' start (g.tabStops.length - start)).foldlM
        (fun found c => if found.isSome then some found else do
          let stop ← g.tabStops[c]?
          return if stop then some c else none) none
      let last ← checkedSub g.size.cols 1
      return { g with pos := { g.pos with col := (next.filter (· ≤ u16Max)).getD last } }) count g
    g.colClamp

/-- SRC: grid.rs:789-795 -/
def colBackTab (g : Grid) (count : ℕ) : Option Grid :=
  repeatM (fun g : Grid => do
    let last ← checkedSub g.size.cols 1
    let stop := min g.pos.col last
    let prev ← (List.range stop).reverse.foldlM
      (fun found c => if found.isSome then some found else do
        let stop ← g.tabStops[c]?
        return if stop then some c else none) none
    return { g with pos := { g.pos with col := (prev.filter (· ≤ u16Max)).getD 0 } }) count g

/-- SRC: grid.rs:798-802 -/
def setTabStop (g : Grid) : Grid := { g with tabStops := g.tabStops.set g.pos.col true }

/-- SRC: grid.rs:805-809 -/
def clearTabStop (g : Grid) : Grid := { g with tabStops := g.tabStops.set g.pos.col false }

/-- SRC: grid.rs:812-814 -/
def clearAllTabStops (g : Grid) : Grid := { g with tabStops := g.tabStops.map fun _ => false }

/-- SRC: grid.rs:817-828 -/
def alignTest (width : Char → Option ℕ) (g : Grid) : Option Grid := do
  let scrollBottom ← checkedSub g.size.rows 1
  return { g with
    scrollTop := 0
    scrollBottom
    originMode := false
    pos := {}
    rows := g.rows.map fun row =>
      let row := row.clear {}
      { row with cells := row.cells.map fun c => c.set width 'E' {} } }

/-- SRC: grid.rs:831-838 -/
def softReset (g : Grid) : Option Grid := do
  let scrollBottom ← checkedSub g.size.rows 1
  return { g with
    scrollTop := 0
    scrollBottom
    originMode := false
    savedOriginMode := false
    savedPos := {}
    savedSet := false }

/-- SRC: grid.rs:849-855 -/
def colWrap (g : Grid) (width : ℕ) : Option Grid := do
  let last ← checkedSub g.size.cols width
  if last < g.pos.col then
    let r ← { g with pos := { g.pos with col := 0 } }.rowIncScroll 1
    r.1.modifyCurrentRow fun row => some (row.wrap true)
  else return g

end Grid

end Tymux.Model.Vt
