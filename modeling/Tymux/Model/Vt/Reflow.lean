import Tymux.Model.Vt.Grid
import Mathlib.Data.List.Sort

/-!
# Resize with reflow

`grid/reflow.rs`. Scrollback and drawn rows are one list of lines, with `ybase` the index of
the first drawn one. On a change of width each group of rows that continue one another is
rewrapped: to a larger width forwards in place, to a smaller one backwards, into the group
lengthened by the rows it needs. The loops of the source run on fuel that their bodies cannot
use up; running out of it would be a panic here.
-/

set_option autoImplicit false

namespace Tymux.Model.Vt

open Tymux.Lib

/-- SRC: reflow.rs:12-16 -/
def blankLine (cols : ℕ) (wrapped : Bool) : Row := (Row.new cols).wrap wrapped

/-- SRC: reflow.rs:18-25 -/
def widthAt (row : Row) (col : ℤ) : ℕ :=
  match (if 0 ≤ col then row.cells[col.toNat]? else none) with
  | none => 0
  | some c => if c.wideContinuation then 0 else if c.wide then 2 else 1

/-- SRC: reflow.rs:27-31 -/
def hasContent (row : Row) (col : ℕ) : Bool :=
  row.cells[col]?.any fun c => c.hasContents && !c.wideContinuation

/-- The end of the last cell with content, `cells` being reversed. -/
def trimmedFrom : List Cell → ℕ
  | [] => 0
  | c :: rest =>
    if c.hasContents && !c.wideContinuation then rest.length + if c.wide then 2 else 1
    else trimmedFrom rest

/-- SRC: reflow.rs:33-42 -/
def trimmedLen (row : Row) : ℕ := trimmedFrom row.cells.reverse

/-- SRC: reflow.rs:44-56 -/
def wrappedLineTrimmedLen (group : List Row) (i cols : ℕ) : Option ℕ :=
  if i + 1 = group.length then group[i]?.map trimmedLen
  else do
    let row ← group[i]?
    let last ← checkedSub cols 1
    let endsInNull := !hasContent row last && widthAt row ((cols : ℤ) - 1) = 1
    let next ← group[i + 1]?
    let nextStartsWide := widthAt next 0 = 2
    return if endsInNull ∧ nextStartsWide then last else cols

/-- SRC: reflow.rs:58-74 -/
def copyCells (group : List Row) (src srcCol dst dstCol len : ℕ) : Option (List Row) := do
  let srcRow ← group[src]?
  let dstRow ← group[dst]?
  let len := min (min len (srcRow.cells.length - srcCol)) (dstRow.cells.length - dstCol)
  -- the slice `src_col..src_col + len`
  if srcRow.cells.length < srcCol then none
  else
    let tmp := (srcRow.cells.drop srcCol).take len
    return group.set dst { dstRow with
      cells := dstRow.cells.take dstCol ++ tmp ++ dstRow.cells.drop (dstCol + len) }

/-- SRC: reflow.rs:76-87 -/
def replaceCells (row : Row) (start stop : ℕ) : Row :=
  let cells := if 0 < start ∧ widthAt row ((start : ℤ) - 1) = 2 then
      row.cells.set (start - 1) Cell.new
    else row.cells
  let cells := if stop < cells.length ∧ 0 < stop ∧ widthAt { row with cells } ((stop : ℤ) - 1) = 2
    then cells.set stop Cell.new else cells
  { row with
    cells := cells.take start ++ List.replicate (min stop cells.length - start) Cell.new ++
      cells.drop (max start (min stop cells.length)) }

/-- The loop of `new_line_lengths`.
SRC: reflow.rs:96-124 -/
def lineLengths (group : List Row) (oldCols newCols needed : ℕ) :
    ℕ → ℕ → ℕ → ℕ → Option (List ℕ)
  | 0, _, _, _ => none
  | fuel + 1, srcCol, srcLine, available =>
    if available < needed then
      if needed - available < newCols then some [needed - available]
      else do
        let srcCol := srcCol + newCols
        let oldTrimmed ← wrappedLineTrimmedLen group srcLine oldCols
        let (srcCol, srcLine) := if oldTrimmed < srcCol then (srcCol - oldTrimmed, srcLine + 1)
          else (srcCol, srcLine)
        let endsWithWide := group[srcLine]?.any fun r => widthAt r ((srcCol : ℤ) - 1) = 2
        let srcCol ← (if endsWithWide then checkedSub srcCol 1 else some srcCol)
        let len ← (if endsWithWide then checkedSub newCols 1 else some newCols)
        let rest ← lineLengths group oldCols newCols needed fuel srcCol srcLine (available + len)
        return len :: rest
    else some []

/-- SRC: reflow.rs:91-125 -/
def newLineLengths (group : List Row) (oldCols newCols : ℕ) : Option (List ℕ) := do
  let lens ← (List.range group.length).mapM fun i => wrappedLineTrimmedLen group i oldCols
  lineLengths group oldCols newCols lens.sum (lens.sum + 1) 0 0 0

/-- SRC: reflow.rs:127-133 -/
structure Lines where
  lines : List Row
  ybase : ℕ
  y : ℕ
  savedY : ℕ
  maxLen : ℕ
  deriving DecidableEq, Repr

/-! ## To a larger width -/

/-- Where the rewrapping of a group stands. -/
structure Rewrap where
  group : List Row
  destIdx : ℕ
  destCol : ℕ
  srcIdx : ℕ
  srcCol : ℕ
  deriving DecidableEq, Repr

/-- A wide character cannot end a line: it is pulled down to start the next one.
SRC: reflow.rs:181-189 -/
def pullDown (newCols : ℕ) (st : Rewrap) : Option Rewrap :=
  if st.destCol = 0 ∧ st.destIdx ≠ 0 then do
    let before ← st.group[st.destIdx - 1]?
    if widthAt before ((newCols : ℤ) - 1) = 2 then
      let last ← checkedSub newCols 1
      let group ← copyCells st.group (st.destIdx - 1) last st.destIdx st.destCol 1
      let group ← updateAt group (st.destIdx - 1) fun row => row.modify last fun _ => Cell.new
      return { st with group, destCol := st.destCol + 1 }
    else return st
  else some st

/-- SRC: reflow.rs:166-180 -/
def rewrapStep (oldCols newCols : ℕ) (st : Rewrap) : Option Rewrap := do
  let srcTrimmed ← wrappedLineTrimmedLen st.group st.srcIdx oldCols
  let srcRemaining ← checkedSub srcTrimmed st.srcCol
  let destRemaining ← checkedSub newCols st.destCol
  let toCopy := min srcRemaining destRemaining
  let group ← copyCells st.group st.srcIdx st.srcCol st.destIdx st.destCol toCopy
  let (destIdx, destCol) := if st.destCol + toCopy = newCols then (st.destIdx + 1, 0)
    else (st.destIdx, st.destCol + toCopy)
  let (srcIdx, srcCol) := if st.srcCol + toCopy = srcTrimmed then (st.srcIdx + 1, 0)
    else (st.srcIdx, st.srcCol + toCopy)
  pullDown newCols ⟨group, destIdx, destCol, srcIdx, srcCol⟩

/-- SRC: reflow.rs:165-190 -/
def rewrapLoop (oldCols newCols n : ℕ) : ℕ → Rewrap → Option Rewrap
  | 0, _ => none
  | fuel + 1, st =>
    if st.srcIdx < n then do
      let st ← rewrapStep oldCols newCols st
      rewrapLoop oldCols newCols n fuel st
    else some st

/-- The rows that the rewrapping left unused, counted from the end of the group.
SRC: reflow.rs:193-200 -/
def unusedRows (group : List Row) (destIdx : ℕ) : ℕ → ℕ
  | 0 => 0
  | k + 1 =>
    if 0 < k ∧ (destIdx < k ∨ (group[k]?.map trimmedLen) = some 0) then
      unusedRows group destIdx k + 1
    else 0

/-- One group, rewrapped: its rows, and how many of the last ones are unused.
SRC: reflow.rs:155-200 -/
def rewrapLarger (oldCols newCols : ℕ) (group : List Row) : Option (List Row × ℕ) := do
  let n := group.length
  let group := group.map fun row =>
    if row.cells.length < newCols then
      { row with cells := resizeCells row.cells newCols Cell.new }
    else row
  let destCol ← wrappedLineTrimmedLen group 0 oldCols
  let st ← rewrapLoop oldCols newCols n (2 * n + 1) ⟨group, 0, destCol, 1, 0⟩
  let group ← updateAt st.group st.destIdx fun row => some (replaceCells row st.destCol newCols)
  return (group, unusedRows group st.destIdx n)

/-- The scan over the lines: the lines after it, and the ranges to remove.
SRC: reflow.rs:136-205 -/
def largerLoop (oldCols newCols absY : ℕ) :
    ℕ → List Row → ℕ → List (ℕ × ℕ) → Option (List Row × List (ℕ × ℕ))
  | 0, _, _, _ => none
  | fuel + 1, lines, y, remove =>
    if y + 1 < lines.length then do
      let next ← lines[y + 1]?
      if !next.wrapped then largerLoop oldCols newCols absY fuel lines (y + 1) remove
      else
        let n := ((lines.drop (y + 1)).takeWhile fun row => row.wrapped).length + 1
        -- the cursor's own wrapped line is left for the program to repaint
        if y ≤ absY ∧ absY < y + n then largerLoop oldCols newCols absY fuel lines (y + n) remove
        else
          let (group, count) ← rewrapLarger oldCols newCols ((lines.drop y).take n)
          let lines := lines.take y ++ group ++ lines.drop (y + n)
          let remove := if 0 < count then remove ++ [(y + n - count, count)] else remove
          largerLoop oldCols newCols absY fuel lines (y + n) remove
    else some (lines, remove)

/-- The lines outside the ranges, and how many were dropped.
SRC: reflow.rs:209-228 -/
def dropRanges : List Row → ℕ → List (ℕ × ℕ) → ℕ → List Row × ℕ
  | [], _, _, _ => ([], 0)
  | line :: lines, idx, remove, skip =>
    let (remove, skip, removed) := match remove with
      | (start, count) :: rest => if idx = start then (rest, count, count) else (remove, skip, 0)
      | [] => (remove, skip, 0)
    if 0 < skip then
      let r := dropRanges lines (idx + 1) remove (skip - 1)
      (r.1, r.2 + removed)
    else
      let r := dropRanges lines (idx + 1) remove skip
      (line :: r.1, r.2 + removed)

/-- What one removed line does to the position of the screen.
SRC: reflow.rs:229-238 -/
def afterRemoved (newCols newRows : ℕ) (b : Lines) : Lines :=
  if b.ybase = 0 then
    { b with
      y := b.y - 1
      lines := if b.lines.length < newRows then b.lines ++ [blankLine newCols false] else b.lines }
  else { b with ybase := b.ybase - 1 }

/-- SRC: reflow.rs:136-240 -/
def reflowLarger (b : Lines) (oldCols newCols newRows : ℕ) : Option Lines := do
  let (lines, remove) ← largerLoop oldCols newCols (b.ybase + b.y) (b.lines.length + 1) b.lines 0 []
  if remove.isEmpty then return { b with lines }
  else
    let (keep, removed) := dropRanges lines 0 remove 0
    let b := (afterRemoved newCols newRows)^[removed] { b with lines := keep }
    return { b with savedY := b.savedY - removed }

/-! ## To a smaller width -/

/-- `dest.get(i)`, 0 outside. -/
def destAt (dest : List ℕ) (i : ℤ) : ℕ := if 0 ≤ i then dest[i.toNat]?.getD 0 else 0

/-- SRC: reflow.rs:298-328 -/
def unwrapLoop (oldCols : ℕ) (dest : List ℕ) :
    ℕ → List Row → ℤ → ℕ → ℤ → ℕ → Option (List Row)
  | 0, _, _, _, _, _ => none
  | fuel + 1, group, destIdx, destCol, srcIdx, srcCol =>
    if 0 ≤ srcIdx then
      let toCopy := min srcCol destCol
      if 0 ≤ destIdx ∧ destIdx.toNat < group.length then do
        let srcFrom ← checkedSub srcCol toCopy
        let destFrom ← checkedSub destCol toCopy
        let group ← copyCells group srcIdx.toNat srcFrom destIdx.toNat destFrom toCopy
        let (destIdx, destCol) := if destFrom = 0 then (destIdx - 1, destAt dest (destIdx - 1))
          else (destIdx, destFrom)
        let (srcIdx, srcCol) ← (if srcFrom = 0 then do
            let len ← wrappedLineTrimmedLen group (max (srcIdx - 1) 0).toNat oldCols
            pure (srcIdx - 1, len)
          else pure (srcIdx, srcFrom))
        if toCopy = 0 ∧ destCol = 0 ∧ srcCol ≠ 0 ∧ destIdx < 0 then some group
        else unwrapLoop oldCols dest fuel group destIdx destCol srcIdx srcCol
      else some group
    else some group

/-- SRC: reflow.rs:329-335 -/
def blankAfter (newCols : ℕ) : List Row → List ℕ → Option (List Row)
  | row :: rows, len :: lens => do
    let row ← (if len < newCols then row.modify len fun _ => Cell.new else some row)
    let rows ← blankAfter newCols rows lens
    return row :: rows
  | rows, _ => some rows

/-- One group, rewrapped, with the lengths of its lines.
SRC: reflow.rs:264-335 -/
def rewrapSmaller (oldCols newCols : ℕ) (group : List Row) : Option (List Row × List ℕ) := do
  let n := group.length
  let group := group.map fun row =>
    if row.cells.length < oldCols then
      { row with cells := resizeCells row.cells oldCols Cell.new }
    else row
  let last ← checkedSub n 1
  let lastRow ← group[last]?
  let dest ← newLineLengths group oldCols newCols
  let group := group ++ List.replicate (dest.length - n) (blankLine newCols true)
  let destIdx : ℤ := dest.length - 1
  let destCol := destAt dest destIdx
  let (destIdx, destCol) := if destCol = 0 then (destIdx - 1, destAt dest (destIdx - 1))
    else (destIdx, destCol)
  let group ← unwrapLoop oldCols dest (group.length + dest.length + 2) group destIdx destCol
    (n - 1) (trimmedLen lastRow)
  let group ← blankAfter newCols group dest
  return (group, dest)

/-- How the position of the screen moves for one added line.
SRC: reflow.rs:337-353 -/
def afterAdded (newRows countToInsert : ℕ) (r : Lines × ℕ) : Lines × ℕ :=
  let (b, liveLen) := r
  if b.ybase = 0 then
    if b.y + 1 < newRows then ({ b with y := b.y + 1 }, liveLen - 1)
    else ({ b with ybase := b.ybase + 1 }, liveLen)
  else
    let cap := min b.maxLen (liveLen + countToInsert)
    if (b.ybase : ℤ) < cap - newRows then ({ b with ybase := b.ybase + 1 }, liveLen)
    else (b, liveLen)

/-- Where the scan of `reflow_smaller` stands. -/
structure Unwrap where
  b : Lines
  toInsert : List (ℕ × List Row)
  countToInsert : ℕ
  liveLen : ℕ

/-- The first line of the group that ends at `y`.
SRC: reflow.rs:256-258 -/
def groupStart (lines : List Row) : ℕ → Option ℕ
  | 0 => some 0
  | y + 1 => do
    let row ← lines[y + 1]?
    if row.wrapped then groupStart lines y else some (y + 1)

/-- The group of the lines `y..=last`, rewrapped and put back.
SRC: reflow.rs:264-364 -/
def unwrapGroup (oldCols newCols newRows : ℕ) (u : Unwrap) (y last : ℕ) : Option Unwrap := do
  let n := last - y + 1
  let (group, dest) ← rewrapSmaller oldCols newCols ((u.b.lines.drop y).take n)
  let toAdd : ℤ := dest.length - n
  let trimmed : ℤ := if u.b.ybase = 0 ∧ u.b.y + 1 ≠ u.liveLen then
      max (u.b.y - u.b.maxLen + toAdd) 0
    else max (u.liveLen - u.b.maxLen + toAdd) 0
  let add := dest.length - n
  let countToInsert := u.countToInsert + add
  let (b, liveLen) := (afterAdded newRows countToInsert)^[(toAdd - trimmed).toNat] (u.b, u.liveLen)
  let savedMax ← checkedSub (b.ybase + newRows) 1
  return {
    b := { b with
      savedY := min (b.savedY + add) savedMax
      lines := b.lines.take y ++ group.take n ++ b.lines.drop (y + n) }
    toInsert := if (group.drop n).isEmpty then u.toInsert
      else u.toInsert ++ [(last + 1, group.drop n)]
    countToInsert
    liveLen }

/-- SRC: reflow.rs:250-365 -/
def smallerLoop (oldCols newCols newRows : ℕ) : ℕ → Unwrap → ℕ → Option Unwrap
  | 0, _, _ => none
  | fuel + 1, u, y =>
    match y with
    | 0 => some u
    | y + 1 => do
      let row ← u.b.lines[y]?
      if !row.wrapped ∧ trimmedLen row ≤ newCols then smallerLoop oldCols newCols newRows fuel u y
      else
        let start ← groupStart u.b.lines y
        -- the cursor's own wrapped line is left for the program to repaint
        if start ≤ u.b.ybase + u.b.y ∧ u.b.ybase + u.b.y < y + 1 then
          smallerLoop oldCols newCols newRows fuel u start
        else
          let u ← unwrapGroup oldCols newCols newRows u start y
          smallerLoop oldCols newCols newRows fuel u start

/-- SRC: reflow.rs:374-384 -/
def insertLinesAt : List Row → ℕ → List (ℕ × List Row) → List Row
  | [], _, pending => pending.flatMap (·.2)
  | line :: lines, idx, pending =>
    line :: (pending.takeWhile fun p => p.1 = idx + 1).flatMap (·.2) ++
      insertLinesAt lines (idx + 1) (pending.dropWhile fun p => p.1 = idx + 1)

/-- SRC: reflow.rs:242-388 -/
def reflowSmaller (b : Lines) (oldCols newCols newRows : ℕ) : Option Lines := do
  let u ← smallerLoop oldCols newCols newRows (b.lines.length + 1) ⟨b, [], 0, b.lines.length⟩
    b.lines.length
  let lines := u.b.lines.take u.liveLen
  if u.toInsert.isEmpty then return { u.b with lines }
  else
    let out := insertLinesAt lines 0 (u.toInsert.insertionSort fun p q => p.1 ≤ q.1)
    return { u.b with lines := out.drop (out.length - u.b.maxLen) }

/-! ## The resize -/

/-- One row more.
SRC: reflow.rs:429-437 -/
def growOne (cols newRows : ℕ) (r : Lines × ℕ) : Lines × ℕ :=
  let (b, addToY) := r
  if b.lines.length < newRows + b.ybase then
    if 0 < b.ybase ∧ b.lines.length ≤ b.ybase + b.y + addToY + 1 then
      ({ b with ybase := b.ybase - 1 }, addToY + 1)
    else ({ b with lines := b.lines ++ [blankLine cols false] }, addToY)
  else (b, addToY)

/-- One row less.
SRC: reflow.rs:440-448 -/
def shrinkOne (newRows : ℕ) (b : Lines) : Lines :=
  if newRows + b.ybase < b.lines.length then
    if b.ybase + b.y + 1 < b.lines.length then { b with lines := b.lines.dropLast }
    else { b with ybase := b.ybase + 1 }
  else b

/-- A line cropped to the new width.
SRC: reflow.rs:470-481 -/
def cropLine (newCols : ℕ) (line : Row) : Row :=
  if newCols < line.cells.length then
    let cells := line.cells.take newCols
    match cells.getLast? with
    | none => { line with cells }
    | some last => { line with cells := if last.wide then cells.dropLast ++ [Cell.new] else cells }
  else line

/-- SRC: reflow.rs:513-516 -/
def lastStop (stops : List Bool) : ℕ → Option ℕ
  | 0 => some 0
  | c + 1 => do
    let stop ← stops[c + 1]?
    if stop then some (c + 1) else lastStop stops c

/-- SRC: reflow.rs:510-519 -/
def resizeTabStops (stops : List Bool) (newCols : ℕ) : Option (List Bool) := do
  let stops := stops.take newCols ++ List.replicate (newCols - stops.length) false
  let last ← checkedSub newCols 1
  let c ← lastStop stops last
  (List.range' c ((newCols - c + 7) / 8) 8).foldlM
    (fun stops i => updateAt stops i fun _ => some (i ≠ 0)) stops

/-- The lines and the position of the screen, up to the reflow.
SRC: reflow.rs:400-460 -/
def Grid.gather (g : Grid) (size : Size) : Option (Lines × ℕ) := do
  let sbLen := g.scrollback.length
  let rows := if g.size.cols < size.cols then
      g.rows.map fun line => { line with cells := resizeCells line.cells size.cols Cell.new }
    else g.rows
  let b : Lines := {
    lines := g.scrollback ++ rows
    ybase := sbLen
    y := g.pos.row
    savedY := if g.savedSet then sbLen + g.savedPos.row else 0
    maxLen := g.scrollbackLen + size.rows }
  let (b, addToY) := if g.size.rows < size.rows then
      (growOne size.cols size.rows)^[size.rows - g.size.rows] (b, 0)
    else ((shrinkOne size.rows)^[g.size.rows - size.rows] b, 0)
  let trim := if b.maxLen < g.scrollbackLen + g.size.rows then b.lines.length - b.maxLen else 0
  let last ← checkedSub size.rows 1
  return ({ b with
    lines := b.lines.drop trim
    ybase := b.ybase - trim
    savedY := b.savedY - trim
    y := min b.y last + addToY }, trim)

/-- SRC: reflow.rs:394-520 -/
def Grid.setSize (g : Grid) (size : Size) (reflow : Bool) : Option Grid :=
  if size = g.size then some g
  else do
    let (b, trim) ← g.gather size
    let b ← (if reflow ∧ g.size.cols ≠ size.cols ∧ 2 ≤ size.cols then
        if g.size.cols < size.cols then reflowLarger b g.size.cols size.cols size.rows
        else reflowSmaller b g.size.cols size.cols size.rows
      else some b)
    let lines := b.lines.map (cropLine size.cols)
    let lines := lines.take b.ybase ++ (lines.drop b.ybase).map fun line =>
      { line with cells := resizeCells line.cells size.cols Cell.new }
    let need := b.ybase + size.rows
    let lines := (lines ++ List.replicate (need - lines.length) (blankLine size.cols false)).take need
    let scrollback := lines.take b.ybase
    let lastRow ← checkedSub size.rows 1
    let lastCol ← checkedSub size.cols 1
    let g ← { g with
      freedRows := g.freedRows + trim
      scrollback
      rows := lines.drop b.ybase
      size
      pos := ⟨min b.y lastRow, min g.pos.col lastCol⟩
      savedPos := ⟨min (b.savedY - b.ybase) lastRow, min g.savedPos.col lastCol⟩
      scrollTop := 0
      scrollBottom := lastRow
      scrollbackOffset := min g.scrollbackOffset scrollback.length }.padScrollbackWindow
    let tabStops ← resizeTabStops g.tabStops size.cols
    return { g with tabStops }

end Tymux.Model.Vt
