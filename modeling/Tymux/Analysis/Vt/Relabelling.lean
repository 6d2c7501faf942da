import Tymux.Lib.Renaming
import Tymux.Model.Vt.Grid

/-!
# Grids with other link indices

No operation on a grid looks at the link indices in its cells, or at how many rows it has freed so
far: on a grid whose indices are changed, and whose count starts higher, it does the same. The
index 0 stands for no link and stays what it is, since blank cells are made with it.
-/

set_option autoImplicit false

namespace Tymux.Analysis.Vt

open Tymux.Lib Tymux.Model Tymux.Model.Vt

/-- A change of the link indices that leaves "no link" alone. -/
structure Relabelling where
  link : ℕ → ℕ
  link_zero : link 0 = 0

/-! ## Cells and rows -/

def relabelAttrs (φ : Relabelling) (a : Attrs) : Attrs := { a with hyperlink := φ.link a.hyperlink }

def relabelCell (φ : Relabelling) (c : Cell) : Cell := { c with attrs := relabelAttrs φ c.attrs }

def relabelRow (φ : Relabelling) (row : Row) : Row :=
  { row with cells := row.cells.map (relabelCell φ) }

section

variable (φ : Relabelling)

theorem relabelAttrs_of_unlinked {a : Attrs} (h : a.hyperlink = 0) : relabelAttrs φ a = a := by
  unfold relabelAttrs
  rw [h, φ.link_zero, ← h]

@[simp] theorem relabelAttrs_default : relabelAttrs φ {} = {} := relabelAttrs_of_unlinked φ rfl

@[simp] theorem relabelAttrs_forErase (a : Attrs) : relabelAttrs φ a.forErase = a.forErase :=
  relabelAttrs_of_unlinked φ rfl

@[simp] theorem relabelCell_new : relabelCell φ Cell.new = Cell.new := by
  unfold relabelCell Cell.new
  rw [relabelAttrs_default]

theorem relabelRow_new (cols : ℕ) : relabelRow φ (Row.new cols) = Row.new cols := by
  unfold relabelRow Row.new
  rw [List.map_replicate, relabelCell_new]

theorem resizeCells_relabel (cells : List Cell) (len : ℕ) {c d : Cell} (h : d = relabelCell φ c) :
    resizeCells (cells.map (relabelCell φ)) len d =
      (resizeCells cells len c).map (relabelCell φ) := by
  unfold resizeCells
  rw [h, List.map_append, List.map_take, List.map_replicate, List.length_map]

theorem clear_relabel (row : Row) (attrs : Attrs) :
    (relabelRow φ row).clear (relabelAttrs φ attrs) = relabelRow φ (row.clear attrs) := by
  unfold Row.clear relabelRow
  simp only [List.map_map]
  rfl

theorem wrap_relabel (row : Row) (wrapped : Bool) :
    (relabelRow φ row).wrap wrapped = relabelRow φ (row.wrap wrapped) := rfl

theorem modify_relabel (row : Row) (col : ℕ) {f f' : Cell → Cell}
    (hf : ∀ c, f' (relabelCell φ c) = relabelCell φ (f c)) :
    (relabelRow φ row).modify col f' = (row.modify col f).map (relabelRow φ) := by
  unfold Row.modify
  refine bind_renamed (updateAt_renamed (fun c => ?_) row.cells col) fun cells => rfl
  exact congrArg some (hf c)

theorem insert_relabel (row : Row) (i : ℕ) (c : Cell) :
    (relabelRow φ row).insert i (relabelCell φ c) = (row.insert i c).map (relabelRow φ) := by
  unfold Row.insert
  exact bind_renamed (insertAt_renamed _ row.cells i c) fun cells => rfl

theorem clearWide_relabel (row : Row) (col : ℕ) :
    (relabelRow φ row).clearWide col = (row.clearWide col).map (relabelRow φ) := by
  unfold Row.clearWide
  refine bind_renamed List.getElem?_map fun cell => ite_renamed Iff.rfl ?_ ?_
  · exact modify_relabel φ row (col + 1) fun _ => rfl
  · refine ite_renamed Iff.rfl (bind_same fun before => ?_) rfl
    exact modify_relabel φ row before fun _ => rfl

theorem remove_relabel (row : Row) (i : ℕ) :
    (relabelRow φ row).remove i = (row.remove i).map (relabelRow φ) := by
  unfold Row.remove
  refine bind_renamed (clearWide_relabel φ row i) fun row => ?_
  exact bind_renamed (removeAt_renamed _ row.cells i) fun r => rfl

theorem erase_relabel (row : Row) (i : ℕ) (attrs : Attrs) :
    (relabelRow φ row).erase i (relabelAttrs φ attrs) = (row.erase i attrs).map (relabelRow φ) := by
  unfold Row.erase
  refine bind_renamed (clearWide_relabel φ row i) fun row => ?_
  exact modify_relabel φ row i fun _ => rfl

theorem truncate_relabel (row : Row) (len : ℕ) :
    (relabelRow φ row).truncate len = (row.truncate len).map (relabelRow φ) := by
  unfold Row.truncate
  refine bind_same fun last => ?_
  have hcut : { relabelRow φ row with cells := (relabelRow φ row).cells.take len } =
      relabelRow φ { row with cells := row.cells.take len } := by
    unfold relabelRow
    rw [List.map_take]
  rw [hcut]
  exact modify_relabel φ _ last fun c => ite_renamed Iff.rfl rfl rfl

theorem resize_relabel (row : Row) (len : ℕ) (c : Cell) :
    (relabelRow φ row).resize len (relabelCell φ c) = relabelRow φ (row.resize len c) := by
  unfold Row.resize
  have hcells : resizeCells (relabelRow φ row).cells len (relabelCell φ c) =
      (resizeCells row.cells len c).map (relabelCell φ) := resizeCells_relabel φ row.cells len rfl
  simp only [hcells, List.getLast?_map]
  cases (resizeCells row.cells len c).getLast? with
  | none => rfl
  | some last =>
      have hlast : (if last.wide then ((resizeCells row.cells len c).map (relabelCell φ)).dropLast ++
            [relabelCell φ c] else (resizeCells row.cells len c).map (relabelCell φ)) =
          (if last.wide then (resizeCells row.cells len c).dropLast ++ [c]
            else resizeCells row.cells len c).map (relabelCell φ) := by
        refine ite_renamed (ψ := List.map (relabelCell φ)) Iff.rfl ?_ rfl
        rw [List.map_append, List.map_dropLast, List.map_singleton]
      exact congrArg (fun cells => Row.mk cells row.wrapped) hlast

end

/-! ## Grids -/

/-- The grid with other link indices, and with `k` more rows freed so far. -/
def relabelGrid (φ : Relabelling) (k : ℕ) (g : Grid) : Grid :=
  { g with
    freedRows := g.freedRows + k
    rows := g.rows.map (relabelRow φ)
    scrollback := g.scrollback.map (relabelRow φ)
    blankAttrs := relabelAttrs φ g.blankAttrs }

section

variable (φ : Relabelling) (k : ℕ) (g : Grid)

theorem blankCell_relabel : (relabelGrid φ k g).blankCell = relabelCell φ g.blankCell := rfl

theorem newRow_eq : g.newRow = (Row.new g.size.cols).clear g.blankAttrs := by
  unfold Grid.newRow
  by_cases hblank : g.blankAttrs = {}
  · rw [if_neg (not_not.mpr hblank), hblank]
    unfold Row.new Row.clear
    rw [List.map_replicate]
    rfl
  · exact if_pos hblank

theorem newRow_relabel : (relabelGrid φ k g).newRow = relabelRow φ g.newRow := by
  rw [newRow_eq, newRow_eq, ← clear_relabel, relabelRow_new]
  rfl

theorem allocateRows_relabel :
    (relabelGrid φ k g).allocateRows = relabelGrid φ k g.allocateRows := by
  unfold Grid.allocateRows
  refine ite_renamed ?_ ?_ rfl
  · rw [show (relabelGrid φ k g).rows = g.rows.map (relabelRow φ) from rfl, List.isEmpty_map]
  · unfold relabelGrid
    rw [List.map_replicate, relabelRow_new]

theorem clearRows_relabel (rows : List Row) (attrs : Attrs) :
    Grid.clearRows (rows.map (relabelRow φ)) (relabelAttrs φ attrs) =
      (Grid.clearRows rows attrs).map (relabelRow φ) := by
  unfold Grid.clearRows
  rw [List.map_map, List.map_map]
  exact List.map_congr_left fun row _ => clear_relabel φ row attrs

theorem clearGrid_relabel : (relabelGrid φ k g).clear = g.clear.map (relabelGrid φ k) := by
  unfold Grid.clear
  refine bind_same fun bottom => congrArg some ?_
  have hrows : (g.rows.map (relabelRow φ)).map (·.clear {}) =
      (g.rows.map (·.clear {})).map (relabelRow φ) := by
    have hclear := clearRows_relabel φ g.rows {}
    rw [relabelAttrs_default] at hclear
    exact hclear
  simp only [relabelGrid]
  rw [hrows, Nat.add_right_comm]

/-! ### The cursor -/

theorem rowClampTop_relabel (limit : Bool) :
    (relabelGrid φ k g).rowClampTop limit = relabelGrid φ k (g.rowClampTop limit) := by
  unfold Grid.rowClampTop
  exact ite_renamed Iff.rfl rfl rfl

theorem rowClampBottom_relabel (limit : Bool) :
    (relabelGrid φ k g).rowClampBottom limit =
      (g.rowClampBottom limit).map (Prod.map (relabelGrid φ k) id) := by
  unfold Grid.rowClampBottom
  refine bind_same fun bottom => ite_renamed Iff.rfl (bind_same fun rows => rfl) rfl

theorem rowClamp_relabel : (relabelGrid φ k g).rowClamp = g.rowClamp.map (relabelGrid φ k) := by
  unfold Grid.rowClamp
  exact bind_same fun last => congrArg some (ite_renamed Iff.rfl rfl rfl)

theorem colClamp_relabel : (relabelGrid φ k g).colClamp = g.colClamp.map (relabelGrid φ k) := by
  unfold Grid.colClamp
  exact bind_same fun last => congrArg some (ite_renamed Iff.rfl rfl rfl)

theorem setPos_relabel (pos : Pos) :
    (relabelGrid φ k g).setPos pos = (g.setPos pos).map (relabelGrid φ k) := by
  have hclamp : ∀ h : Grid,
      ((relabelGrid φ k h).rowClampTop h.originMode).rowClampBottom
          ((relabelGrid φ k h).rowClampTop h.originMode).originMode =
        ((h.rowClampTop h.originMode).rowClampBottom (h.rowClampTop h.originMode).originMode).map
          (Prod.map (relabelGrid φ k) id) := by
    intro h
    rw [rowClampTop_relabel]
    exact rowClampBottom_relabel φ k _ _
  unfold Grid.setPos
  exact bind_renamed (hclamp { g with pos := _ }) fun r => colClamp_relabel φ k r.1

theorem saveCursor_relabel : (relabelGrid φ k g).saveCursor = relabelGrid φ k g.saveCursor := rfl

theorem restoreCursor_relabel :
    (relabelGrid φ k g).restoreCursor = g.restoreCursor.map (relabelGrid φ k) :=
  colClamp_relabel φ k { g with pos := g.savedPos, originMode := g.savedOriginMode }

theorem modifyCurrentRow_relabel {f f' : Row → Option Row}
    (hf : ∀ row, f' (relabelRow φ row) = (f row).map (relabelRow φ)) :
    (relabelGrid φ k g).modifyCurrentRow f' = (g.modifyCurrentRow f).map (relabelGrid φ k) := by
  unfold Grid.modifyCurrentRow
  exact bind_renamed (updateAt_renamed hf g.rows g.pos.row) fun rows => rfl

theorem drawingCell_relabel (pos : Pos) :
    (relabelGrid φ k g).drawingCell pos = (g.drawingCell pos).map (relabelCell φ) := by
  unfold Grid.drawingCell
  exact bind_renamed List.getElem?_map fun row => List.getElem?_map

theorem modifyCell_relabel (pos : Pos) {f f' : Cell → Cell}
    (hf : ∀ c, f' (relabelCell φ c) = relabelCell φ (f c)) :
    (relabelGrid φ k g).modifyCell pos f' = (g.modifyCell pos f).map (relabelGrid φ k) := by
  unfold Grid.modifyCell
  exact bind_renamed (updateAt_renamed (fun row => modify_relabel φ row pos.col hf) g.rows pos.row)
    fun rows => rfl

theorem padRows_relabel (cols : ℕ) (rows : List Row) :
    (rows.map (relabelRow φ)).map (fun row =>
        if row.cells.length < cols then { row with cells := resizeCells row.cells cols Cell.new }
        else row) =
      (rows.map fun row =>
        if row.cells.length < cols then { row with cells := resizeCells row.cells cols Cell.new }
        else row).map (relabelRow φ) := by
  rw [List.map_map, List.map_map]
  refine List.map_congr_left fun row _ => ite_renamed ?_ ?_ rfl
  · rw [show (relabelRow φ row).cells = row.cells.map (relabelCell φ) from rfl, List.length_map]
  · have hcells := resizeCells_relabel φ row.cells cols (relabelCell_new φ).symm
    exact congrArg (fun cells => Row.mk cells row.wrapped) hcells

theorem padScrollbackWindow_relabel :
    (relabelGrid φ k g).padScrollbackWindow = g.padScrollbackWindow.map (relabelGrid φ k) := by
  unfold Grid.padScrollbackWindow
  have hlen : (relabelGrid φ k g).scrollback.length = g.scrollback.length := List.length_map _
  have hrows : (relabelGrid φ k g).rows.length = g.rows.length := List.length_map _
  rw [hlen]
  refine bind_same fun skip => ?_
  rw [hrows]
  have hpad := padRows_relabel φ g.size.cols ((g.scrollback.drop skip).take g.rows.length)
  refine congrArg (fun back => some ({ relabelGrid φ k g with scrollback := back } : Grid)) ?_
  rw [show (relabelGrid φ k g).scrollback = g.scrollback.map (relabelRow φ) from rfl,
    ← List.map_drop, ← List.map_take, ← List.map_take, ← List.map_drop, List.map_append,
    List.map_append]
  exact congrArg (fun shown => _ ++ shown ++ _) hpad

theorem setScrollback_relabel (rows : ℕ) :
    (relabelGrid φ k g).setScrollback rows = (g.setScrollback rows).map (relabelGrid φ k) := by
  unfold Grid.setScrollback
  rw [show (relabelGrid φ k g).scrollback = g.scrollback.map (relabelRow φ) from rfl,
    List.length_map]
  exact padScrollbackWindow_relabel φ k { g with scrollbackOffset := min rows g.scrollback.length }

/-! ### Erasing -/

theorem eraseAll_relabel (attrs : Attrs) :
    (relabelGrid φ k g).eraseAll (relabelAttrs φ attrs) = relabelGrid φ k (g.eraseAll attrs) := by
  unfold Grid.eraseAll
  simp only [relabelGrid]
  rw [clearRows_relabel, Nat.add_right_comm]

theorem eraseCols_relabel (row : Row) (start stop : ℕ) (attrs : Attrs) :
    Grid.eraseCols (relabelRow φ row) start stop (relabelAttrs φ attrs) =
      (Grid.eraseCols row start stop attrs).map (relabelRow φ) :=
  foldlM_renamed (fun row col => erase_relabel φ row col attrs) _ row

theorem eraseRowForward_relabel (attrs : Attrs) :
    (relabelGrid φ k g).eraseRowForward (relabelAttrs φ attrs) =
      (g.eraseRowForward attrs).map (relabelGrid φ k) := by
  refine modifyCurrentRow_relabel φ k g fun row => ?_
  refine bind_renamed (eraseCols_relabel φ row _ _ attrs) fun row => congrArg some ?_
  exact ite_renamed Iff.rfl rfl rfl

theorem eraseRowBackward_relabel (attrs : Attrs) :
    (relabelGrid φ k g).eraseRowBackward (relabelAttrs φ attrs) =
      (g.eraseRowBackward attrs).map (relabelGrid φ k) := by
  unfold Grid.eraseRowBackward
  refine bind_same fun last => modifyCurrentRow_relabel φ k g fun row => ?_
  exact eraseCols_relabel φ row _ _ attrs

theorem eraseAllForward_relabel (attrs : Attrs) :
    (relabelGrid φ k g).eraseAllForward (relabelAttrs φ attrs) =
      (g.eraseAllForward attrs).map (relabelGrid φ k) := by
  unfold Grid.eraseAllForward
  have hrows : (g.rows.map (relabelRow φ)).take (g.pos.row + 1) ++
        Grid.clearRows ((g.rows.map (relabelRow φ)).drop (g.pos.row + 1)) (relabelAttrs φ attrs) =
      (g.rows.take (g.pos.row + 1) ++ Grid.clearRows (g.rows.drop (g.pos.row + 1)) attrs).map
        (relabelRow φ) := by
    rw [← List.map_take, ← List.map_drop, clearRows_relabel, List.map_append]
  rw [← eraseRowForward_relabel]
  exact congrArg (fun rows => ({ relabelGrid φ k g with rows } : Grid).eraseRowForward _) hrows

theorem eraseAllBackward_relabel (attrs : Attrs) :
    (relabelGrid φ k g).eraseAllBackward (relabelAttrs φ attrs) =
      (g.eraseAllBackward attrs).map (relabelGrid φ k) := by
  unfold Grid.eraseAllBackward
  have hrows : Grid.clearRows ((g.rows.map (relabelRow φ)).take g.pos.row) (relabelAttrs φ attrs) ++
        (g.rows.map (relabelRow φ)).drop g.pos.row =
      (Grid.clearRows (g.rows.take g.pos.row) attrs ++ g.rows.drop g.pos.row).map
        (relabelRow φ) := by
    rw [← List.map_take, ← List.map_drop, clearRows_relabel, List.map_append]
  refine bind_renamed (φ := relabelGrid φ k) ?_ fun g => ?_
  · rw [← eraseRowBackward_relabel]
    exact congrArg (fun rows => ({ relabelGrid φ k g with rows } : Grid).eraseRowBackward _) hrows
  refine bind_renamed (modifyCurrentRow_relabel φ k g fun row => rfl) fun g => ?_
  refine ite_renamed Iff.rfl (ite_renamed ?_ ?_ ?_) rfl
  · rw [show (relabelGrid φ k g).scrollback.length = g.scrollback.length from List.length_map _]
    rfl
  · refine bind_renamed (φ := List.map (relabelRow φ)) ?_ fun back => rfl
    exact updateAt_renamed (fun row => congrArg some (wrap_relabel φ row false)) g.scrollback _
  · rw [show (relabelGrid φ k g).scrollback.length = g.scrollback.length from List.length_map _]
    refine bind_same fun next => ?_
    refine congrArg (fun rows => some ({ relabelGrid φ k g with rows } : Grid)) ?_
    exact modify_renamed (fun row => wrap_relabel φ row false) g.rows next

theorem eraseRow_relabel (attrs : Attrs) :
    (relabelGrid φ k g).eraseRow (relabelAttrs φ attrs) =
      (g.eraseRow attrs).map (relabelGrid φ k) :=
  modifyCurrentRow_relabel φ k g fun row => congrArg some (clear_relabel φ row attrs)

theorem eraseCells_relabel (count : ℕ) (attrs : Attrs) :
    (relabelGrid φ k g).eraseCells count (relabelAttrs φ attrs) =
      (g.eraseCells count attrs).map (relabelGrid φ k) :=
  modifyCurrentRow_relabel φ k g fun row => eraseCols_relabel φ row _ _ attrs

/-! ### Inserting and deleting -/

theorem insertBlank_relabel (wide : Bool) (col : ℕ) (blank : Cell) (row : Row) :
    Grid.insertBlank wide col (relabelCell φ blank) (relabelRow φ row) =
      (Grid.insertBlank wide col blank row).map (relabelRow φ) := by
  unfold Grid.insertBlank
  refine bind_renamed (φ := relabelRow φ) ?_ fun row => ?_
  · exact ite_renamed Iff.rfl (modify_relabel φ row col fun _ => rfl) rfl
  refine bind_renamed (insert_relabel φ row col blank) fun row => ?_
  exact ite_renamed Iff.rfl (modify_relabel φ row col fun _ => rfl) rfl

theorem insertCells_relabel (count : ℕ) :
    (relabelGrid φ k g).insertCells count = (g.insertCells count).map (relabelGrid φ k) := by
  unfold Grid.insertCells
  have hwide : ((relabelGrid φ k g).drawingCell g.pos).map (fun c => c.wideContinuation) =
      (g.drawingCell g.pos).map fun c => c.wideContinuation := by
    rw [drawingCell_relabel, Option.map_map]
    rfl
  rw [show ((relabelGrid φ k g).drawingCell (relabelGrid φ k g).pos).map
    (fun c => c.wideContinuation) = _ from hwide]
  refine bind_same fun wide => modifyCurrentRow_relabel φ k g fun row => ?_
  refine bind_renamed ?_ fun row => truncate_relabel φ row _
  exact repeatM_renamed (insertBlank_relabel φ wide g.pos.col g.blankCell) _ row

theorem deleteCells_relabel (count : ℕ) :
    (relabelGrid φ k g).deleteCells count = (g.deleteCells count).map (relabelGrid φ k) := by
  unfold Grid.deleteCells
  refine bind_same fun left => modifyCurrentRow_relabel φ k g fun row => ?_
  refine bind_renamed (repeatM_renamed (fun row => remove_relabel φ row g.pos.col) _ row) ?_
  exact fun row => congrArg some (resize_relabel φ row g.size.cols g.blankCell)

/-- One row taken out and a blank one put in: the body of the loops that move lines. -/
theorem rotate_relabel (i j : ℕ) :
    (removeAt (relabelGrid φ k g).rows i >>= fun r =>
        insertAt r.2 j (relabelGrid φ k g).newRow >>= fun rows =>
          some ({ relabelGrid φ k g with rows } : Grid)) =
      (removeAt g.rows i >>= fun r => insertAt r.2 j g.newRow >>= fun rows =>
        some ({ g with rows } : Grid)).map (relabelGrid φ k) := by
  rw [newRow_relabel]
  refine bind_renamed (removeAt_renamed _ g.rows i) fun r => ?_
  exact bind_renamed (insertAt_renamed _ r.2 j g.newRow) fun rows => rfl

theorem insertLines_relabel (count : ℕ) :
    (relabelGrid φ k g).insertLines count = (g.insertLines count).map (relabelGrid φ k) := by
  unfold Grid.insertLines
  refine bind_renamed (colClamp_relabel φ k g) fun g => ite_renamed Iff.rfl rfl ?_
  refine bind_same fun left => ?_
  exact repeatM_renamed (φ := relabelGrid φ k)
    (fun g => rotate_relabel φ k g g.scrollBottom g.pos.row) _ { g with pos := { g.pos with col := 0 } }

theorem deleteLines_relabel (count : ℕ) :
    (relabelGrid φ k g).deleteLines count = (g.deleteLines count).map (relabelGrid φ k) := by
  unfold Grid.deleteLines
  refine bind_renamed (colClamp_relabel φ k g) fun g => ite_renamed Iff.rfl rfl ?_
  refine bind_same fun left => repeatM_renamed (φ := relabelGrid φ k) (fun g => ?_) _
    { g with pos := { g.pos with col := 0 } }
  rw [newRow_relabel]
  refine bind_renamed (insertAt_renamed _ g.rows _ g.newRow) fun rows => ?_
  exact bind_renamed (removeAt_renamed _ rows g.pos.row) fun r => rfl

/-! ### Scrolling -/

theorem scrollOne_relabel (feed : Bool) :
    (relabelGrid φ k g).scrollOne feed = (g.scrollOne feed).map (relabelGrid φ k) := by
  unfold Grid.scrollOne
  rw [newRow_relabel]
  refine bind_renamed (insertAt_renamed _ g.rows _ g.newRow) fun rows => ?_
  refine bind_renamed (removeAt_renamed _ rows g.scrollTop) fun r => ite_renamed Iff.rfl ?_ ?_
  · have hback : g.scrollback.map (relabelRow φ) ++ [relabelRow φ r.1] =
        (g.scrollback ++ [r.1]).map (relabelRow φ) := by
      rw [List.map_append, List.map_singleton]
    simp only [relabelGrid, Prod.map_fst, hback, List.length_map, ← List.map_drop]
    rw [Nat.add_right_comm]
    rfl
  · simp only [relabelGrid]
    rw [Nat.add_right_comm]
    rfl

theorem scrollRegionUp_relabel (count : ℕ) (feed : Bool) :
    (relabelGrid φ k g).scrollRegionUp count feed =
      (g.scrollRegionUp count feed).map (relabelGrid φ k) := by
  unfold Grid.scrollRegionUp
  exact bind_same fun height => repeatM_renamed (fun g => scrollOne_relabel φ k g feed) _ g

theorem scrollDown_relabel (count : ℕ) (bce : Bool) :
    (relabelGrid φ k g).scrollDown count bce =
      (g.scrollDown count bce).map (relabelGrid φ k) := by
  unfold Grid.scrollDown
  refine bind_same fun height => repeatM_renamed (fun g => ?_) _ g
  refine bind_renamed (removeAt_renamed _ g.rows _) fun r => ?_
  refine bind_renamed (φ := List.map (relabelRow φ)) ?_ fun rows => rfl
  rw [← insertAt_renamed]
  congr 1
  refine ite_renamed Iff.rfl (newRow_relabel φ k g) (relabelRow_new φ _).symm

theorem setScrollRegion_relabel (top bottom : ℕ) :
    (relabelGrid φ k g).setScrollRegion top bottom =
      (g.setScrollRegion top bottom).map (relabelGrid φ k) := by
  unfold Grid.setScrollRegion
  exact bind_same fun last => congrArg some (ite_renamed Iff.rfl rfl rfl)

theorem setOriginMode_relabel (mode : Bool) :
    (relabelGrid φ k g).setOriginMode mode = (g.setOriginMode mode).map (relabelGrid φ k) :=
  setPos_relabel φ k { g with originMode := mode } {}

/-! ### Moving -/

theorem rowIncClamp_relabel (count : ℕ) :
    (relabelGrid φ k g).rowIncClamp count = (g.rowIncClamp count).map (relabelGrid φ k) := by
  unfold Grid.rowIncClamp
  exact bind_renamed (rowClampBottom_relabel φ k
    { g with pos := { g.pos with row := saturatingAdd u16Max g.pos.row count } } g.inScrollRegion)
    fun r => rfl

theorem rowIncScroll_relabel (count : ℕ) :
    (relabelGrid φ k g).rowIncScroll count =
      (g.rowIncScroll count).map (Prod.map (relabelGrid φ k) id) := by
  unfold Grid.rowIncScroll
  refine bind_renamed (rowClampBottom_relabel φ k
    { g with pos := { g.pos with row := saturatingAdd u16Max g.pos.row count } } g.inScrollRegion)
    fun r => ite_renamed Iff.rfl ?_ rfl
  exact bind_renamed (scrollRegionUp_relabel φ k r.1 r.2 true) fun g => rfl

theorem lineFeed_relabel : (relabelGrid φ k g).lineFeed = g.lineFeed.map (relabelGrid φ k) := by
  unfold Grid.lineFeed
  refine bind_renamed (rowIncScroll_relabel φ k g 1) fun r => ?_
  refine bind_renamed (φ := relabelGrid φ k) ?_ fun g => colClamp_relabel φ k g
  refine ite_renamed Iff.rfl ?_ rfl
  exact modifyCurrentRow_relabel φ k r.1 fun row => rfl

theorem rowDecClamp_relabel (count : ℕ) :
    (relabelGrid φ k g).rowDecClamp count = relabelGrid φ k (g.rowDecClamp count) :=
  rowClampTop_relabel φ k { g with pos := { g.pos with row := g.pos.row - count } } g.inScrollRegion

theorem reverseIndex_relabel :
    (relabelGrid φ k g).reverseIndex = g.reverseIndex.map (relabelGrid φ k) := by
  unfold Grid.reverseIndex
  refine bind_renamed (colClamp_relabel φ k g) fun g => ite_renamed Iff.rfl ?_ rfl
  exact scrollDown_relabel φ k g 1 true

theorem rowSet_relabel (i : ℕ) :
    (relabelGrid φ k g).rowSet i = (g.rowSet i).map (relabelGrid φ k) :=
  rowClamp_relabel φ k { g with pos := { g.pos with row := i } }

theorem colInc_relabel (count : ℕ) :
    (relabelGrid φ k g).colInc count = relabelGrid φ k (g.colInc count) := rfl

theorem colIncClamp_relabel (count : ℕ) :
    (relabelGrid φ k g).colIncClamp count = (g.colIncClamp count).map (relabelGrid φ k) :=
  colClamp_relabel φ k (g.colInc count)

theorem colDecRestricted_relabel (count : ℕ) :
    (relabelGrid φ k g).colDecRestricted count =
      (g.colDecRestricted count).map (relabelGrid φ k) := by
  unfold Grid.colDecRestricted
  exact bind_renamed (colClamp_relabel φ k g) fun g => rfl

theorem colSet_relabel (i : ℕ) :
    (relabelGrid φ k g).colSet i = (g.colSet i).map (relabelGrid φ k) :=
  colClamp_relabel φ k { g with pos := { g.pos with col := i } }

theorem colForwardTab_relabel (count : ℕ) :
    (relabelGrid φ k g).colForwardTab count =
      (g.colForwardTab count).map (relabelGrid φ k) := by
  unfold Grid.colForwardTab
  refine ite_renamed Iff.rfl rfl ?_
  refine bind_renamed (φ := relabelGrid φ k) ?_ fun g => colClamp_relabel φ k g
  refine repeatM_renamed (fun g => ?_) count g
  exact bind_same fun next => bind_same fun last => rfl

theorem colBackTab_relabel (count : ℕ) :
    (relabelGrid φ k g).colBackTab count = (g.colBackTab count).map (relabelGrid φ k) := by
  unfold Grid.colBackTab
  refine repeatM_renamed (fun g => ?_) count g
  exact bind_same fun last => bind_same fun prev => rfl

theorem alignTest_relabel (width : Char → Option ℕ) :
    (relabelGrid φ k g).alignTest width = (g.alignTest width).map (relabelGrid φ k) := by
  unfold Grid.alignTest
  refine bind_same fun bottom => ?_
  refine congrArg (fun rows => some ({ relabelGrid φ k g with
    scrollTop := 0, scrollBottom := bottom, originMode := false, pos := {}, rows } : Grid)) ?_
  rw [show (relabelGrid φ k g).rows = g.rows.map (relabelRow φ) from rfl, List.map_map,
    List.map_map]
  refine List.map_congr_left fun row _ => congrArg (fun cells => Row.mk cells false) ?_
  unfold Row.clear relabelRow
  simp only [List.map_map]
  refine List.map_congr_left fun c _ => congrArg (Cell.mk _ _ _) ?_
  exact (relabelAttrs_default φ).symm

theorem softReset_relabel : (relabelGrid φ k g).softReset = g.softReset.map (relabelGrid φ k) := by
  unfold Grid.softReset
  exact bind_same fun bottom => rfl

theorem colWrap_relabel (width : ℕ) :
    (relabelGrid φ k g).colWrap width = (g.colWrap width).map (relabelGrid φ k) := by
  unfold Grid.colWrap
  refine bind_same fun last => ite_renamed Iff.rfl ?_ rfl
  refine bind_renamed (rowIncScroll_relabel φ k { g with pos := { g.pos with col := 0 } } 1) ?_
  exact fun r => modifyCurrentRow_relabel φ k r.1 fun row => rfl

end

/-! ## Relabelling twice, and not at all -/

/-- First `ψ`, then `φ`. -/
def Relabelling.comp (φ ψ : Relabelling) : Relabelling where
  link n := φ.link (ψ.link n)
  link_zero := by rw [ψ.link_zero, φ.link_zero]

theorem relabelRow_comp (φ ψ : Relabelling) (row : Row) :
    relabelRow φ (relabelRow ψ row) = relabelRow (φ.comp ψ) row := by
  unfold relabelRow
  rw [List.map_map]
  rfl

theorem relabelGrid_comp (φ ψ : Relabelling) (k : ℕ) (g : Grid) :
    relabelGrid φ k (relabelGrid ψ 0 g) = relabelGrid (φ.comp ψ) k g := by
  have hrows : ∀ rows : List Row, (rows.map (relabelRow ψ)).map (relabelRow φ) =
      rows.map (relabelRow (φ.comp ψ)) := by
    intro rows
    rw [List.map_map]
    exact List.map_congr_left fun row _ => relabelRow_comp φ ψ row
  unfold relabelGrid
  simp only [hrows]
  rfl

theorem Relabelling.ext {φ ψ : Relabelling} (h : ∀ n, φ.link n = ψ.link n) : φ = ψ := by
  cases φ
  cases ψ
  rw [Relabelling.mk.injEq]
  exact funext h

/-- The indices of a grid stay what they are. -/
def FixesGrid (φ : Relabelling) (g : Grid) : Prop :=
  (∀ row ∈ g.rows ++ g.scrollback, ∀ c ∈ row.cells, φ.link c.attrs.hyperlink = c.attrs.hyperlink) ∧
    φ.link g.blankAttrs.hyperlink = g.blankAttrs.hyperlink

theorem relabelAttrs_eq_self {φ : Relabelling} {a : Attrs} (h : φ.link a.hyperlink = a.hyperlink) :
    relabelAttrs φ a = a := by
  unfold relabelAttrs
  rw [h]

theorem relabelRow_eq_self {φ : Relabelling} {row : Row}
    (h : ∀ c ∈ row.cells, φ.link c.attrs.hyperlink = c.attrs.hyperlink) : relabelRow φ row = row := by
  have hcells : row.cells.map (relabelCell φ) = row.cells := by
    refine (List.map_congr_left fun c hc => ?_).trans (List.map_id' row.cells)
    exact congrArg (Cell.mk c.contents c.wide c.wideContinuation) (relabelAttrs_eq_self (h c hc))
  exact congrArg (fun cells => Row.mk cells row.wrapped) hcells

theorem relabelGrid_eq_self {φ : Relabelling} {g : Grid} (h : FixesGrid φ g) (k : ℕ) :
    relabelGrid φ k g = { g with freedRows := g.freedRows + k } := by
  obtain ⟨hrows, hblank⟩ := h
  rw [List.forall_mem_append] at hrows
  have hkept : ∀ rows : List Row, (∀ row ∈ rows, relabelRow φ row = row) →
      rows.map (relabelRow φ) = rows := fun rows hrow =>
    (List.map_congr_left hrow).trans (List.map_id' rows)
  unfold relabelGrid
  rw [hkept g.rows fun row hrow => relabelRow_eq_self (hrows.1 row hrow),
    hkept g.scrollback fun row hrow => relabelRow_eq_self (hrows.2 row hrow),
    relabelAttrs_eq_self hblank]

end Tymux.Analysis.Vt
