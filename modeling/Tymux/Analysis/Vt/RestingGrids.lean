import Tymux.Analysis.Vt.Padding
import Tymux.Lib.Renaming
import Tymux.Lib.Respects

/-!
# Grids and the padding of their scrollback

No operation on the rows that are drawn looks at the scrollback, and the ones that do look at it see
its length or change a flag: `<op>_rest` says that the operation commutes with `restGrid`. A row that
is scrolled off goes to the scrollback as it is, so scrolling only respects `restGrid`.
-/

set_option autoImplicit false

namespace Tymux.Analysis.Vt

open Tymux.Lib Tymux.Model Tymux.Model.Vt

section

variable (g : Grid)

/-! ## The cursor -/

theorem rowClampTop_rest (limit : Bool) :
    (restGrid g).rowClampTop limit = restGrid (g.rowClampTop limit) := by
  unfold Grid.rowClampTop
  exact ite_renamed Iff.rfl rfl rfl

theorem rowClampBottom_rest (limit : Bool) :
    (restGrid g).rowClampBottom limit =
      (g.rowClampBottom limit).map (Prod.map restGrid id) := by
  unfold Grid.rowClampBottom
  refine bind_same fun bottom => ite_renamed Iff.rfl (bind_same fun rows => rfl) rfl

theorem rowClamp_rest : (restGrid g).rowClamp = g.rowClamp.map restGrid := by
  unfold Grid.rowClamp
  exact bind_same fun last => congrArg some (ite_renamed Iff.rfl rfl rfl)

theorem colClamp_rest : (restGrid g).colClamp = g.colClamp.map restGrid := by
  unfold Grid.colClamp
  exact bind_same fun last => congrArg some (ite_renamed Iff.rfl rfl rfl)

theorem setPos_rest (pos : Pos) : (restGrid g).setPos pos = (g.setPos pos).map restGrid := by
  have hclamp : ∀ h : Grid,
      ((restGrid h).rowClampTop h.originMode).rowClampBottom
          ((restGrid h).rowClampTop h.originMode).originMode =
        ((h.rowClampTop h.originMode).rowClampBottom (h.rowClampTop h.originMode).originMode).map
          (Prod.map restGrid id) := by
    intro h
    rw [rowClampTop_rest]
    exact rowClampBottom_rest _ _
  unfold Grid.setPos
  exact bind_renamed (hclamp { g with pos := _ }) fun r => colClamp_rest r.1

theorem saveCursor_rest : (restGrid g).saveCursor = restGrid g.saveCursor := rfl

theorem restoreCursor_rest : (restGrid g).restoreCursor = g.restoreCursor.map restGrid :=
  colClamp_rest { g with pos := g.savedPos, originMode := g.savedOriginMode }

theorem clearGrid_rest : (restGrid g).clear = g.clear.map restGrid := by
  unfold Grid.clear
  exact bind_same fun bottom => rfl

theorem allocateRows_rest : (restGrid g).allocateRows = restGrid g.allocateRows := by
  unfold Grid.allocateRows
  exact ite_renamed Iff.rfl rfl rfl

/-! ## Cells -/

theorem modifyCurrentRow_rest (f : Row → Option Row) :
    (restGrid g).modifyCurrentRow f = (g.modifyCurrentRow f).map restGrid := by
  unfold Grid.modifyCurrentRow
  exact bind_same fun rows => rfl

theorem drawingCell_rest (pos : Pos) : (restGrid g).drawingCell pos = g.drawingCell pos := rfl

theorem modifyCell_rest (pos : Pos) (f : Cell → Cell) :
    (restGrid g).modifyCell pos f = (g.modifyCell pos f).map restGrid := by
  unfold Grid.modifyCell
  exact bind_same fun rows => rfl

theorem tryModifyCell_rest (pos : Pos) (f : Cell → Cell) :
    Screen.tryModifyCell (restGrid g) pos f = (Screen.tryModifyCell g pos f).map restGrid := by
  unfold Screen.tryModifyCell
  exact ite_renamed Iff.rfl (modifyCell_rest g pos f) rfl

/-! ## Erasing -/

theorem eraseAll_rest (attrs : Attrs) : (restGrid g).eraseAll attrs = restGrid (g.eraseAll attrs) :=
  rfl

theorem eraseRowForward_rest (attrs : Attrs) :
    (restGrid g).eraseRowForward attrs = (g.eraseRowForward attrs).map restGrid :=
  modifyCurrentRow_rest g _

theorem eraseRowBackward_rest (attrs : Attrs) :
    (restGrid g).eraseRowBackward attrs = (g.eraseRowBackward attrs).map restGrid := by
  unfold Grid.eraseRowBackward
  exact bind_same fun last => modifyCurrentRow_rest g _

theorem eraseAllForward_rest (attrs : Attrs) :
    (restGrid g).eraseAllForward attrs = (g.eraseAllForward attrs).map restGrid :=
  eraseRowForward_rest { g with rows := _ } attrs

/-- The row below the cursor is looked up among the rows of the scrollback, and only its flag is
changed. -/
theorem eraseAllBackward_rest (attrs : Attrs) :
    (restGrid g).eraseAllBackward attrs = (g.eraseAllBackward attrs).map restGrid := by
  unfold Grid.eraseAllBackward
  refine bind_renamed (φ := restGrid) ?_ fun g => ?_
  · exact eraseRowBackward_rest
      { g with rows := Grid.clearRows (g.rows.take g.pos.row) attrs ++ g.rows.drop g.pos.row } attrs
  refine bind_renamed (modifyCurrentRow_rest g _) fun g => ?_
  refine ite_renamed Iff.rfl (ite_renamed ?_ ?_ ?_) rfl
  · rw [show (restGrid g).scrollback.length = g.scrollback.length from List.length_map _]
    rfl
  · refine bind_renamed (φ := List.map (fullRow g.size.cols)) ?_ fun back => rfl
    exact updateAt_renamed (φ := fullRow g.size.cols) (f := fun row => some (row.wrap false))
      (fun row => rfl) g.scrollback _
  · rw [show (restGrid g).scrollback.length = g.scrollback.length from List.length_map _]
    exact bind_same fun next => rfl

theorem eraseRow_rest (attrs : Attrs) :
    (restGrid g).eraseRow attrs = (g.eraseRow attrs).map restGrid :=
  modifyCurrentRow_rest g _

theorem eraseCells_rest (count : ℕ) (attrs : Attrs) :
    (restGrid g).eraseCells count attrs = (g.eraseCells count attrs).map restGrid :=
  modifyCurrentRow_rest g _

/-! ## Inserting and deleting -/

theorem insertCells_rest (count : ℕ) :
    (restGrid g).insertCells count = (g.insertCells count).map restGrid := by
  unfold Grid.insertCells
  exact bind_same fun wide => modifyCurrentRow_rest g _

theorem deleteCells_rest (count : ℕ) :
    (restGrid g).deleteCells count = (g.deleteCells count).map restGrid := by
  unfold Grid.deleteCells
  exact bind_same fun left => modifyCurrentRow_rest g _

theorem insertLines_rest (count : ℕ) :
    (restGrid g).insertLines count = (g.insertLines count).map restGrid := by
  unfold Grid.insertLines
  refine bind_renamed (colClamp_rest g) fun g => ite_renamed Iff.rfl rfl ?_
  refine bind_same fun left => repeatM_renamed (φ := restGrid) (fun g => ?_) _
    { g with pos := { g.pos with col := 0 } }
  exact bind_same fun r => bind_same fun rows => rfl

theorem deleteLines_rest (count : ℕ) :
    (restGrid g).deleteLines count = (g.deleteLines count).map restGrid := by
  unfold Grid.deleteLines
  refine bind_renamed (colClamp_rest g) fun g => ite_renamed Iff.rfl rfl ?_
  refine bind_same fun left => repeatM_renamed (φ := restGrid) (fun g => ?_) _
    { g with pos := { g.pos with col := 0 } }
  exact bind_same fun rows => bind_same fun r => rfl

/-! ## Scrolling -/

/-- INTERNAL: The row that is scrolled off is not padded, and becomes so in `restGrid`.
SRC: grid.rs:615-632 -/
theorem scrollOne_respects (feed : Bool) : Respects restGrid restGrid (Grid.scrollOne feed) := by
  intro g
  unfold Grid.scrollOne
  refine bind_same_respects fun rows => bind_same_respects fun r => ?_
  refine ite_respects Iff.rfl ?_
    (congrArg some (restGrid_idem { g with rows := r.2, freedRows := g.freedRows + 1 }))
  have hback : ((g.scrollback.map (fullRow g.size.cols) ++ [r.1]).map (fullRow g.size.cols)) =
      (g.scrollback ++ [r.1]).map (fullRow g.size.cols) := by
    rw [List.map_append, List.map_append, map_fullRow_idem]
  have hlen : (g.scrollback.map (fullRow g.size.cols) ++ [r.1]).length =
      (g.scrollback ++ [r.1]).length := by
    rw [List.length_append, List.length_append, List.length_map]
  refine congrArg some ?_
  simp only [restGrid, List.map_drop, hback, hlen]

theorem scrollRegionUp_respects (count : ℕ) (feed : Bool) :
    Respects restGrid restGrid fun g => g.scrollRegionUp count feed := by
  intro g
  exact bind_same_respects fun height =>
    repeatM_respects restGrid_idem (scrollOne_respects feed) _ g

theorem scrollDown_rest (count : ℕ) (bce : Bool) :
    (restGrid g).scrollDown count bce = (g.scrollDown count bce).map restGrid := by
  unfold Grid.scrollDown
  refine bind_same fun height => repeatM_renamed (fun g => ?_) _ g
  exact bind_same fun r => bind_same fun rows => rfl

theorem setScrollRegion_rest (top bottom : ℕ) :
    (restGrid g).setScrollRegion top bottom = (g.setScrollRegion top bottom).map restGrid := by
  unfold Grid.setScrollRegion
  exact bind_same fun last => congrArg some (ite_renamed Iff.rfl rfl rfl)

theorem setOriginMode_rest (mode : Bool) :
    (restGrid g).setOriginMode mode = (g.setOriginMode mode).map restGrid :=
  setPos_rest { g with originMode := mode } {}

/-! ## Moving -/

theorem rowIncClamp_rest (count : ℕ) :
    (restGrid g).rowIncClamp count = (g.rowIncClamp count).map restGrid := by
  unfold Grid.rowIncClamp
  exact bind_renamed (rowClampBottom_rest
    { g with pos := { g.pos with row := saturatingAdd u16Max g.pos.row count } } g.inScrollRegion)
    fun r => rfl

theorem prodRest_idem {β : Type} (r : Grid × β) :
    Prod.map restGrid id (Prod.map restGrid id r) = Prod.map restGrid id r :=
  congrArg (·, r.2) (restGrid_idem r.1)

theorem rowIncScroll_respects (count : ℕ) :
    Respects restGrid (Prod.map restGrid id) fun g => g.rowIncScroll count := by
  intro g
  unfold Grid.rowIncScroll
  refine bind_respects (map_of_commutes prodRest_idem (rowClampBottom_rest
    { g with pos := { g.pos with row := saturatingAdd u16Max g.pos.row count } }
    g.inScrollRegion)) fun r => ?_
  refine ite_respects Iff.rfl ?_ ?_
  · exact bind_respects (scrollRegionUp_respects r.2 true r.1) fun g =>
      congrArg (fun g => some (g, r.2)) (restGrid_idem g)
  · exact congrArg (fun g => some (g, 0)) (restGrid_idem r.1)

theorem lineFeed_respects : Respects restGrid restGrid Grid.lineFeed := by
  intro g
  unfold Grid.lineFeed
  refine bind_respects (rowIncScroll_respects 1 g) fun r => ?_
  refine bind_respects (φ := restGrid) ?_ fun g => map_of_commutes restGrid_idem (colClamp_rest g)
  refine ite_respects Iff.rfl ?_ (congrArg some (restGrid_idem r.1))
  exact map_of_commutes restGrid_idem (modifyCurrentRow_rest r.1 _)

theorem rowDecClamp_rest (count : ℕ) :
    (restGrid g).rowDecClamp count = restGrid (g.rowDecClamp count) :=
  rowClampTop_rest { g with pos := { g.pos with row := g.pos.row - count } } g.inScrollRegion

theorem reverseIndex_rest : (restGrid g).reverseIndex = g.reverseIndex.map restGrid := by
  unfold Grid.reverseIndex
  refine bind_renamed (colClamp_rest g) fun g => ite_renamed Iff.rfl ?_ rfl
  exact scrollDown_rest g 1 true

theorem rowSet_rest (i : ℕ) : (restGrid g).rowSet i = (g.rowSet i).map restGrid :=
  rowClamp_rest { g with pos := { g.pos with row := i } }

theorem colIncClamp_rest (count : ℕ) :
    (restGrid g).colIncClamp count = (g.colIncClamp count).map restGrid :=
  colClamp_rest (g.colInc count)

theorem colDecRestricted_rest (count : ℕ) :
    (restGrid g).colDecRestricted count = (g.colDecRestricted count).map restGrid := by
  unfold Grid.colDecRestricted
  exact bind_renamed (colClamp_rest g) fun g => rfl

theorem colSet_rest (i : ℕ) : (restGrid g).colSet i = (g.colSet i).map restGrid :=
  colClamp_rest { g with pos := { g.pos with col := i } }

theorem colForwardTab_rest (count : ℕ) :
    (restGrid g).colForwardTab count = (g.colForwardTab count).map restGrid := by
  unfold Grid.colForwardTab
  refine ite_renamed Iff.rfl rfl ?_
  refine bind_renamed (φ := restGrid) ?_ fun g => colClamp_rest g
  refine repeatM_renamed (fun g => ?_) count g
  exact bind_same fun next => bind_same fun last => rfl

theorem colBackTab_rest (count : ℕ) :
    (restGrid g).colBackTab count = (g.colBackTab count).map restGrid := by
  unfold Grid.colBackTab
  refine repeatM_renamed (fun g => ?_) count g
  exact bind_same fun last => bind_same fun prev => rfl

theorem alignTest_rest (width : Char → Option ℕ) :
    (restGrid g).alignTest width = (g.alignTest width).map restGrid := by
  unfold Grid.alignTest
  exact bind_same fun bottom => rfl

theorem softReset_rest : (restGrid g).softReset = g.softReset.map restGrid := by
  unfold Grid.softReset
  exact bind_same fun bottom => rfl

theorem colWrap_respects (width : ℕ) : Respects restGrid restGrid fun g => g.colWrap width := by
  intro g
  unfold Grid.colWrap
  refine bind_same_respects fun last => ite_respects Iff.rfl ?_ (congrArg some (restGrid_idem g))
  refine bind_respects (rowIncScroll_respects 1 { g with pos := { g.pos with col := 0 } }) fun r => ?_
  exact map_of_commutes restGrid_idem (modifyCurrentRow_rest r.1 _)

theorem setScrollback_respects (rows : ℕ) :
    Respects restGrid restGrid fun g => g.setScrollback rows := by
  intro g
  obtain ⟨g', hg', hrest', -, -⟩ := setScrollback_rest (restGrid g) rows
  obtain ⟨g'', hg'', hrest'', -, -⟩ := setScrollback_rest g rows
  dsimp only
  rw [hg', hg'', Option.map_some, Option.map_some, hrest', hrest'', restGrid_idem]

end

end Tymux.Analysis.Vt
