import Tymux.Analysis.Vt.RelabelledResize
import Tymux.Analysis.Vt.Screens

/-!
# Screens with other link indices

Apart from OSC 8, which enters a link into the table, and the full reset, nothing the emulator does
depends on the link indices, on the table or on how many rows have been freed so far.
-/

set_option autoImplicit false

namespace Tymux.Analysis.Vt

open Tymux.Lib Tymux.Model Tymux.Model.Vt

/-- What can be changed in a screen without a control noticing. -/
structure Guise where
  labels : Relabelling
  mainFreed : ℕ
  alternateFreed : ℕ
  hyperlinks : List (String × String)
  compactSkip : ℕ
  compactDelay : ℕ
  compactFreedMark : ℕ

def dressed (γ : Guise) (s : Screen) : Screen :=
  { s with
    grid := relabelGrid γ.labels γ.mainFreed s.grid
    alternateGrid := relabelGrid γ.labels γ.alternateFreed s.alternateGrid
    attrs := relabelAttrs γ.labels s.attrs
    savedAttrs := relabelAttrs γ.labels s.savedAttrs
    hyperlinks := γ.hyperlinks
    compactSkip := γ.compactSkip
    compactDelay := γ.compactDelay
    compactFreedMark := γ.compactFreedMark }

section

variable (γ : Guise) (s : Screen)

/-! ## The grid that is shown -/

/-- The change of the count of the grid that is shown. -/
def Guise.shownFreed (γ : Guise) (s : Screen) : ℕ :=
  if s.modes.alternateScreen then γ.alternateFreed else γ.mainFreed

theorem currentGrid_dressed :
    (dressed γ s).currentGrid = relabelGrid γ.labels (γ.shownFreed s) s.currentGrid := by
  unfold Screen.currentGrid Guise.shownFreed
  cases h : s.modes.alternateScreen with
  | true => exact if_pos h
  | false => exact if_neg (Bool.eq_false_iff.mp h)

theorem putGrid_dressed (g : Grid) :
    (dressed γ s).putGrid (relabelGrid γ.labels (γ.shownFreed s) g) = dressed γ (s.putGrid g) := by
  unfold Screen.putGrid Guise.shownFreed
  cases h : s.modes.alternateScreen with
  | true => exact if_pos h
  | false => exact if_neg (Bool.eq_false_iff.mp h)

theorem withGrid_dressed {f f' : Grid → Option Grid}
    (hf : ∀ k, f' (relabelGrid γ.labels k s.currentGrid) =
      (f s.currentGrid).map (relabelGrid γ.labels k)) :
    (dressed γ s).withGrid f' = (s.withGrid f).map (dressed γ) := by
  unfold Screen.withGrid
  rw [currentGrid_dressed]
  exact map_renamed (hf _) fun g => putGrid_dressed γ s g

theorem setSize_dressed (rows cols : ℕ) :
    (dressed γ s).setSize rows cols = (s.setSize rows cols).map (dressed γ) := by
  unfold Screen.setSize
  refine bind_renamed (setSize_relabel γ.labels γ.mainFreed s.grid _ true) fun g => ?_
  exact bind_renamed (setSize_relabel γ.labels γ.alternateFreed s.alternateGrid _ false) fun _ => rfl

theorem setScrollback_dressed (rows : ℕ) :
    (dressed γ s).setScrollback rows = (s.setScrollback rows).map (dressed γ) :=
  withGrid_dressed γ s fun k => setScrollback_relabel γ.labels k _ rows

theorem enterAlternateGrid_dressed :
    (dressed γ s).enterAlternateGrid = s.enterAlternateGrid.map (dressed γ) := by
  unfold Screen.enterAlternateGrid
  refine ite_renamed Iff.rfl rfl (bind_renamed (setScrollback_dressed γ s 0) fun s => ?_)
  have halloc := allocateRows_relabel γ.labels γ.alternateFreed s.alternateGrid
  refine congrArg (fun g : Grid => some { dressed γ s with
    modes := { s.modes with alternateScreen := true }
    alternateGrid := { g with pos := s.grid.pos } }) halloc

theorem exitAlternateGrid_dressed :
    (dressed γ s).exitAlternateGrid = dressed γ s.exitAlternateGrid := by
  unfold Screen.exitAlternateGrid
  exact ite_renamed Iff.rfl rfl rfl

theorem saveCursor_dressed : (dressed γ s).saveCursor = dressed γ s.saveCursor := by
  unfold Screen.saveCursor
  rw [currentGrid_dressed, saveCursor_relabel, putGrid_dressed]
  rfl

theorem syncBlankAttrs_dressed : (dressed γ s).syncBlankAttrs = dressed γ s.syncBlankAttrs := by
  have herase : (relabelAttrs γ.labels s.attrs).forErase = relabelAttrs γ.labels s.attrs.forErase :=
    (relabelAttrs_forErase γ.labels s.attrs).symm
  unfold Screen.syncBlankAttrs
  simp only [dressed, herase]
  rfl

theorem restoreCursor_dressed :
    (dressed γ s).restoreCursor = s.restoreCursor.map (dressed γ) := by
  unfold Screen.restoreCursor
  refine bind_renamed (withGrid_dressed γ s fun k => restoreCursor_relabel γ.labels k _) fun s => ?_
  exact congrArg some
    (syncBlankAttrs_dressed γ { s with attrs := s.savedAttrs, charsets := s.savedCharsets })

end

/-! ## Drawing -/

section

variable (φ : Relabelling) (k : ℕ) (g : Grid)

theorem drawMark_relabel (c : Char) :
    Screen.drawMark (relabelGrid φ k g) c = (Screen.drawMark g c).map (relabelGrid φ k) := by
  have happend : ∀ pos, (relabelGrid φ k g).modifyCell pos (·.append c) =
      (g.modifyCell pos (·.append c)).map (relabelGrid φ k) := by
    intro pos
    refine modifyCell_relabel φ k g pos fun cell => ?_
    unfold Cell.append
    exact ite_renamed Iff.rfl rfl (ite_renamed Iff.rfl rfl rfl)
  unfold Screen.drawMark
  refine ite_renamed Iff.rfl ?_ (ite_renamed Iff.rfl (ite_renamed ?_ ?_ rfl) rfl)
  · refine bind_renamed (drawingCell_relabel φ k g _) fun prev => ?_
    exact ite_renamed Iff.rfl (bind_same fun col => happend _) (happend _)
  · rw [show (relabelGrid φ k g).rows[(relabelGrid φ k g).pos.row]? =
      g.rows[g.pos.row]?.map (relabelRow φ) from List.getElem?_map, Option.any_map]
    rfl
  · refine bind_same fun last => ?_
    refine bind_renamed (drawingCell_relabel φ k g _) fun prev => ?_
    exact ite_renamed Iff.rfl (bind_same fun col => happend _) (happend _)

theorem tryModifyCell_relabel (pos : Pos) {f f' : Cell → Cell}
    (hf : ∀ c, f' (relabelCell φ c) = relabelCell φ (f c)) :
    Screen.tryModifyCell (relabelGrid φ k g) pos f' =
      (Screen.tryModifyCell g pos f).map (relabelGrid φ k) := by
  unfold Screen.tryModifyCell
  rw [drawingCell_relabel, Option.isSome_map]
  exact ite_renamed Iff.rfl (modifyCell_relabel φ k g pos hf) rfl

theorem drawFirst_relabel (width : Char → Option ℕ) (attrs : Attrs) (c : Char) :
    Screen.drawFirst width (relabelAttrs φ attrs) (relabelGrid φ k g) c =
      (Screen.drawFirst width attrs g c).map (relabelGrid φ k) := by
  unfold Screen.drawFirst
  refine bind_renamed (drawingCell_relabel φ k g g.pos) fun cell => ?_
  refine bind_renamed (φ := relabelGrid φ k) ?_ fun g => ?_
  · refine ite_renamed Iff.rfl (bind_same fun col => ?_) rfl
    exact modifyCell_relabel φ k g _ fun _ => rfl
  refine bind_renamed (drawingCell_relabel φ k g g.pos) fun cell => ?_
  refine bind_renamed (φ := relabelGrid φ k) ?_ fun g => ?_
  · exact ite_renamed Iff.rfl (tryModifyCell_relabel φ k g _ fun _ => rfl) rfl
  exact bind_renamed (modifyCell_relabel φ k g g.pos fun _ => rfl) fun g => rfl

theorem drawSecond_relabel (attrs : Attrs) :
    Screen.drawSecond (relabelAttrs φ attrs) (relabelGrid φ k g) =
      (Screen.drawSecond attrs g).map (relabelGrid φ k) := by
  unfold Screen.drawSecond
  refine bind_renamed (drawingCell_relabel φ k g g.pos) fun cell => ?_
  refine bind_renamed (φ := relabelGrid φ k) ?_ fun g => ?_
  · exact ite_renamed Iff.rfl (tryModifyCell_relabel φ k g _ fun _ => rfl) rfl
  exact bind_renamed (modifyCell_relabel φ k g g.pos fun _ => rfl) fun g => rfl

theorem drawAt_relabel (width : Char → Option ℕ) (attrs : Attrs) (insert : Bool) (c : Char) (w : ℕ) :
    Screen.drawAt width (relabelAttrs φ attrs) insert (relabelGrid φ k g) c w =
      (Screen.drawAt width attrs insert g c w).map (relabelGrid φ k) := by
  unfold Screen.drawAt
  refine bind_renamed (φ := relabelGrid φ k) ?_ fun g => ?_
  · exact ite_renamed Iff.rfl (insertCells_relabel φ k g w) rfl
  refine ite_renamed Iff.rfl (drawMark_relabel φ k g c) ?_
  refine bind_renamed (drawFirst_relabel φ k g width attrs c) fun g => ?_
  exact ite_renamed Iff.rfl (drawSecond_relabel φ k g attrs) rfl

theorem blankLast_relabel (attrs : Attrs) (w : ℕ) :
    Screen.blankLast (relabelAttrs φ attrs) (relabelGrid φ k g) w =
      (Screen.blankLast attrs g w).map (relabelGrid φ k) := by
  unfold Screen.blankLast
  refine ite_renamed Iff.rfl (bind_same fun last => ite_renamed ?_ ?_ rfl) rfl
  · rw [show (relabelGrid φ k g).rows.length = g.rows.length from List.length_map _]
    rfl
  · refine modifyCurrentRow_relabel φ k g fun row => ?_
    have hattrs : relabelAttrs φ { attrs with hyperlink := 0 } = { attrs with hyperlink := 0 } :=
      relabelAttrs_of_unlinked φ rfl
    have herase := erase_relabel φ row last { attrs with hyperlink := 0 }
    rw [hattrs] at herase
    exact herase

theorem drawWrap_relabel (attrs : Attrs) (noAutowrap : Bool) (w : ℕ) :
    Screen.drawWrap (relabelAttrs φ attrs) noAutowrap (relabelGrid φ k g) w =
      (Screen.drawWrap attrs noAutowrap g w).map (Prod.map (relabelGrid φ k) id) := by
  unfold Screen.drawWrap
  refine ite_renamed Iff.rfl ?_ ?_
  · refine bind_same fun last => ite_renamed Iff.rfl (bind_same fun lastCol => ?_) rfl
    exact bind_renamed (colSet_relabel φ k g lastCol) fun g => rfl
  · refine bind_renamed (blankLast_relabel φ k g attrs w) fun g => ?_
    exact bind_renamed (colWrap_relabel φ k g w) fun g => rfl

end

section

variable (γ : Guise) (width : Char → Option ℕ) (s : Screen)

theorem draw_dressed (c : Char) : (dressed γ s).draw width c = (s.draw width c).map (dressed γ) := by
  unfold Screen.draw
  refine ite_renamed Iff.rfl rfl (ite_renamed Iff.rfl rfl ?_)
  simp only [currentGrid_dressed]
  refine ite_renamed Iff.rfl rfl (ite_renamed ?_ ?_ ?_)
  · rw [drawingCell_relabel, Option.any_map]
    rfl
  · refine withGrid_dressed γ s fun k => ?_
    exact bind_renamed (modifyCell_relabel γ.labels k s.currentGrid _ fun _ => rfl) fun g => rfl
  · refine withGrid_dressed γ s fun k => ?_
    refine bind_renamed (drawWrap_relabel γ.labels k s.currentGrid s.attrs _ _) fun r => ?_
    exact ite_renamed Iff.rfl (drawAt_relabel γ.labels k r.1 width s.attrs _ c _) rfl

theorem rep_dressed (count : ℕ) :
    (dressed γ s).rep width count = (s.rep width count).map (dressed γ) := by
  unfold Screen.rep
  refine ite_renamed Iff.rfl ?_ rfl
  rw [currentGrid_dressed]
  refine bind_renamed (φ := dressed γ) ?_ fun s => rfl
  refine repeatM_renamed (fun s => ?_) _ s
  refine bind_renamed (draw_dressed γ width s _) fun s => ?_
  exact foldlM_renamed (fun s c => draw_dressed γ width s c) _ s

/-- What `text` remembers of the character it has drawn. -/
def noteDrawn (c : Char) (s : Screen) : Screen :=
  match charWidth width c with
  | none => s
  | some 0 => if s.lastClusterLive then { s with lastMarks := s.lastMarks ++ [c] } else s
  | some _ => { s with lastBase := c, lastMarks := [], lastClusterLive := true }

theorem text_eq (c : Char) : s.text width c =
    ({ s with charsets.singleShift := none }.draw width (mappedChar s c)).map
      (noteDrawn width (mappedChar s c)) := by
  have hnote : ∀ t : Screen, (match charWidth width (mappedChar s c) with
      | none => some t
      | some 0 => some (if t.lastClusterLive then
          { t with lastMarks := t.lastMarks ++ [mappedChar s c] } else t)
      | some _ => some { t with
          lastBase := mappedChar s c, lastMarks := [], lastClusterLive := true }) =
      some (noteDrawn width (mappedChar s c) t) := by
    intro t
    unfold noteDrawn
    match charWidth width (mappedChar s c) with
    | none => rfl
    | some 0 => rfl
    | some (w + 1) => rfl
  rw [Option.map_eq_bind]
  exact congrArg (Option.bind _) (funext hnote)

theorem noteDrawn_dressed (c : Char) :
    noteDrawn width c (dressed γ s) = dressed γ (noteDrawn width c s) := by
  unfold noteDrawn
  generalize charWidth width c = w
  match w with
  | none => rfl
  | some 0 => exact ite_renamed (ψ := dressed γ) Iff.rfl rfl rfl
  | some (w + 1) => rfl

theorem text_dressed (c : Char) :
    (dressed γ s).text width c = (s.text width c).map (dressed γ) := by
  rw [text_eq, text_eq]
  refine map_renamed ?_ fun t => noteDrawn_dressed γ width t (mappedChar s c)
  exact draw_dressed γ width { s with charsets.singleShift := none } _

end

/-! ## Controls -/

section

variable (γ : Guise) (s : Screen)

theorem cr_dressed : (dressed γ s).cr = s.cr.map (dressed γ) :=
  withGrid_dressed γ s fun k => colSet_relabel γ.labels k _ 0

theorem bs_dressed : (dressed γ s).bs = s.bs.map (dressed γ) :=
  withGrid_dressed γ s fun k => colDecRestricted_relabel γ.labels k _ 1

theorem cht_dressed (count : ℕ) : (dressed γ s).cht count = (s.cht count).map (dressed γ) :=
  withGrid_dressed γ s fun k => colForwardTab_relabel γ.labels k _ count

theorem tab_dressed : (dressed γ s).tab = s.tab.map (dressed γ) := cht_dressed γ s 1

theorem lf_dressed : (dressed γ s).lf = s.lf.map (dressed γ) := by
  unfold Screen.lf
  refine bind_renamed (φ := dressed γ) ?_ fun s => ?_
  · exact ite_renamed Iff.rfl (cr_dressed γ s) rfl
  · exact withGrid_dressed γ s fun k => lineFeed_relabel γ.labels k _

theorem ind_dressed : (dressed γ s).ind = s.ind.map (dressed γ) := by
  refine withGrid_dressed γ s fun k => ?_
  refine bind_renamed (colClamp_relabel γ.labels k _) fun g => ?_
  exact bind_renamed (rowIncScroll_relabel γ.labels k g 1) fun r => rfl

theorem nel_dressed : (dressed γ s).nel = s.nel.map (dressed γ) :=
  bind_renamed (cr_dressed γ s) fun s => ind_dressed γ s

theorem hts_dressed : (dressed γ s).hts = dressed γ s.hts := by
  unfold Screen.hts
  rw [currentGrid_dressed]
  exact putGrid_dressed γ s s.currentGrid.setTabStop

theorem tbc_dressed (mode : ℕ) :
    (dressed γ s).tbc mode = Prod.map (dressed γ) id (s.tbc mode) := by
  match mode with
  | 0 =>
      show ((dressed γ s).putGrid (dressed γ s).currentGrid.clearTabStop, 0) = _
      rw [currentGrid_dressed]
      exact congrArg (·, 0) (putGrid_dressed γ s s.currentGrid.clearTabStop)
  | 1 => rfl
  | 2 => rfl
  | 3 =>
      show ((dressed γ s).putGrid (dressed γ s).currentGrid.clearAllTabStops, 0) = _
      rw [currentGrid_dressed]
      exact congrArg (·, 0) (putGrid_dressed γ s s.currentGrid.clearAllTabStops)
  | _ + 4 => rfl

theorem cbt_dressed (count : ℕ) : (dressed γ s).cbt count = (s.cbt count).map (dressed γ) :=
  withGrid_dressed γ s fun k => colBackTab_relabel γ.labels k _ count

theorem decaln_dressed (width : Char → Option ℕ) :
    (dressed γ s).decaln width = (s.decaln width).map (dressed γ) :=
  withGrid_dressed γ s fun k => alignTest_relabel γ.labels k _ width

theorem decstr_dressed : (dressed γ s).decstr = s.decstr.map (dressed γ) := by
  have hstart : ∀ modes, { dressed γ s with
        attrs := {}, savedAttrs := {}, charsets := {}, savedCharsets := {}
        lastClusterLive := false, cursorStyle := 0, modes } =
      dressed γ { s with
        attrs := {}, savedAttrs := {}, charsets := {}, savedCharsets := {}
        lastClusterLive := false, cursorStyle := 0, modes } := by
    intro modes
    unfold dressed
    simp only [relabelAttrs_default]
  unfold Screen.decstr
  refine bind_renamed (φ := dressed γ) ?_ fun s => congrArg some (syncBlankAttrs_dressed γ s)
  have hreset := fun s => withGrid_dressed γ s fun k => softReset_relabel γ.labels k _
  rw [← hreset]
  exact congrArg (fun s : Screen => s.withGrid (·.softReset)) (hstart _)

theorem ansiMode_dressed (params : List (List ℕ)) (on : Bool) :
    (dressed γ s).ansiMode params on = Prod.map (dressed γ) id (s.ansiMode params on) := by
  unfold Screen.ansiMode
  show List.foldl _ (Prod.map (dressed γ) id (s, 0)) params = _
  refine List.foldl_hom (Prod.map (dressed γ) id) fun r param => ?_
  split
  · rfl
  · rfl
  · rfl

theorem ri_dressed : (dressed γ s).ri = s.ri.map (dressed γ) :=
  withGrid_dressed γ s fun k => reverseIndex_relabel γ.labels k _

theorem ris_dressed : (dressed γ s).ris = s.ris := rfl

/-- A control that works on the grid with the cursor pulled back to the last column. -/
theorem clamped_dressed {f f' : Grid → Option Grid}
    (hf : ∀ k g, f' (relabelGrid γ.labels k g) = (f g).map (relabelGrid γ.labels k)) :
    ((dressed γ s).withGrid fun g => g.colClamp >>= f') =
      (s.withGrid fun g => g.colClamp >>= f).map (dressed γ) :=
  withGrid_dressed γ s fun k => bind_renamed (colClamp_relabel γ.labels k _) fun g => hf k g

theorem ich_dressed (count : ℕ) : (dressed γ s).ich count = (s.ich count).map (dressed γ) :=
  clamped_dressed γ s fun k g => insertCells_relabel γ.labels k g count

theorem cuu_dressed (offset : ℕ) : (dressed γ s).cuu offset = (s.cuu offset).map (dressed γ) :=
  clamped_dressed γ s fun k g => congrArg some (rowDecClamp_relabel γ.labels k g offset)

theorem cud_dressed (offset : ℕ) : (dressed γ s).cud offset = (s.cud offset).map (dressed γ) :=
  clamped_dressed γ s fun k g => rowIncClamp_relabel γ.labels k g offset

theorem cuf_dressed (offset : ℕ) : (dressed γ s).cuf offset = (s.cuf offset).map (dressed γ) :=
  withGrid_dressed γ s fun k => colIncClamp_relabel γ.labels k _ offset

theorem cub_dressed (offset : ℕ) : (dressed γ s).cub offset = (s.cub offset).map (dressed γ) :=
  withGrid_dressed γ s fun k => colDecRestricted_relabel γ.labels k _ offset

theorem cnl_dressed (offset : ℕ) : (dressed γ s).cnl offset = (s.cnl offset).map (dressed γ) :=
  withGrid_dressed γ s fun k => bind_renamed (colSet_relabel γ.labels k _ 0) fun g =>
    rowIncClamp_relabel γ.labels k g offset

theorem cpl_dressed (offset : ℕ) : (dressed γ s).cpl offset = (s.cpl offset).map (dressed γ) :=
  withGrid_dressed γ s fun k => bind_renamed (colSet_relabel γ.labels k _ 0) fun g =>
    congrArg some (rowDecClamp_relabel γ.labels k g offset)

theorem cha_dressed (col : ℕ) : (dressed γ s).cha col = (s.cha col).map (dressed γ) :=
  bind_same fun col => withGrid_dressed γ s fun k => colSet_relabel γ.labels k _ col

theorem cup_dressed (row col : ℕ) : (dressed γ s).cup row col = (s.cup row col).map (dressed γ) :=
  bind_same fun row => bind_same fun col =>
    withGrid_dressed γ s fun k => setPos_relabel γ.labels k _ ⟨row, col⟩

theorem erasing_dressed (f : Attrs → Grid → Option Grid)
    (hf : ∀ k g, f (relabelAttrs γ.labels s.attrs.forErase) (relabelGrid γ.labels k g) =
      (f s.attrs.forErase g).map (relabelGrid γ.labels k)) :
    (dressed γ s).withGrid (f (dressed γ s).attrs.forErase) =
      (s.withGrid (f s.attrs.forErase)).map (dressed γ) := by
  refine withGrid_dressed γ s fun k => ?_
  rw [show (dressed γ s).attrs.forErase = relabelAttrs γ.labels s.attrs.forErase from
    (relabelAttrs_forErase γ.labels s.attrs).symm]
  exact hf k s.currentGrid

theorem ed_dressed (mode : ℕ) :
    (dressed γ s).ed mode = (s.ed mode).map (Prod.map (dressed γ) id) := by
  match mode with
  | 0 =>
      refine map_renamed (erasing_dressed γ s (fun attrs g => g.eraseAllForward attrs) fun k g => ?_) fun t =>
        rfl
      exact eraseAllForward_relabel γ.labels k g _
  | 1 =>
      refine map_renamed (erasing_dressed γ s (fun attrs g => g.eraseAllBackward attrs) fun k g => ?_) fun t =>
        rfl
      exact eraseAllBackward_relabel γ.labels k g _
  | 2 =>
      have herase := eraseAll_relabel γ.labels (γ.shownFreed s) s.currentGrid s.attrs.forErase
      rw [relabelAttrs_forErase, ← currentGrid_dressed] at herase
      refine congrArg (fun t => some (t, 0)) ?_
      rw [← putGrid_dressed, ← herase]
      rfl
  | _ + 3 => rfl

theorem el_dressed (mode : ℕ) :
    (dressed γ s).el mode = (s.el mode).map (Prod.map (dressed γ) id) := by
  match mode with
  | 0 =>
      refine map_renamed (erasing_dressed γ s (fun attrs g => g.eraseRowForward attrs) fun k g => ?_) fun t =>
        rfl
      exact eraseRowForward_relabel γ.labels k g _
  | 1 =>
      refine map_renamed (erasing_dressed γ s (fun attrs g => g.eraseRowBackward attrs) fun k g => ?_) fun t =>
        rfl
      exact eraseRowBackward_relabel γ.labels k g _
  | 2 =>
      refine map_renamed (erasing_dressed γ s (fun attrs g => g.eraseRow attrs) fun k g => ?_) fun t =>
        rfl
      exact eraseRow_relabel γ.labels k g _
  | _ + 3 => rfl

theorem il_dressed (count : ℕ) : (dressed γ s).il count = (s.il count).map (dressed γ) :=
  withGrid_dressed γ s fun k => insertLines_relabel γ.labels k _ count

theorem dl_dressed (count : ℕ) : (dressed γ s).dl count = (s.dl count).map (dressed γ) :=
  withGrid_dressed γ s fun k => deleteLines_relabel γ.labels k _ count

theorem dch_dressed (count : ℕ) : (dressed γ s).dch count = (s.dch count).map (dressed γ) :=
  clamped_dressed γ s fun k g => deleteCells_relabel γ.labels k g count

theorem su_dressed (count : ℕ) : (dressed γ s).su count = (s.su count).map (dressed γ) :=
  withGrid_dressed γ s fun k => scrollRegionUp_relabel γ.labels k _ count false

theorem sd_dressed (count : ℕ) : (dressed γ s).sd count = (s.sd count).map (dressed γ) :=
  withGrid_dressed γ s fun k => scrollDown_relabel γ.labels k _ count false

theorem ech_dressed (count : ℕ) : (dressed γ s).ech count = (s.ech count).map (dressed γ) :=
  erasing_dressed γ s (fun attrs g => g.colClamp >>= fun g => g.eraseCells count attrs) fun k g =>
    bind_renamed (colClamp_relabel γ.labels k g) fun g =>
      eraseCells_relabel γ.labels k g count s.attrs.forErase

theorem vpa_dressed (row : ℕ) : (dressed γ s).vpa row = (s.vpa row).map (dressed γ) :=
  bind_renamed (withGrid_dressed γ s fun k => colClamp_relabel γ.labels k _) fun s =>
    bind_same fun row => withGrid_dressed γ s fun k => rowSet_relabel γ.labels k _ row

theorem clearMouseMode_dressed (mode : MouseProtocolMode) :
    (dressed γ s).clearMouseMode mode = dressed γ (s.clearMouseMode mode) := by
  unfold Screen.clearMouseMode
  exact ite_renamed Iff.rfl rfl rfl

theorem clearMouseEncoding_dressed (encoding : MouseProtocolEncoding) :
    (dressed γ s).clearMouseEncoding encoding = dressed γ (s.clearMouseEncoding encoding) := by
  unfold Screen.clearMouseEncoding
  exact ite_renamed Iff.rfl rfl rfl

/-! ### Modes -/

theorem handled_dressed {s s' : Screen} (h : s' = dressed γ s) :
    Screen.handled s' = (Screen.handled s).map (Option.map (dressed γ)) :=
  congrArg (fun t => some (some t)) h

theorem handledBy_dressed {m m' : Option Screen} (h : m' = m.map (dressed γ)) :
    m'.map some = (m.map some).map (Option.map (dressed γ)) :=
  map_renamed h fun _ => rfl

theorem clearAndEnter_dressed :
    (do
      let t := (dressed γ s).saveCursor
      let t ← (if t.modes.alternateScreen then some t
        else (t.alternateGrid.clear).map fun g => { t with alternateGrid := g })
      t.enterAlternateGrid.map some) =
    (do
      let t := s.saveCursor
      let t ← (if t.modes.alternateScreen then some t
        else (t.alternateGrid.clear).map fun g => { t with alternateGrid := g })
      t.enterAlternateGrid.map some).map (Option.map (dressed γ)) := by
  rw [saveCursor_dressed]
  generalize s.saveCursor = t
  refine bind_renamed (φ := dressed γ) ?_ fun t =>
    handledBy_dressed γ (enterAlternateGrid_dressed γ t)
  refine ite_renamed Iff.rfl rfl ?_
  exact map_renamed (clearGrid_relabel γ.labels γ.alternateFreed t.alternateGrid) fun g => rfl

theorem decsetOne_dressed (param : List ℕ) :
    (dressed γ s).decsetOne param = (s.decsetOne param).map (Option.map (dressed γ)) := by
  unfold Screen.decsetOne
  split
  case h_3 => exact handledBy_dressed γ (withGrid_dressed γ s fun k => setOriginMode_relabel _ k _ _)
  case h_7 => exact handledBy_dressed γ (enterAlternateGrid_dressed γ s)
  case h_8 => exact handledBy_dressed γ (enterAlternateGrid_dressed γ s)
  case h_9 => exact handled_dressed γ (saveCursor_dressed γ s)
  case h_17 => exact clearAndEnter_dressed γ s
  all_goals rfl

theorem decrstOne_dressed (param : List ℕ) :
    (dressed γ s).decrstOne param = (s.decrstOne param).map (Option.map (dressed γ)) := by
  unfold Screen.decrstOne
  split
  case h_3 => exact handledBy_dressed γ (withGrid_dressed γ s fun k => setOriginMode_relabel _ k _ _)
  case h_5 => exact handled_dressed γ (clearMouseMode_dressed γ s _)
  case h_7 => exact handled_dressed γ (exitAlternateGrid_dressed γ s)
  case h_8 =>
      rw [exitAlternateGrid_dressed]
      refine map_renamed (clearGrid_relabel γ.labels γ.alternateFreed _) fun g => rfl
  case h_9 => exact handledBy_dressed γ (restoreCursor_dressed γ s)
  case h_10 => exact handled_dressed γ (clearMouseMode_dressed γ s _)
  case h_11 => exact handled_dressed γ (clearMouseMode_dressed γ s _)
  case h_12 => exact handled_dressed γ (clearMouseMode_dressed γ s _)
  case h_13 => exact handled_dressed γ (clearMouseEncoding_dressed γ s _)
  case h_14 => exact handled_dressed γ (clearMouseEncoding_dressed γ s _)
  case h_15 => exact handled_dressed γ (clearMouseEncoding_dressed γ s _)
  case h_17 =>
      rw [exitAlternateGrid_dressed]
      exact handledBy_dressed γ (restoreCursor_dressed γ _)
  all_goals rfl

theorem eachParam_dressed {f : Screen → List ℕ → Option (Option Screen)}
    (hf : ∀ s param, f (dressed γ s) param = (f s param).map (Option.map (dressed γ)))
    (params : List (List ℕ)) :
    (dressed γ s).eachParam f params = (s.eachParam f params).map (Prod.map (dressed γ) id) := by
  unfold Screen.eachParam
  refine foldlM_renamed (φ := Prod.map (dressed γ) id) (fun r param => ?_) params (s, 0)
  refine map_renamed (hf r.1 param) fun done => ?_
  cases done with
  | none => rfl
  | some t => rfl

/-! ### SGR and the rest -/

theorem sgrOne_relabel (φ : Relabelling) (a : Attrs) (p : List ℕ) :
    Screen.sgrOne (relabelAttrs φ a) p = (Screen.sgrOne a p).map (relabelAttrs φ) := by
  unfold Screen.sgrOne
  split
  case h_30 =>
      refine ite_renamed Iff.rfl rfl (ite_renamed Iff.rfl rfl ?_)
      exact ite_renamed Iff.rfl rfl (ite_renamed Iff.rfl rfl rfl)
  all_goals rfl

theorem sgrLoop_relabel (φ : Relabelling) (fuel : ℕ) (a : Attrs) (params : List (List ℕ)) :
    Screen.sgrLoop fuel (relabelAttrs φ a) params =
      Prod.map (relabelAttrs φ) id (Screen.sgrLoop fuel a params) := by
  induction fuel generalizing a params with
  | zero => rfl
  | succ fuel ih =>
      cases params with
      | nil => rfl
      | cons p rest =>
          unfold Screen.sgrLoop
          dsimp only
          split
          case h_4 =>
              rw [sgrOne_relabel]
              cases Screen.sgrOne a p with
              | none =>
                  show Prod.mk _ _ = _
                  rw [ih]
                  rfl
              | some a => exact ih a rest
          case h_1 =>
              cases Screen.extendedColor _ rest with
              | none => rfl
              | some r => exact ih { a with fgcolor := r.1 } r.2
          case h_2 =>
              cases Screen.extendedColor _ rest with
              | none => rfl
              | some r => exact ih { a with bgcolor := r.1 } r.2
          case h_3 =>
              cases Screen.extendedColor _ rest with
              | none => rfl
              | some r => exact ih { a with ulcolor := r.1 } r.2

theorem sgr_dressed (params : List (List ℕ)) :
    (dressed γ s).sgr params = Prod.map (dressed γ) id (s.sgr params) := by
  have hloop : (if params.isEmpty then ((relabelAttrs γ.labels s.attrs).sgrReset, 0)
        else Screen.sgrLoop params.length (relabelAttrs γ.labels s.attrs) params) =
      Prod.map (relabelAttrs γ.labels) id (if params.isEmpty then (s.attrs.sgrReset, 0)
        else Screen.sgrLoop params.length s.attrs params) :=
    ite_renamed Iff.rfl rfl (sgrLoop_relabel γ.labels _ s.attrs params)
  unfold Screen.sgr
  rw [show (dressed γ s).attrs = relabelAttrs γ.labels s.attrs from rfl, hloop]
  generalize (if params.isEmpty then (s.attrs.sgrReset, 0)
    else Screen.sgrLoop params.length s.attrs params) = r
  exact congrArg (·, r.2) (syncBlankAttrs_dressed γ { s with attrs := r.1 })

theorem decscusr_dressed (style : ℕ) :
    (dressed γ s).decscusr style = dressed γ (s.decscusr style) := by
  unfold Screen.decscusr
  exact ite_renamed Iff.rfl rfl rfl

theorem decstbm_dressed (top bottom : ℕ) :
    (dressed γ s).decstbm top bottom = (s.decstbm top bottom).map (dressed γ) :=
  bind_same fun top => bind_same fun bottom =>
    withGrid_dressed γ s fun k => setScrollRegion_relabel γ.labels k _ top bottom

theorem scs_dressed (slot finalByte : UInt8) :
    (dressed γ s).scs slot finalByte = dressed γ (s.scs slot finalByte) := by
  unfold Screen.scs
  dsimp only
  generalize (if slot = 0x28 then some 0 else if slot = 0x29 then some 1
    else if slot = 0x2a then some 2 else if slot = 0x2b then some 3 else none :
      Option (Fin 4)) = g
  cases g with
  | none => rfl
  | some i => rfl

/-! ## Dispatch -/

/-- A control that makes no call. -/
theorem quiet_dressed {m m' : Option Screen} (h : m' = m.map (dressed γ)) :
    Screen.quiet m' = (Screen.quiet m).map (Prod.map (dressed γ) id) :=
  map_renamed h fun _ => rfl

theorem calling_dressed (callback : Callback) (r : Screen × ℕ) :
    Screen.calling callback (Prod.map (dressed γ) id r) =
      Prod.map (dressed γ) id (Screen.calling callback r) := rfl

/-- A control that may call `unhandled`. -/
theorem mapCalling_dressed (callback : Callback) {m m' : Option (Screen × ℕ)}
    (h : m' = m.map (Prod.map (dressed γ) id)) :
    m'.map (Screen.calling callback) =
      (m.map (Screen.calling callback)).map (Prod.map (dressed γ) id) :=
  map_renamed h fun r => calling_dressed γ callback r

theorem someCalling_dressed (callback : Callback) {r r' : Screen × ℕ}
    (h : r' = Prod.map (dressed γ) id r) :
    some (Screen.calling callback r') =
      (some (Screen.calling callback r)).map (Prod.map (dressed γ) id) :=
  congrArg (fun r => some (Screen.calling callback r)) h

theorem some_dressed {s s' : Screen} (h : s' = dressed γ s) (calls : List Callback) :
    some (s', calls) = (some (s, calls)).map (Prod.map (dressed γ) id) :=
  congrArg (fun t => some (t, calls)) h

theorem print_dressed (width : Char → Option ℕ) (c : Char) :
    (dressed γ s).print width c = (s.print width c).map (Prod.map (dressed γ) id) := by
  unfold Screen.print
  exact ite_renamed Iff.rfl rfl (quiet_dressed γ (text_dressed γ width s c))

theorem breakRep_dressed : (dressed γ s).breakRep = dressed γ s.breakRep := rfl

theorem execute_dressed (b : UInt8) :
    (dressed γ s).execute b = (s.execute b).map (Prod.map (dressed γ) id) := by
  have hbreak : (if b = 14 ∨ b = 15 then dressed γ s else (dressed γ s).breakRep) =
      dressed γ (if b = 14 ∨ b = 15 then s else s.breakRep) := ite_renamed Iff.rfl rfl rfl
  unfold Screen.execute
  simp only [hbreak]
  generalize (if b = 14 ∨ b = 15 then s else s.breakRep) = t
  split
  · rfl
  · exact quiet_dressed γ (bs_dressed γ t)
  · exact quiet_dressed γ (tab_dressed γ t)
  · exact quiet_dressed γ (lf_dressed γ t)
  · exact quiet_dressed γ (lf_dressed γ t)
  · exact quiet_dressed γ (lf_dressed γ t)
  · exact quiet_dressed γ (cr_dressed γ t)
  · rfl
  · rfl
  · rfl

/-- The full reset, which makes the screen anew. -/
def IsReset : Vt.Action → Prop
  | .escDispatch [] b => Char.ofNat b.toNat = 'c'
  | _ => False

/-- An OSC 8. -/
def IsLink : Vt.Action → Prop
  | .oscDispatch params _ => params.head? = some [0x38]
  | _ => False

theorem escFinal_dressed {b : UInt8} (hb : Char.ofNat b.toNat ≠ 'c') :
    (dressed γ s).escFinal b = (s.escFinal b).map (Prod.map (dressed γ) id) := by
  unfold Screen.escFinal
  split
  case h_1 => exact quiet_dressed γ (ind_dressed γ s)
  case h_2 => exact quiet_dressed γ (nel_dressed γ s)
  case h_3 => exact some_dressed γ (hts_dressed γ s) []
  case h_8 => exact some_dressed γ (saveCursor_dressed γ s) []
  case h_9 => exact quiet_dressed γ (restoreCursor_dressed γ s)
  case h_12 => exact quiet_dressed γ (ri_dressed γ s)
  case h_13 hc => exact absurd hc hb
  all_goals rfl

theorem escDispatch_dressed (width : Char → Option ℕ) (intermediates : List UInt8) {b : UInt8}
    (hb : intermediates = [] → Char.ofNat b.toNat ≠ 'c') :
    (dressed γ s).escDispatch width intermediates b =
      (s.escDispatch width intermediates b).map (Prod.map (dressed γ) id) := by
  unfold Screen.escDispatch
  match intermediates with
  | [] => exact escFinal_dressed γ s.breakRep (hb rfl)
  | [i] =>
      refine ite_renamed Iff.rfl (some_dressed γ (scs_dressed γ s.breakRep i b) []) ?_
      exact ite_renamed Iff.rfl (quiet_dressed γ (decaln_dressed γ s.breakRep width)) rfl
  | i :: j :: _ => rfl

theorem csiFinal_dressed (width : Char → Option ℕ) (params : List (List ℕ)) (c : Char) :
    (dressed γ s).csiFinal width params c =
      (s.csiFinal width params c).map (Prod.map (dressed γ) id) := by
  unfold Screen.csiFinal
  dsimp only
  split
  · exact quiet_dressed γ (ich_dressed γ s _)
  · exact quiet_dressed γ (cuu_dressed γ s _)
  · exact quiet_dressed γ (cud_dressed γ s _)
  · exact quiet_dressed γ (cuf_dressed γ s _)
  · exact quiet_dressed γ (cub_dressed γ s _)
  · exact quiet_dressed γ (cnl_dressed γ s _)
  · exact quiet_dressed γ (cpl_dressed γ s _)
  · exact quiet_dressed γ (cha_dressed γ s _)
  · exact quiet_dressed γ (cup_dressed γ s _ _)
  · exact mapCalling_dressed γ _ (ed_dressed γ s _)
  · exact mapCalling_dressed γ _ (el_dressed γ s _)
  · exact quiet_dressed γ (il_dressed γ s _)
  · exact quiet_dressed γ (dl_dressed γ s _)
  · exact quiet_dressed γ (dch_dressed γ s _)
  · exact quiet_dressed γ (su_dressed γ s _)
  · exact quiet_dressed γ (sd_dressed γ s _)
  · exact quiet_dressed γ (ech_dressed γ s _)
  · exact quiet_dressed γ (rep_dressed γ width s _)
  · exact quiet_dressed γ (cha_dressed γ s _)
  · exact quiet_dressed γ (cuf_dressed γ s _)
  · exact quiet_dressed γ (cud_dressed γ s _)
  · exact quiet_dressed γ (cup_dressed γ s _ _)
  · exact quiet_dressed γ (cht_dressed γ s _)
  · exact quiet_dressed γ (cbt_dressed γ s _)
  · exact someCalling_dressed γ _ (tbc_dressed γ s _)
  · exact someCalling_dressed γ _ (ansiMode_dressed γ s _ _)
  · exact someCalling_dressed γ _ (ansiMode_dressed γ s _ _)
  · exact some_dressed γ (saveCursor_dressed γ s) []
  · exact quiet_dressed γ (restoreCursor_dressed γ s)
  · exact quiet_dressed γ (vpa_dressed γ s _)
  · exact someCalling_dressed γ _ (sgr_dressed γ s _)
  · rw [currentGrid_dressed]
    exact quiet_dressed γ (decstbm_dressed γ s _ _)
  · rw [currentGrid_dressed]
    exact ite_renamed Iff.rfl rfl rfl
  · rfl

theorem csiPrivate_dressed (params : List (List ℕ)) (i2 : Option UInt8) (c : Char) :
    (dressed γ s).csiPrivate params i2 c =
      (s.csiPrivate params i2 c).map (Prod.map (dressed γ) id) := by
  unfold Screen.csiPrivate
  dsimp only
  split
  · exact mapCalling_dressed γ _ (ed_dressed γ s _)
  · exact mapCalling_dressed γ _ (el_dressed γ s _)
  · exact mapCalling_dressed γ _ (eachParam_dressed γ s (fun s => decsetOne_dressed γ s) params)
  · exact mapCalling_dressed γ _ (eachParam_dressed γ s (fun s => decrstOne_dressed γ s) params)
  · rfl

theorem csiDispatch_dressed (width : Char → Option ℕ) (params : List (List ℕ))
    (intermediates : List UInt8) (c : Char) :
    (dressed γ s).csiDispatch width params intermediates c =
      (s.csiDispatch width params intermediates c).map (Prod.map (dressed γ) id) := by
  have hbreak : (if c = 'b' then dressed γ s else (dressed γ s).breakRep) =
      dressed γ (if c = 'b' then s else s.breakRep) := ite_renamed Iff.rfl rfl rfl
  unfold Screen.csiDispatch
  simp only [hbreak]
  generalize (if c = 'b' then s else s.breakRep) = t
  cases intermediates with
  | nil => exact csiFinal_dressed γ t width params c
  | cons i rest =>
      refine ite_renamed Iff.rfl (csiPrivate_dressed γ t params _ c) ?_
      refine ite_renamed Iff.rfl (quiet_dressed γ (decstr_dressed γ t)) ?_
      exact ite_renamed Iff.rfl (some_dressed γ (decscusr_dressed γ t _) []) rfl

theorem oscDispatch_dressed {params : List (List UInt8)} (bel : Bool)
    (hlink : ¬ IsLink (.oscDispatch params bel)) :
    (dressed γ s).oscDispatch params bel =
      (s.oscDispatch params bel).map (Prod.map (dressed γ) id) := by
  unfold Screen.oscDispatch
  cases params with
  | nil => rfl
  | cons first rest =>
      replace hlink : first ≠ [0x38] := fun hfirst => hlink (congrArg some hfirst)
      refine ite_renamed Iff.rfl rfl (ite_renamed Iff.rfl rfl (ite_renamed Iff.rfl rfl ?_))
      rw [if_neg hlink, if_neg hlink]
      refine ite_renamed Iff.rfl ?_ rfl
      match rest with
      | [] => rfl
      | [_] => rfl
      | [ty, data] => rfl
      | _ :: _ :: _ :: _ => rfl

/-- Whatever is not an OSC 8 or the full reset is blind to the guise of the screen. -/
theorem perform_dressed (width : Char → Option ℕ) {a : Vt.Action} (hlink : ¬ IsLink a)
    (hreset : ¬ IsReset a) :
    (dressed γ s).perform width a = (s.perform width a).map (Prod.map (dressed γ) id) := by
  cases a with
  | print c => exact print_dressed γ s width c
  | execute b => exact execute_dressed γ s b
  | escDispatch intermediates b =>
      refine escDispatch_dressed γ s width intermediates ?_
      rintro rfl
      exact hreset
  | csiDispatch params intermediates c => exact csiDispatch_dressed γ s width params intermediates c
  | oscDispatch params bel => exact oscDispatch_dressed γ s bel hlink
  | hook => rfl
  | put b => rfl
  | unhook => rfl

end

end Tymux.Analysis.Vt
