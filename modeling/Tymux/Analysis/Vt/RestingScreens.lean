import Tymux.Analysis.Vt.RestingGrids
import Tymux.Analysis.Vt.Hyperlinks

/-!
# Screens and the padding of their scrollback

What is done with an action of the tokenizer respects `restScreen`: neither the screen that results,
with its scrollback padded and its view at the bottom, nor the calls that are made depend on how the
scrollback is padded or where the view is. The collection of unused hyperlinks reads the scrollback
too, and the cells of the padding have none.
-/

set_option autoImplicit false

namespace Tymux.Analysis.Vt

open Tymux.Lib Tymux.Model Tymux.Model.Vt

/-! ## The grid that is shown -/

section

variable (s : Screen)

/-- A result beside the screen. -/
def restPair {β : Type} (r : Screen × β) : Screen × β := (restScreen r.1, r.2)

theorem restPair_idem {β : Type} (r : Screen × β) : restPair (restPair r) = restPair r :=
  congrArg (·, r.2) (restScreen_idem r.1)

theorem withGrid_respects {f f' : Grid → Option Grid}
    (hf : (f' (restGrid s.currentGrid)).map restGrid = (f s.currentGrid).map restGrid) :
    ((restScreen s).withGrid f').map restScreen = (s.withGrid f).map restScreen := by
  unfold Screen.withGrid
  rw [currentGrid_rest]
  cases hg : f s.currentGrid with
  | none =>
      rw [hg, Option.map_none, Option.map_eq_none_iff] at hf
      rw [hf]
      rfl
  | some g =>
      rw [hg, Option.map_some, Option.map_eq_some_iff] at hf
      obtain ⟨g', hg', hrest⟩ := hf
      rw [hg']
      exact congrArg some (restScreen_putGrid (restScreen_idem s) hrest)

theorem withGrid_commutes {f f' : Grid → Option Grid}
    (hf : f' (restGrid s.currentGrid) = (f s.currentGrid).map restGrid) :
    ((restScreen s).withGrid f').map restScreen = (s.withGrid f).map restScreen :=
  withGrid_respects s (map_of_commutes restGrid_idem hf)

theorem restScreen_putGrid_rest {g g' : Grid} (h : g' = restGrid g) :
    restScreen ((restScreen s).putGrid g') = restScreen (s.putGrid g) := by
  rw [h, putGrid_rest, restScreen_idem]

theorem setScrollbackScreen_respects (rows : ℕ) :
    Respects restScreen restScreen fun s => s.setScrollback rows := fun s =>
  withGrid_respects s (setScrollback_respects rows s.currentGrid)

theorem enterAlternateGrid_respects : Respects restScreen restScreen Screen.enterAlternateGrid := by
  intro s
  unfold Screen.enterAlternateGrid
  refine ite_respects Iff.rfl (congrArg some (restScreen_idem s)) ?_
  refine bind_respects (setScrollbackScreen_respects 0 s) fun s => ?_
  have halloc := congrArg (fun g : Grid => some (restScreen { restScreen s with
    modes := { s.modes with alternateScreen := true }
    alternateGrid := { g with pos := s.grid.pos } })) (allocateRows_rest s.alternateGrid)
  exact halloc.trans (congrArg some (restScreen_idem { s with
    modes := { s.modes with alternateScreen := true }
    alternateGrid := { s.alternateGrid.allocateRows with pos := s.grid.pos } }))

theorem exitAlternateGrid_rest : (restScreen s).exitAlternateGrid = restScreen s.exitAlternateGrid := by
  unfold Screen.exitAlternateGrid
  exact ite_renamed Iff.rfl rfl rfl

theorem saveCursor_restScreen : (restScreen s).saveCursor = restScreen s.saveCursor := by
  unfold Screen.saveCursor
  rw [currentGrid_rest, saveCursor_rest, putGrid_rest]
  rfl

theorem syncBlankAttrs_rest : (restScreen s).syncBlankAttrs = restScreen s.syncBlankAttrs := rfl

theorem restoreCursor_respects : Respects restScreen restScreen Screen.restoreCursor := by
  intro s
  unfold Screen.restoreCursor
  refine bind_respects (withGrid_commutes s (restoreCursor_rest _)) fun s => ?_
  exact congrArg some (restScreen_idem
    (Screen.syncBlankAttrs { s with attrs := s.savedAttrs, charsets := s.savedCharsets }))

end

/-! ## Drawing -/

section

variable (g : Grid)

theorem drawMark_rest (c : Char) :
    Screen.drawMark (restGrid g) c = (Screen.drawMark g c).map restGrid := by
  unfold Screen.drawMark
  refine ite_renamed Iff.rfl (bind_same fun prev => ?_) (ite_renamed Iff.rfl ?_ rfl)
  · exact ite_renamed Iff.rfl (bind_same fun col => modifyCell_rest g _ _) (modifyCell_rest g _ _)
  · refine ite_renamed Iff.rfl (bind_same fun last => bind_same fun prev => ?_) rfl
    exact ite_renamed Iff.rfl (bind_same fun col => modifyCell_rest g _ _) (modifyCell_rest g _ _)

theorem drawFirst_rest (width : Char → Option ℕ) (attrs : Attrs) (c : Char) :
    Screen.drawFirst width attrs (restGrid g) c =
      (Screen.drawFirst width attrs g c).map restGrid := by
  unfold Screen.drawFirst
  refine bind_same fun cell => bind_renamed (φ := restGrid) ?_ fun g => bind_same fun cell => ?_
  · exact ite_renamed Iff.rfl (bind_same fun col => modifyCell_rest g _ _) rfl
  refine bind_renamed (φ := restGrid) ?_ fun g => ?_
  · exact ite_renamed Iff.rfl (tryModifyCell_rest g _ _) rfl
  exact bind_renamed (modifyCell_rest g _ _) fun g => rfl

theorem drawSecond_rest (attrs : Attrs) :
    Screen.drawSecond attrs (restGrid g) = (Screen.drawSecond attrs g).map restGrid := by
  unfold Screen.drawSecond
  refine bind_same fun cell => bind_renamed (φ := restGrid) ?_ fun g => ?_
  · exact ite_renamed Iff.rfl (tryModifyCell_rest g _ _) rfl
  exact bind_renamed (modifyCell_rest g _ _) fun g => rfl

theorem drawAt_rest (width : Char → Option ℕ) (attrs : Attrs) (insert : Bool) (c : Char) (w : ℕ) :
    Screen.drawAt width attrs insert (restGrid g) c w =
      (Screen.drawAt width attrs insert g c w).map restGrid := by
  unfold Screen.drawAt
  refine bind_renamed (φ := restGrid) (ite_renamed Iff.rfl (insertCells_rest g w) rfl) fun g => ?_
  refine ite_renamed Iff.rfl (drawMark_rest g c) ?_
  refine bind_renamed (drawFirst_rest g width attrs c) fun g => ?_
  exact ite_renamed Iff.rfl (drawSecond_rest g attrs) rfl

theorem blankLast_rest (attrs : Attrs) (w : ℕ) :
    Screen.blankLast attrs (restGrid g) w = (Screen.blankLast attrs g w).map restGrid := by
  unfold Screen.blankLast
  refine ite_renamed Iff.rfl (bind_same fun last => ?_) rfl
  exact ite_renamed Iff.rfl (modifyCurrentRow_rest g _) rfl

theorem drawWrap_respects (attrs : Attrs) (noAutowrap : Bool) (w : ℕ) :
    Respects restGrid (Prod.map restGrid id) fun g => Screen.drawWrap attrs noAutowrap g w := by
  intro g
  unfold Screen.drawWrap
  refine ite_respects Iff.rfl (bind_same_respects fun last => ite_respects Iff.rfl ?_ ?_) ?_
  · refine bind_same_respects fun lastCol => ?_
    exact bind_respects (map_of_commutes restGrid_idem (colSet_rest g lastCol)) fun g =>
      congrArg (fun g => some (g, _)) (restGrid_idem g)
  · exact congrArg (fun g => some (g, true)) (restGrid_idem g)
  · refine bind_respects (map_of_commutes restGrid_idem (blankLast_rest g attrs w)) fun g => ?_
    exact bind_respects (colWrap_respects w g) fun g =>
      congrArg (fun g => some (g, true)) (restGrid_idem g)

end

section

variable (width : Char → Option ℕ)

theorem draw_respects (c : Char) : Respects restScreen restScreen fun s => s.draw width c := by
  intro s
  have hself := congrArg some (restScreen_idem s)
  unfold Screen.draw
  refine ite_respects Iff.rfl hself (ite_respects Iff.rfl hself ?_)
  simp only [currentGrid_rest]
  refine ite_respects Iff.rfl hself (ite_respects Iff.rfl ?_ ?_)
  · exact withGrid_commutes s (bind_renamed (modifyCell_rest s.currentGrid _ _) fun g => rfl)
  · refine withGrid_respects s (bind_respects (drawWrap_respects s.attrs _ _ s.currentGrid) fun r => ?_)
    refine ite_respects Iff.rfl ?_ (congrArg some (restGrid_idem r.1))
    exact map_of_commutes restGrid_idem (drawAt_rest r.1 width s.attrs _ c _)

theorem rep_respects (count : ℕ) : Respects restScreen restScreen fun s => s.rep width count := by
  intro s
  unfold Screen.rep
  refine ite_respects Iff.rfl ?_ (congrArg some (restScreen_idem s))
  rw [currentGrid_rest]
  refine bind_respects (φ := restScreen) ?_ fun s =>
    congrArg some (restScreen_idem { s with lastClusterLive := false })
  refine repeatM_respects restScreen_idem (fun s => ?_) _ s
  refine bind_respects (draw_respects width _ s) fun s => ?_
  exact foldlM_respects restScreen_idem (fun c => draw_respects width c) _ s

theorem noteDrawn_rest (s : Screen) (c : Char) :
    noteDrawn width c (restScreen s) = restScreen (noteDrawn width c s) := by
  unfold noteDrawn
  generalize charWidth width c = w
  match w with
  | none => rfl
  | some 0 => exact ite_renamed (ψ := restScreen) Iff.rfl rfl rfl
  | some (w + 1) => rfl

theorem text_respects (c : Char) : Respects restScreen restScreen fun s => s.text width c := by
  intro s
  dsimp only
  rw [text_eq, text_eq]
  refine map_respects (draw_respects width _ { s with charsets.singleShift := none }) fun t => ?_
  exact (congrArg restScreen (noteDrawn_rest width t _)).trans (restScreen_idem _)

end

/-! ## Controls -/

section

variable (s : Screen)

/-- A control of the source that moves or changes the grid in view. -/
theorem grid_respects {f : Grid → Option Grid} (hf : ∀ g, f (restGrid g) = (f g).map restGrid) :
    Respects restScreen restScreen fun s => s.withGrid f := fun s =>
  withGrid_commutes s (hf s.currentGrid)

theorem some_respects {s s' : Screen} (h : s' = restScreen s) :
    (some s').map restScreen = (some s).map restScreen := by
  rw [h]
  exact congrArg some (restScreen_idem s)

theorem cr_respects : Respects restScreen restScreen Screen.cr :=
  grid_respects fun g => colSet_rest g 0

theorem bs_respects : Respects restScreen restScreen Screen.bs :=
  grid_respects fun g => colDecRestricted_rest g 1

theorem cht_respects (count : ℕ) : Respects restScreen restScreen fun s => s.cht count :=
  grid_respects fun g => colForwardTab_rest g count

theorem tab_respects : Respects restScreen restScreen Screen.tab := cht_respects 1

theorem lf_respects : Respects restScreen restScreen Screen.lf := by
  intro s
  unfold Screen.lf
  refine bind_respects (φ := restScreen) ?_ fun s => withGrid_respects s (lineFeed_respects _)
  exact ite_respects Iff.rfl (cr_respects s) (congrArg some (restScreen_idem s))

theorem ind_respects : Respects restScreen restScreen Screen.ind := by
  intro s
  refine withGrid_respects s ?_
  refine bind_respects (map_of_commutes restGrid_idem (colClamp_rest _)) fun g => ?_
  exact bind_respects (rowIncScroll_respects 1 g) fun r => congrArg some (restGrid_idem r.1)

theorem nel_respects : Respects restScreen restScreen Screen.nel := fun s =>
  bind_respects (cr_respects s) ind_respects

theorem hts_rest : (restScreen s).hts = restScreen s.hts := by
  unfold Screen.hts
  rw [currentGrid_rest]
  exact putGrid_rest s s.currentGrid.setTabStop

theorem tbc_rest (mode : ℕ) : (restScreen s).tbc mode = restPair (s.tbc mode) := by
  match mode with
  | 0 =>
      show ((restScreen s).putGrid (restScreen s).currentGrid.clearTabStop, 0) = _
      rw [currentGrid_rest]
      exact congrArg (·, 0) (putGrid_rest s s.currentGrid.clearTabStop)
  | 1 => rfl
  | 2 => rfl
  | 3 =>
      show ((restScreen s).putGrid (restScreen s).currentGrid.clearAllTabStops, 0) = _
      rw [currentGrid_rest]
      exact congrArg (·, 0) (putGrid_rest s s.currentGrid.clearAllTabStops)
  | _ + 4 => rfl

theorem cbt_respects (count : ℕ) : Respects restScreen restScreen fun s => s.cbt count :=
  grid_respects fun g => colBackTab_rest g count

theorem decaln_respects (width : Char → Option ℕ) :
    Respects restScreen restScreen fun s => s.decaln width :=
  grid_respects fun g => alignTest_rest g width

theorem decstr_respects : Respects restScreen restScreen Screen.decstr := by
  intro s
  unfold Screen.decstr
  refine bind_respects (φ := restScreen) ?_ fun s => some_respects (syncBlankAttrs_rest s)
  exact grid_respects softReset_rest { s with
    attrs := {}, savedAttrs := {}, charsets := {}, savedCharsets := {}
    lastClusterLive := false, cursorStyle := 0, modes := { s.modes with
      insert := false, newline := false, noAutowrap := false, applicationCursor := false
      applicationKeypad := false, hideCursor := false } }

theorem ansiMode_rest (params : List (List ℕ)) (on : Bool) :
    (restScreen s).ansiMode params on = restPair (s.ansiMode params on) := by
  unfold Screen.ansiMode
  show List.foldl _ (restPair (s, 0)) params = _
  refine List.foldl_hom restPair fun r param => ?_
  split
  · rfl
  · rfl
  · rfl

theorem ri_respects : Respects restScreen restScreen Screen.ri := grid_respects reverseIndex_rest

theorem ris_rest : (restScreen s).ris = s.ris := rfl

/-- A control that works on the grid with the cursor pulled back to the last column. -/
theorem clamped_respects {f : Grid → Option Grid} (hf : ∀ g, f (restGrid g) = (f g).map restGrid) :
    Respects restScreen restScreen fun s => s.withGrid fun g => g.colClamp >>= f :=
  grid_respects fun g => bind_renamed (colClamp_rest g) hf

theorem ich_respects (count : ℕ) : Respects restScreen restScreen fun s => s.ich count :=
  clamped_respects fun g => insertCells_rest g count

theorem cuu_respects (offset : ℕ) : Respects restScreen restScreen fun s => s.cuu offset :=
  clamped_respects fun g => congrArg some (rowDecClamp_rest g offset)

theorem cud_respects (offset : ℕ) : Respects restScreen restScreen fun s => s.cud offset :=
  clamped_respects fun g => rowIncClamp_rest g offset

theorem cuf_respects (offset : ℕ) : Respects restScreen restScreen fun s => s.cuf offset :=
  grid_respects fun g => colIncClamp_rest g offset

theorem cub_respects (offset : ℕ) : Respects restScreen restScreen fun s => s.cub offset :=
  grid_respects fun g => colDecRestricted_rest g offset

theorem cnl_respects (offset : ℕ) : Respects restScreen restScreen fun s => s.cnl offset :=
  grid_respects fun g => bind_renamed (colSet_rest g 0) fun g => rowIncClamp_rest g offset

theorem cpl_respects (offset : ℕ) : Respects restScreen restScreen fun s => s.cpl offset :=
  grid_respects fun g => bind_renamed (colSet_rest g 0) fun g =>
    congrArg some (rowDecClamp_rest g offset)

theorem cha_respects (col : ℕ) : Respects restScreen restScreen fun s => s.cha col := fun s =>
  bind_same_respects fun col => grid_respects (fun g => colSet_rest g col) s

theorem cup_respects (row col : ℕ) : Respects restScreen restScreen fun s => s.cup row col :=
  fun s => bind_same_respects fun row => bind_same_respects fun col =>
    grid_respects (fun g => setPos_rest g ⟨row, col⟩) s

/-- A control that may call `unhandled`, on the grid alone. -/
theorem counted_respects {f : Grid → Option Grid} (hf : ∀ g, f (restGrid g) = (f g).map restGrid) :
    ((restScreen s).withGrid f |>.map (·, 0)).map restPair =
      (s.withGrid f |>.map (·, 0)).map (restPair (β := ℕ)) :=
  map_respects (grid_respects hf s) fun t => congrArg (·, 0) (restScreen_idem t)

theorem ed_respects (mode : ℕ) : Respects restScreen restPair fun s => s.ed mode := by
  intro s
  match mode with
  | 0 => exact counted_respects s fun g => eraseAllForward_rest g s.attrs.forErase
  | 1 => exact counted_respects s fun g => eraseAllBackward_rest g s.attrs.forErase
  | 2 =>
      refine congrArg (fun t => some (t, 0)) (restScreen_putGrid_rest s ?_)
      rw [currentGrid_rest]
      rfl
  | _ + 3 => exact congrArg some (restPair_idem (s, 1))

theorem el_respects (mode : ℕ) : Respects restScreen restPair fun s => s.el mode := by
  intro s
  match mode with
  | 0 => exact counted_respects s fun g => eraseRowForward_rest g s.attrs.forErase
  | 1 => exact counted_respects s fun g => eraseRowBackward_rest g s.attrs.forErase
  | 2 => exact counted_respects s fun g => eraseRow_rest g s.attrs.forErase
  | _ + 3 => exact congrArg some (restPair_idem (s, 1))

theorem il_respects (count : ℕ) : Respects restScreen restScreen fun s => s.il count :=
  grid_respects fun g => insertLines_rest g count

theorem dl_respects (count : ℕ) : Respects restScreen restScreen fun s => s.dl count :=
  grid_respects fun g => deleteLines_rest g count

theorem dch_respects (count : ℕ) : Respects restScreen restScreen fun s => s.dch count :=
  clamped_respects fun g => deleteCells_rest g count

theorem su_respects (count : ℕ) : Respects restScreen restScreen fun s => s.su count := fun s =>
  withGrid_respects s (scrollRegionUp_respects count false _)

theorem sd_respects (count : ℕ) : Respects restScreen restScreen fun s => s.sd count :=
  grid_respects fun g => scrollDown_rest g count false

theorem ech_respects (count : ℕ) : Respects restScreen restScreen fun s => s.ech count := fun s =>
  clamped_respects (fun g => eraseCells_rest g count s.attrs.forErase) s

theorem vpa_respects (row : ℕ) : Respects restScreen restScreen fun s => s.vpa row := fun s =>
  bind_respects (grid_respects colClamp_rest s) fun s =>
    bind_same_respects fun row => grid_respects (fun g => rowSet_rest g row) s

theorem clearMouseMode_rest (mode : MouseProtocolMode) :
    (restScreen s).clearMouseMode mode = restScreen (s.clearMouseMode mode) := by
  unfold Screen.clearMouseMode
  exact ite_renamed Iff.rfl rfl rfl

theorem clearMouseEncoding_rest (encoding : MouseProtocolEncoding) :
    (restScreen s).clearMouseEncoding encoding = restScreen (s.clearMouseEncoding encoding) := by
  unfold Screen.clearMouseEncoding
  exact ite_renamed Iff.rfl rfl rfl

/-! ### Modes -/

theorem handled_rest {s s' : Screen} (h : s' = restScreen s) :
    (Screen.handled s').map (Option.map restScreen) =
      (Screen.handled s).map (Option.map restScreen) :=
  congrArg some (some_respects h)

theorem done_idem (done : Option Screen) :
    (done.map restScreen).map restScreen = done.map restScreen :=
  map_of_commutes restScreen_idem rfl

theorem handledBy_respects {m m' : Option Screen} (h : m'.map restScreen = m.map restScreen) :
    (m'.map some).map (Option.map restScreen) = (m.map some).map (Option.map restScreen) :=
  map_respects h fun s => congrArg some (restScreen_idem s)

theorem clearAndEnter_respects : Respects restScreen (Option.map restScreen) fun s => (do
    let t := s.saveCursor
    let t ← (if t.modes.alternateScreen then some t
      else (t.alternateGrid.clear).map fun g => { t with alternateGrid := g })
    t.enterAlternateGrid.map some) := by
  intro s
  dsimp only
  rw [saveCursor_restScreen]
  generalize s.saveCursor = t
  refine bind_respects (φ := restScreen) ?_ fun t =>
    handledBy_respects (enterAlternateGrid_respects t)
  refine ite_respects Iff.rfl (congrArg some (restScreen_idem t)) ?_
  exact map_of_commutes restScreen_idem (map_renamed (clearGrid_rest t.alternateGrid) fun g => rfl)

theorem decsetOne_respects (param : List ℕ) :
    Respects restScreen (Option.map restScreen) fun s => s.decsetOne param := by
  intro s
  dsimp only
  unfold Screen.decsetOne
  split
  case h_3 => exact handledBy_respects (grid_respects (fun g => setOriginMode_rest g _) s)
  case h_7 => exact handledBy_respects (enterAlternateGrid_respects s)
  case h_8 => exact handledBy_respects (enterAlternateGrid_respects s)
  case h_9 => exact handled_rest (saveCursor_restScreen s)
  case h_17 => exact clearAndEnter_respects s
  all_goals first | rfl | exact handled_rest rfl

theorem decrstOne_respects (param : List ℕ) :
    Respects restScreen (Option.map restScreen) fun s => s.decrstOne param := by
  intro s
  dsimp only
  unfold Screen.decrstOne
  split
  case h_3 => exact handledBy_respects (grid_respects (fun g => setOriginMode_rest g _) s)
  case h_5 => exact handled_rest (clearMouseMode_rest s _)
  case h_7 => exact handled_rest (exitAlternateGrid_rest s)
  case h_8 =>
      rw [exitAlternateGrid_rest]
      refine map_of_commutes done_idem (map_renamed (clearGrid_rest _) fun g => ?_)
      rfl
  case h_9 => exact handledBy_respects (restoreCursor_respects s)
  case h_10 => exact handled_rest (clearMouseMode_rest s _)
  case h_11 => exact handled_rest (clearMouseMode_rest s _)
  case h_12 => exact handled_rest (clearMouseMode_rest s _)
  case h_13 => exact handled_rest (clearMouseEncoding_rest s _)
  case h_14 => exact handled_rest (clearMouseEncoding_rest s _)
  case h_15 => exact handled_rest (clearMouseEncoding_rest s _)
  case h_17 =>
      rw [exitAlternateGrid_rest]
      exact handledBy_respects (restoreCursor_respects _)
  all_goals first | rfl | exact handled_rest rfl

theorem eachParam_respects {f : Screen → List ℕ → Option (Option Screen)}
    (hf : ∀ param, Respects restScreen (Option.map restScreen) fun s => f s param)
    (params : List (List ℕ)) :
    Respects restScreen restPair fun s => s.eachParam f params := by
  intro s
  refine foldlM_respects (φ := restPair) restPair_idem (fun param r => ?_) params (s, 0)
  -- a parameter that is not handled leaves the screen, which counts as the same
  have hdone := hf param r.1
  show Option.map restPair ((f (restScreen r.1) param).map _) =
    Option.map restPair ((f r.1 param).map _)
  dsimp only at hdone
  generalize f (restScreen r.1) param = rested at hdone ⊢
  generalize f r.1 param = done at hdone ⊢
  rcases rested with _ | _ | rested <;> rcases done with _ | _ | t
  case some.none.some.none => exact congrArg some (restPair_idem (r.1, r.2 + 1))
  case some.some.some.some =>
      have hrest : restScreen rested = restScreen t := by
        simpa using hdone
      exact congrArg (fun u => some (u, r.2)) hrest
  all_goals first | rfl | cases hdone

end

/-! ## SGR and character sets -/

section

variable (s : Screen)

theorem sgr_rest (params : List (List ℕ)) : (restScreen s).sgr params = restPair (s.sgr params) := rfl

theorem decscusr_rest (style : ℕ) : (restScreen s).decscusr style = restScreen (s.decscusr style) := by
  unfold Screen.decscusr
  exact ite_renamed Iff.rfl rfl rfl

theorem decstbm_respects (top bottom : ℕ) :
    Respects restScreen restScreen fun s => s.decstbm top bottom := fun s =>
  bind_same_respects fun top => bind_same_respects fun bottom =>
    grid_respects (fun g => setScrollRegion_rest g top bottom) s

theorem scs_rest (slot finalByte : UInt8) :
    (restScreen s).scs slot finalByte = restScreen (s.scs slot finalByte) := by
  unfold Screen.scs
  dsimp only
  generalize (if slot = 0x28 then some 0 else if slot = 0x29 then some 1
    else if slot = 0x2a then some 2 else if slot = 0x2b then some 3 else none :
      Option (Fin 4)) = g
  cases g with
  | none => rfl
  | some i => rfl

end

/-! ## Hyperlinks -/

section

variable (s : Screen)

/-- The cells of the padding have no link. -/
theorem mem_cellLinks_rest {i : ℕ} (hi : i ≠ 0) (g : Grid) :
    i ∈ Screen.cellLinks (restGrid g) ↔ i ∈ Screen.cellLinks g := by
  have hrow : ∀ row : Row, (i ∈ (fullRow g.size.cols row).cells.map fun c => c.attrs.hyperlink) ↔
      i ∈ row.cells.map fun c => c.attrs.hyperlink := by
    intro row
    unfold fullRow
    rw [List.map_append, List.mem_append, List.map_replicate]
    refine or_iff_left fun hpad => hi ?_
    exact List.eq_of_mem_replicate hpad
  unfold Screen.cellLinks
  rw [List.flatMap_append, List.flatMap_append, List.mem_append, List.mem_append]
  refine or_congr Iff.rfl ?_
  show i ∈ List.flatMap _ (g.scrollback.map (fullRow g.size.cols)) ↔ _
  rw [List.flatMap_map, List.mem_flatMap, List.mem_flatMap]
  exact exists_congr fun row => and_congr_right fun _ => hrow row

theorem contains_refs_rest {i : ℕ} (hi : i ≠ 0) :
    (refs (restScreen s)).contains i = (refs s).contains i := by
  have hmem : i ∈ refs (restScreen s) ↔ i ∈ refs s := by
    unfold refs
    simp only [List.mem_cons, List.mem_append]
    exact or_congr Iff.rfl (or_congr Iff.rfl
      (or_congr (mem_cellLinks_rest hi s.grid) (mem_cellLinks_rest hi s.alternateGrid)))
  rw [Bool.eq_iff_iff, List.contains_iff_mem, List.contains_iff_mem]
  exact hmem

theorem mapLinks_rest {f : ℕ → ℕ} (hzero : f 0 = 0) (g : Grid) :
    Screen.mapLinks f (restGrid g) = restGrid (Screen.mapLinks f g) := by
  have hblank : { Cell.new with attrs.hyperlink := f Cell.new.attrs.hyperlink } = Cell.new := by
    show { Cell.new with attrs.hyperlink := f 0 } = Cell.new
    rw [hzero]
    rfl
  unfold Screen.mapLinks restGrid
  dsimp only
  rw [List.map_map, List.map_map]
  congr 1
  refine List.map_congr_left fun row _ => ?_
  unfold fullRow
  dsimp only [Function.comp_apply]
  rw [List.map_append, List.map_replicate, hblank, List.length_map]

theorem keeping_rest {kept : List ℕ} (hzero : 0 ∉ kept) :
    keeping (restScreen s) kept = restScreen (keeping s kept) := by
  have hmap := mapLinks_rest (f := renumbered kept) (if_neg hzero)
  unfold keeping restScreen
  dsimp only
  rw [hmap, hmap]

theorem compactHyperlinks_rest :
    (restScreen s).compactHyperlinks = restPair s.compactHyperlinks := by
  have hpos : ∀ i ∈ (List.range s.hyperlinks.length).map (· + 1), i ≠ 0 := by
    intro i hi
    obtain ⟨j, -, rfl⟩ := List.mem_map.mp hi
    exact Nat.succ_ne_zero j
  rw [compactHyperlinks_eq (restScreen s) _ rfl, compactHyperlinks_eq s _ rfl]
  show (if ((List.range s.hyperlinks.length).map (· + 1)).all _ then _
    else if ((List.range s.hyperlinks.length).map (· + 1)).all _ then _
    else (keeping _ (((List.range s.hyperlinks.length).map (· + 1)).filter _), true)) = _
  generalize (List.range s.hyperlinks.length).map (· + 1) = indices at hpos ⊢
  have hnone : (indices.all fun i => !(refs (restScreen s)).contains i) =
      indices.all fun i => !(refs s).contains i := by
    rw [Bool.eq_iff_iff, List.all_eq_true, List.all_eq_true]
    exact forall₂_congr fun i hi => by rw [contains_refs_rest s (hpos i hi)]
  have hall : (indices.all fun i => (refs (restScreen s)).contains i) =
      indices.all fun i => (refs s).contains i := by
    rw [Bool.eq_iff_iff, List.all_eq_true, List.all_eq_true]
    exact forall₂_congr fun i hi => by rw [contains_refs_rest s (hpos i hi)]
  have hkept : (indices.filter fun i => (refs (restScreen s)).contains i) =
      indices.filter fun i => (refs s).contains i :=
    List.filter_congr fun i hi => contains_refs_rest s (hpos i hi)
  have hzero : 0 ∉ indices.filter fun i => (refs s).contains i := fun hmem =>
    hpos 0 (List.mem_of_mem_filter hmem) rfl
  rw [hnone, hall, hkept, keeping_rest s hzero]
  exact ite_renamed Iff.rfl rfl (ite_renamed Iff.rfl rfl rfl)

theorem makeRoom_rest : (restScreen s).makeRoom = s.makeRoom.map restScreen := by
  have hrearm : ∀ freed, (if minRearmRows ≤ freed
        then { restScreen s with compactSkip := 0, compactDelay := 0 } else restScreen s) =
      restScreen (if minRearmRows ≤ freed then { s with compactSkip := 0, compactDelay := 0 }
        else s) := fun freed => ite_renamed Iff.rfl rfl rfl
  unfold Screen.makeRoom
  refine bind_same fun freed => ?_
  simp only [hrearm]
  generalize (if minRearmRows ≤ freed then { s with compactSkip := 0, compactDelay := 0 }
    else s) = t
  refine ite_renamed Iff.rfl rfl ?_
  rw [compactHyperlinks_rest]
  match t.compactHyperlinks with
  | (u, true) => rfl
  | (u, false) => rfl

theorem linkTo_rest (link : String × String) :
    (restScreen s).linkTo link = (s.linkTo link).map restScreen := by
  have hlinks : ∀ t : Screen, (restScreen t).hyperlinks = t.hyperlinks := fun _ => rfl
  simp only [Screen.linkTo, hlinks]
  cases s.hyperlinks.idxOf? link with
  | some i => rfl
  | none =>
      refine bind_renamed (φ := restScreen) (ite_renamed Iff.rfl (makeRoom_rest s) rfl) fun t => ?_
      refine ite_renamed Iff.rfl rfl ?_
      rw [hlinks]
      cases t.hyperlinks.idxOf? link with
      | some i => rfl
      | none => rfl

theorem osc8_rest (params uri : List UInt8) :
    (restScreen s).osc8 params uri = (s.osc8 params uri).map restScreen := by
  rw [osc8_eq, osc8_eq]
  match linkOf params uri with
  | none => rfl
  | some link => exact linkTo_rest s.breakRep link

end

/-! ## Dispatch -/

section

variable (s : Screen)

/-- A control that makes no call. -/
theorem quiet_respects {m m' : Option Screen} (h : m'.map restScreen = m.map restScreen) :
    (Screen.quiet m').map restPair = (Screen.quiet m).map restPair :=
  map_respects h fun t => congrArg (·, []) (restScreen_idem t)

/-- A control that may call `unhandled`. -/
theorem mapCalling_respects (callback : Callback) {m m' : Option (Screen × ℕ)}
    (h : m'.map restPair = m.map restPair) :
    (m'.map (Screen.calling callback)).map restPair =
      (m.map (Screen.calling callback)).map restPair :=
  map_respects h fun r => congrArg (·, List.replicate r.2 callback) (restScreen_idem r.1)

theorem someCalling_respects (callback : Callback) {r r' : Screen × ℕ} (h : r' = restPair r) :
    (some (Screen.calling callback r')).map restPair =
      (some (Screen.calling callback r)).map restPair := by
  rw [h]
  exact congrArg (fun t => some (t, List.replicate r.2 callback)) (restScreen_idem r.1)

theorem some_rest {r r' : Screen × List Callback} (h : r' = restPair r) :
    (some r').map restPair = (some r).map restPair := by
  rw [h]
  exact congrArg some (restPair_idem r)

theorem print_respects (width : Char → Option ℕ) (c : Char) :
    Respects restScreen restPair fun s => s.print width c := by
  intro s
  unfold Screen.print
  exact ite_respects Iff.rfl (some_rest rfl) (quiet_respects (text_respects width c s))

theorem breakRep_rest : (restScreen s).breakRep = restScreen s.breakRep := rfl

theorem execute_respects (b : UInt8) : Respects restScreen restPair fun s => s.execute b := by
  intro s
  have hbreak : (if b = 14 ∨ b = 15 then restScreen s else (restScreen s).breakRep) =
      restScreen (if b = 14 ∨ b = 15 then s else s.breakRep) := ite_renamed Iff.rfl rfl rfl
  unfold Screen.execute
  simp only [hbreak]
  generalize (if b = 14 ∨ b = 15 then s else s.breakRep) = t
  split
  · exact some_rest rfl
  · exact quiet_respects (bs_respects t)
  · exact quiet_respects (tab_respects t)
  · exact quiet_respects (lf_respects t)
  · exact quiet_respects (lf_respects t)
  · exact quiet_respects (lf_respects t)
  · exact quiet_respects (cr_respects t)
  · exact some_rest rfl
  · exact some_rest rfl
  · exact some_rest rfl

theorem escFinal_respects (b : UInt8) : Respects restScreen restPair fun s => s.escFinal b := by
  intro s
  dsimp only
  unfold Screen.escFinal
  split
  case h_1 => exact quiet_respects (ind_respects s)
  case h_2 => exact quiet_respects (nel_respects s)
  case h_3 => exact some_rest (congrArg (·, []) (hts_rest s))
  case h_8 => exact some_rest (congrArg (·, []) (saveCursor_restScreen s))
  case h_9 => exact quiet_respects (restoreCursor_respects s)
  case h_12 => exact quiet_respects (ri_respects s)
  case h_13 => rw [ris_rest]
  all_goals exact some_rest rfl

theorem escDispatch_respects (width : Char → Option ℕ) (intermediates : List UInt8) (b : UInt8) :
    Respects restScreen restPair fun s => s.escDispatch width intermediates b := by
  intro s
  unfold Screen.escDispatch
  match intermediates with
  | [] => exact escFinal_respects b s.breakRep
  | [i] =>
      refine ite_respects Iff.rfl (some_rest (congrArg (·, []) (scs_rest s.breakRep i b))) ?_
      exact ite_respects Iff.rfl (quiet_respects (decaln_respects width s.breakRep))
        (some_rest rfl)
  | i :: j :: _ => exact some_rest rfl

theorem csiFinal_respects (width : Char → Option ℕ) (params : List (List ℕ)) (c : Char) :
    Respects restScreen restPair fun s => s.csiFinal width params c := by
  intro s
  unfold Screen.csiFinal
  dsimp only
  split
  · exact quiet_respects (ich_respects _ s)
  · exact quiet_respects (cuu_respects _ s)
  · exact quiet_respects (cud_respects _ s)
  · exact quiet_respects (cuf_respects _ s)
  · exact quiet_respects (cub_respects _ s)
  · exact quiet_respects (cnl_respects _ s)
  · exact quiet_respects (cpl_respects _ s)
  · exact quiet_respects (cha_respects _ s)
  · exact quiet_respects (cup_respects _ _ s)
  · exact mapCalling_respects _ (ed_respects _ s)
  · exact mapCalling_respects _ (el_respects _ s)
  · exact quiet_respects (il_respects _ s)
  · exact quiet_respects (dl_respects _ s)
  · exact quiet_respects (dch_respects _ s)
  · exact quiet_respects (su_respects _ s)
  · exact quiet_respects (sd_respects _ s)
  · exact quiet_respects (ech_respects _ s)
  · exact quiet_respects (rep_respects width _ s)
  · exact quiet_respects (cha_respects _ s)
  · exact quiet_respects (cuf_respects _ s)
  · exact quiet_respects (cud_respects _ s)
  · exact quiet_respects (cup_respects _ _ s)
  · exact quiet_respects (cht_respects _ s)
  · exact quiet_respects (cbt_respects _ s)
  · exact someCalling_respects _ (tbc_rest s _)
  · exact someCalling_respects _ (ansiMode_rest s _ _)
  · exact someCalling_respects _ (ansiMode_rest s _ _)
  · exact some_rest (congrArg (·, []) (saveCursor_restScreen s))
  · exact quiet_respects (restoreCursor_respects s)
  · exact quiet_respects (vpa_respects _ s)
  · exact someCalling_respects _ (sgr_rest s _)
  · rw [currentGrid_rest]
    exact quiet_respects (decstbm_respects _ _ s)
  · rw [currentGrid_rest]
    exact ite_respects Iff.rfl (some_rest rfl) (some_rest rfl)
  · exact some_rest rfl

theorem csiPrivate_respects (params : List (List ℕ)) (i2 : Option UInt8) (c : Char) :
    Respects restScreen restPair fun s => s.csiPrivate params i2 c := by
  intro s
  unfold Screen.csiPrivate
  dsimp only
  split
  · exact mapCalling_respects _ (ed_respects _ s)
  · exact mapCalling_respects _ (el_respects _ s)
  · exact mapCalling_respects _ (eachParam_respects decsetOne_respects params s)
  · exact mapCalling_respects _ (eachParam_respects decrstOne_respects params s)
  · exact some_rest rfl

theorem csiDispatch_respects (width : Char → Option ℕ) (params : List (List ℕ))
    (intermediates : List UInt8) (c : Char) :
    Respects restScreen restPair fun s => s.csiDispatch width params intermediates c := by
  intro s
  have hbreak : (if c = 'b' then restScreen s else (restScreen s).breakRep) =
      restScreen (if c = 'b' then s else s.breakRep) := ite_renamed Iff.rfl rfl rfl
  unfold Screen.csiDispatch
  simp only [hbreak]
  generalize (if c = 'b' then s else s.breakRep) = t
  cases intermediates with
  | nil => exact csiFinal_respects width params c t
  | cons i rest =>
      refine ite_respects Iff.rfl (csiPrivate_respects params _ c t) ?_
      refine ite_respects Iff.rfl (quiet_respects (decstr_respects t)) ?_
      exact ite_respects Iff.rfl (some_rest (congrArg (·, []) (decscusr_rest t _))) (some_rest rfl)

theorem oscDispatch_respects (params : List (List UInt8)) (bel : Bool) :
    Respects restScreen restPair fun s => s.oscDispatch params bel := by
  intro s
  have hlink : ∀ linkParams uri, (Screen.quiet ((restScreen s).osc8 linkParams uri)).map restPair =
      (Screen.quiet (s.osc8 linkParams uri)).map restPair := fun linkParams uri =>
    quiet_respects (map_of_commutes restScreen_idem (osc8_rest s linkParams uri))
  unfold Screen.oscDispatch
  cases params with
  | nil => exact some_rest rfl
  | cons first rest =>
      refine ite_respects Iff.rfl (some_rest rfl) (ite_respects Iff.rfl (some_rest rfl) ?_)
      refine ite_respects Iff.rfl (some_rest rfl) (ite_respects Iff.rfl ?_ ?_)
      · refine ite_respects Iff.rfl (hlink [] []) ?_
        match rest with
        | [] => exact hlink [] []
        | [_] => exact hlink [] []
        | linkParams :: u :: us => exact hlink linkParams _
      · refine ite_respects Iff.rfl ?_ (some_rest rfl)
        match rest with
        | [] => exact some_rest rfl
        | [_] => exact some_rest rfl
        | [ty, data] => exact some_rest rfl
        | _ :: _ :: _ :: _ => exact some_rest rfl

/-- The screen, up to the padding of its scrollback and where its view is, and the calls it makes do
not depend on the padding and the view. -/
theorem perform_respects (width : Char → Option ℕ) (a : Vt.Action) :
    Respects restScreen restPair fun s => s.perform width a := by
  cases a with
  | print c => exact print_respects width c
  | execute b => exact execute_respects b
  | escDispatch intermediates b => exact escDispatch_respects width intermediates b
  | csiDispatch params intermediates c => exact csiDispatch_respects width params intermediates c
  | oscDispatch params bel => exact oscDispatch_respects params bel
  | hook => exact fun s => some_rest rfl
  | put b => exact fun s => some_rest rfl
  | unhook => exact fun s => some_rest rfl

end

end Tymux.Analysis.Vt
