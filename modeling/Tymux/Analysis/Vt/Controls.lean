import Tymux.Analysis.Vt.Screens

/-!
# Every action keeps the screen in shape

One lemma for each kind of action the tokenizer reports. The only actions with a condition are the
ones that can feed a row to the scrollback: printing, the line feeds, `IND`, `NEL` and `REP`.
-/

set_option autoImplicit false

namespace Tymux.Analysis.Vt

open Tymux.Lib Tymux.Model Tymux.Model.Vt

section

variable {V : Prop} {size : Size} {cap : ℕ} {s : Screen} {width : Char → Option ℕ}

/-- The screen is in shape, whatever was called on the way. -/
def Kept (V : Prop) (size : Size) (cap : ℕ) (r : Screen × List Callback) : Prop :=
  ScreenFits V size cap r.1

theorem yields_quiet {m : Option Screen} (h : Yields m (ScreenFits V size cap)) :
    Yields (Screen.quiet m) (Kept V size cap) := h.map fun _ hs => hs

theorem yields_calling {m : Option (Screen × ℕ)} (callback : Callback)
    (h : Yields m fun r => ScreenFits V size cap r.1) :
    Yields (m.map (Screen.calling callback)) (Kept V size cap) := h.map fun _ hs => hs

theorem yields_now {r : Screen × List Callback} (h : ScreenFits V size cap r.1) :
    Yields (some r) (Kept V size cap) := yields_some h

/-! ## Controls -/

theorem yields_cr (h : ScreenFits V size cap s) : Yields s.cr (ScreenFits V size cap) :=
  yields_withGrid_of_forall h fun _ _ _ hg => yields_colSet hg 0

theorem currentGrid_putGrid (s : Screen) (g : Grid) : (s.putGrid g).currentGrid = g := by
  unfold Screen.currentGrid Screen.putGrid
  by_cases halt : s.modes.alternateScreen = true
  · simp only [halt, if_true]
  · simp only [halt, if_false, Bool.false_eq_true]

/-- A carriage return does not disarm the grid. -/
theorem yields_cr_armed (h : ScreenFits V size cap s) :
    Yields s.cr fun t => ScreenFits V size cap t ∧
      (Armed t.currentGrid ↔ Armed s.currentGrid) := by
  have hcols : 1 ≤ s.currentGrid.size.cols := h.current.cols_eq ▸ h.current.cols_pos
  have heq : s.currentGrid.colSet 0 = some { s.currentGrid with
      pos := ⟨s.currentGrid.pos.row, min 0 (s.currentGrid.size.cols - 1)⟩ } :=
    colClamp_eq { s.currentGrid with pos := { s.currentGrid.pos with col := 0 } } hcols
  unfold Screen.cr Screen.withGrid
  dsimp only
  rw [heq]
  refine yields_some ⟨h.putGrid (h.current.cursor h.current.pos_row (by simp)), ?_⟩
  rw [currentGrid_putGrid]
  exact Iff.rfl

/-- A line feed; in newline mode it returns the carriage first. -/
theorem yields_lf (h : ScreenFits V size cap s) (hview : V → ¬ Armed s.currentGrid) :
    Yields s.lf (ScreenFits V size cap) := by
  unfold Screen.lf
  refine Yields.bind (Q := fun t => ScreenFits V size cap t ∧
    (Armed t.currentGrid ↔ Armed s.currentGrid)) ?_ fun t ht => ?_
  · split_ifs
    · exact yields_cr_armed h
    · exact yields_some ⟨h, Iff.rfl⟩
  · refine yields_withGrid ht.1 (yields_lineFeed ht.1.current rfl fun hv harmed => ?_)
    exact hview hv (ht.2.mp harmed)

theorem yields_ind (h : ScreenFits V size cap s) (hview : V → ¬ Armed s.currentGrid) :
    Yields s.ind (ScreenFits V size cap) := by
  have hcols : 1 ≤ s.currentGrid.size.cols := h.current.cols_eq ▸ h.current.cols_pos
  refine yields_withGrid h ?_
  refine yields_bind_of_eq (colClamp_eq s.currentGrid hcols) ?_
  have hclamped := h.current.cursor (p := ⟨s.currentGrid.pos.row,
    min s.currentGrid.pos.col (s.currentGrid.size.cols - 1)⟩) h.current.pos_row
      (le_trans (Nat.min_le_left _ _) h.current.pos_col)
  exact (yields_rowIncScroll hclamped rfl hview).bind fun r hr => yields_some hr.1

theorem yields_nel (h : ScreenFits V size cap s) (hview : V → ¬ Armed s.currentGrid) :
    Yields s.nel (ScreenFits V size cap) :=
  (yields_cr_armed h).bind fun _ ht => yields_ind ht.1 fun hv harmed => hview hv (ht.2.mp harmed)

theorem yields_ris (h : ScreenFits V size cap s) : Yields s.ris (ScreenFits V size cap) := by
  unfold Screen.ris
  rw [h.main.size_eq, h.main.cap_eq]
  exact yields_screenNew h.main.rows_pos h.main.cols_pos h.main.cols_le cap

theorem yields_decstr (h : ScreenFits V size cap s) : Yields s.decstr (ScreenFits V size cap) := by
  unfold Screen.decstr
  refine Yields.bind (yields_withGrid_of_forall ?_ ?_) fun t ht =>
    yields_some (ScreenFits.syncBlankAttrs ht)
  · exact h.congr rfl rfl rfl rfl
  · exact fun _ _ _ hg => yields_softReset hg

theorem ScreenFits.tbc (h : ScreenFits V size cap s) (mode : ℕ) :
    ScreenFits V size cap (s.tbc mode).1 := by
  unfold Screen.tbc
  split
  · exact h.putGrid h.current.clearTabStop
  · exact h.putGrid h.current.clearAllTabStops
  · exact h

theorem ScreenFits.ansiMode (h : ScreenFits V size cap s) (params : List (List ℕ)) (on : Bool) :
    ScreenFits V size cap (s.ansiMode params on).1 := by
  unfold Screen.ansiMode
  generalize 0 = n
  induction params generalizing s n with
  | nil => exact h
  | cons param params ih =>
      rw [List.foldl_cons]
      split
      · refine ih ?_ n
        exact h.congr rfl rfl rfl rfl
      · refine ih ?_ n
        exact h.congr rfl rfl rfl rfl
      · exact ih h (n + 1)

theorem ScreenFits.sgr (h : ScreenFits V size cap s) (params : List (List ℕ)) :
    ScreenFits V size cap (s.sgr params).1 := by
  unfold Screen.sgr
  exact ScreenFits.syncBlankAttrs { h with }

theorem yields_ed (h : ScreenFits V size cap s) (mode : ℕ) :
    Yields (s.ed mode) fun r => ScreenFits V size cap r.1 := by
  unfold Screen.ed
  dsimp only
  split
  · exact (yields_withGrid_of_forall h fun _ _ hd hg => yields_eraseAllForward hg hd _).map
      fun _ ht => ht
  · exact (yields_withGrid_of_forall h fun _ _ hd hg => yields_eraseAllBackward hg hd _).map
      fun _ ht => ht
  · exact yields_some (h.putGrid (h.current.eraseAll _))
  · exact yields_some h

theorem yields_el (h : ScreenFits V size cap s) (mode : ℕ) :
    Yields (s.el mode) fun r => ScreenFits V size cap r.1 := by
  unfold Screen.el
  dsimp only
  split
  · exact (yields_withGrid_of_forall h fun _ _ hd hg => yields_eraseRowForward hg hd _).map
      fun _ ht => ht
  · exact (yields_withGrid_of_forall h fun _ _ hd hg =>
      (yields_eraseRowBackward hg hd _).mono fun _ hg' => hg'.1).map fun _ ht => ht
  · exact (yields_withGrid_of_forall h fun _ _ hd hg => yields_eraseRow hg hd _).map fun _ ht => ht
  · exact yields_some h

/-! ## Modes -/

/-- One parameter is handled, or it is reported. -/
def ParamKept (V : Prop) (size : Size) (cap : ℕ) (r : Option Screen) : Prop :=
  ∀ s ∈ r, ScreenFits V size cap s

theorem yields_handled (h : ScreenFits V size cap s) :
    Yields (Screen.handled s) (ParamKept V size cap) := by
  refine yields_some fun t ht => ?_
  rw [Option.mem_some_iff] at ht
  exact ht ▸ h

theorem yields_handledBy {m : Option Screen} (h : Yields m (ScreenFits V size cap)) :
    Yields (m.map some) (ParamKept V size cap) := by
  refine h.map fun t ht u hu => ?_
  rw [Option.mem_some_iff] at hu
  exact hu ▸ ht

theorem ScreenFits.withModes (h : ScreenFits V size cap s) {modes : Modes}
    (halt : modes.alternateScreen = s.modes.alternateScreen) :
    ScreenFits V size cap (s.withModes modes) :=
  { h with shown := fun hshown => h.shown (halt ▸ hshown) }

theorem ScreenFits.clearMouseMode (h : ScreenFits V size cap s) (mode : MouseProtocolMode) :
    ScreenFits V size cap (s.clearMouseMode mode) := by
  unfold Screen.clearMouseMode
  split_ifs
  · exact { h with }
  · exact h

theorem ScreenFits.clearMouseEncoding (h : ScreenFits V size cap s)
    (encoding : MouseProtocolEncoding) :
    ScreenFits V size cap (s.clearMouseEncoding encoding) := by
  unfold Screen.clearMouseEncoding
  split_ifs
  · exact { h with }
  · exact h

/-- The alternate grid is cleared, then shown. -/
theorem yields_clearAndEnter (h : ScreenFits V size cap s) :
    Yields (do
      let s ← (if s.modes.alternateScreen then some s
        else (s.alternateGrid.clear).map fun g => { s with alternateGrid := g })
      s.enterAlternateGrid.map some) (ParamKept V size cap) := by
  refine Yields.bind (Q := ScreenFits V size cap) ?_ fun t ht =>
    yields_handledBy (yields_enterAlternateGrid ht)
  split_ifs
  · exact yields_some h
  · exact (yields_clear h.alternate).map fun g hg => h.putAlternate hg

theorem yields_decsetOne (h : ScreenFits V size cap s) (param : List ℕ) :
    Yields (s.decsetOne param) (ParamKept V size cap) := by
  unfold Screen.decsetOne
  split
  case h_3 => exact yields_handledBy (yields_withGrid_of_forall h fun _ _ _ hg =>
    yields_setOriginMode hg true)
  case h_7 => exact yields_handledBy (yields_enterAlternateGrid h)
  case h_8 => exact yields_handledBy (yields_enterAlternateGrid h)
  case h_9 => exact yields_handled h.saveCursor
  case h_17 => exact yields_clearAndEnter h.saveCursor
  case h_19 => exact yields_some (by simp [ParamKept])
  all_goals first
    | exact yields_handled (h.withModes rfl)
    | exact yields_handled { h with }

theorem yields_decrstOne (h : ScreenFits V size cap s) (param : List ℕ) :
    Yields (s.decrstOne param) (ParamKept V size cap) := by
  unfold Screen.decrstOne
  split
  case h_3 => exact yields_handledBy (yields_withGrid_of_forall h fun _ _ _ hg =>
    yields_setOriginMode hg false)
  case h_7 => exact yields_handled h.exitAlternateGrid
  case h_8 =>
      have h' := h.exitAlternateGrid
      refine (yields_clear h'.alternate).map fun g hg t ht => ?_
      rw [Option.mem_some_iff] at ht
      exact ht ▸ h'.putAlternate hg
  case h_9 => exact yields_handledBy (yields_restoreCursorScreen h)
  case h_17 => exact yields_handledBy (yields_restoreCursorScreen h.exitAlternateGrid)
  case h_19 => exact yields_some (by simp [ParamKept])
  all_goals first
    | exact yields_handled (h.withModes rfl)
    | exact yields_handled (h.clearMouseMode _)
    | exact yields_handled (h.clearMouseEncoding _)

theorem yields_eachParam {f : Screen → List ℕ → Option (Option Screen)}
    (hf : ∀ t param, ScreenFits V size cap t → Yields (f t param) (ParamKept V size cap))
    (h : ScreenFits V size cap s) (params : List (List ℕ)) :
    Yields (s.eachParam f params) fun r => ScreenFits V size cap r.1 := by
  unfold Screen.eachParam
  refine yields_foldlM (fun r : Screen × ℕ => ScreenFits V size cap r.1) params ?_ h
  intro r param _ hr
  refine (hf r.1 param hr).map fun out hout => ?_
  cases out with
  | none => exact hr
  | some t => exact hout t rfl

/-! ## Actions -/

/-- The action feeds no narrow row to the view: none of the characters it draws and none of its
line feeds finds the grid armed. -/
def ActionOk (width : Char → Option ℕ) (s : Screen) : Vt.Action → Prop
  | .print c => ¬ (0x80 ≤ c.toNat ∧ c.toNat < 0xa0) → ¬ DrawArms width s (mappedChar s c)
  | .execute b => b.toNat = 10 ∨ b.toNat = 11 ∨ b.toNat = 12 → ¬ Armed s.currentGrid
  | .escDispatch intermediates b => intermediates = [] →
      Char.ofNat b.toNat = 'D' ∨ Char.ofNat b.toNat = 'E' → ¬ Armed s.currentGrid
  | .csiDispatch params intermediates c => intermediates = [] → c = 'b' →
      Along (fun s c => Screen.draw width s c) (fun s c => ¬ DrawArms width s c) s
        (repChars s (canonicalizeParams1 params 1))
  | _ => True

theorem ScreenFits.breakRep (h : ScreenFits V size cap s) : ScreenFits V size cap s.breakRep :=
  h.congr rfl rfl rfl rfl

theorem yields_execute (h : ScreenFits V size cap s) (b : UInt8)
    (hview : V → ActionOk width s (.execute b)) : Yields (s.execute b) (Kept V size cap) := by
  have h' : ScreenFits V size cap (if b = 14 ∨ b = 15 then s else s.breakRep) := by
    split_ifs
    · exact h
    · exact h.breakRep
  have hcur : (if b = 14 ∨ b = 15 then s else s.breakRep).currentGrid = s.currentGrid := by
    split_ifs <;> rfl
  unfold Screen.execute
  dsimp only
  generalize (if b = 14 ∨ b = 15 then s else s.breakRep) = t at h' hcur ⊢
  have hline : b.toNat = 10 ∨ b.toNat = 11 ∨ b.toNat = 12 →
      Yields (Screen.quiet t.lf) (Kept V size cap) := by
    intro hb
    refine yields_quiet (yields_lf h' fun hv harmed => ?_)
    rw [hcur] at harmed
    exact hview hv hb harmed
  split
  case h_1 => exact yields_now h'
  case h_2 => exact yields_quiet (yields_withGrid_of_forall h' fun _ _ _ hg =>
    yields_colDecRestricted hg 1)
  case h_3 => exact yields_quiet (yields_withGrid_of_forall h' fun _ _ _ hg =>
    yields_colForwardTab hg 1)
  case h_4 hb => exact hline (Or.inl hb)
  case h_5 hb => exact hline (Or.inr (Or.inl hb))
  case h_6 hb => exact hline (Or.inr (Or.inr hb))
  case h_7 => exact yields_quiet (yields_cr h')
  case h_8 => exact yields_now (h'.congr rfl rfl rfl rfl)
  case h_9 => exact yields_now (h'.congr rfl rfl rfl rfl)
  case h_10 => exact yields_now h'

theorem yields_escFinal (h : ScreenFits V size cap s) (b : UInt8)
    (hview : V → Char.ofNat b.toNat = 'D' ∨ Char.ofNat b.toNat = 'E' → ¬ Armed s.currentGrid) :
    Yields (s.escFinal b) (Kept V size cap) := by
  unfold Screen.escFinal
  split
  case h_1 hb => exact yields_quiet (yields_ind h fun hv => hview hv (Or.inl hb))
  case h_2 hb => exact yields_quiet (yields_nel h fun hv => hview hv (Or.inr hb))
  case h_3 => exact yields_now (h.putGrid h.current.setTabStop)
  case h_8 => exact yields_now h.saveCursor
  case h_9 => exact yields_quiet (yields_restoreCursorScreen h)
  case h_12 => exact yields_quiet (yields_withGrid_of_forall h fun _ _ hd hg =>
    yields_reverseIndex hg hd)
  case h_13 => exact yields_quiet (yields_ris h)
  all_goals exact yields_now (h.congr rfl rfl rfl rfl)

theorem yields_escDispatch (h : ScreenFits V size cap s) (intermediates : List UInt8) (b : UInt8)
    (hview : V → ActionOk width s (.escDispatch intermediates b)) :
    Yields (s.escDispatch width intermediates b) (Kept V size cap) := by
  have h' := h.breakRep
  unfold Screen.escDispatch
  dsimp only
  split
  case h_1 => exact yields_escFinal h' b fun hv => hview hv rfl
  case h_2 i =>
      split_ifs
      · refine yields_now ?_
        show ScreenFits V size cap (s.breakRep.scs i b)
        unfold Screen.scs
        dsimp only
        split
        · exact h.congr rfl rfl rfl rfl
        · exact h.congr rfl rfl rfl rfl
      · exact yields_quiet (yields_withGrid_of_forall h' fun _ _ _ hg => yields_alignTest hg width)
      · exact yields_now h'
  case h_3 => exact yields_now h'

/-- A parameter is at least its default, if that is positive. -/
theorem one_le_orDefault (n : ℕ) {default : ℕ} (h : 1 ≤ default) : 1 ≤ orDefault n default := by
  unfold orDefault
  split_ifs <;> omega

theorem yields_cha (h : ScreenFits V size cap s) {col : ℕ} (hcol : 1 ≤ col) :
    Yields (s.cha col) (ScreenFits V size cap) := by
  unfold Screen.cha
  refine yields_bind_of_eq (checkedSub_of_le hcol) ?_
  exact yields_withGrid_of_forall h fun _ _ _ hg => yields_colSet hg _

theorem yields_cup (h : ScreenFits V size cap s) {row col : ℕ} (hrow : 1 ≤ row) (hcol : 1 ≤ col) :
    Yields (s.cup row col) (ScreenFits V size cap) := by
  unfold Screen.cup
  refine yields_bind_of_eq (checkedSub_of_le hrow) ?_
  refine yields_bind_of_eq (checkedSub_of_le hcol) ?_
  exact yields_withGrid_of_forall h fun _ _ _ hg => yields_setPos hg _

theorem yields_vpa (h : ScreenFits V size cap s) {row : ℕ} (hrow : 1 ≤ row) :
    Yields (s.vpa row) (ScreenFits V size cap) := by
  unfold Screen.vpa
  refine (yields_withGrid_of_forall h fun _ _ _ hg => yields_colClamp_self hg).bind fun t ht => ?_
  refine yields_bind_of_eq (checkedSub_of_le hrow) ?_
  exact yields_withGrid_of_forall ht fun _ _ _ hg => yields_rowSet hg _

theorem yields_decstbm (h : ScreenFits V size cap s) {top bottom : ℕ} (htop : 1 ≤ top)
    (hbottom : 1 ≤ bottom) : Yields (s.decstbm top bottom) (ScreenFits V size cap) := by
  unfold Screen.decstbm
  refine yields_bind_of_eq (checkedSub_of_le htop) ?_
  refine yields_bind_of_eq (checkedSub_of_le hbottom) ?_
  exact yields_withGrid_of_forall h fun _ _ _ hg => yields_setScrollRegion hg _ _

/-- The column is clamped before the operation. -/
theorem yields_clamped (h : ScreenFits V size cap s) {f : Grid → Option Grid}
    (hf : ∀ (b : Frame) (g : Grid), b.drawn = b.size.rows → Fits b g → Yields (f g) (Fits b)) :
    Yields (s.withGrid fun g => do f (← g.colClamp)) (ScreenFits V size cap) :=
  yields_withGrid_of_forall h fun b _ hd hg =>
    (yields_colClamp_self hg).bind fun g' hg' => hf b g' hd hg'

theorem yields_csiFinal (hwidth : WidthLaw width) (h : ScreenFits V size cap s)
    (params : List (List ℕ)) (c : Char) (hview : V → ActionOk width s (.csiDispatch params [] c)) :
    Yields (s.csiFinal width params c) (Kept V size cap) := by
  have hp1 : 1 ≤ canonicalizeParams1 params 1 := one_le_orDefault _ (le_refl 1)
  have hp2 : 1 ≤ (canonicalizeParams2 params 1 1).2 := one_le_orDefault _ (le_refl 1)
  unfold Screen.csiFinal
  dsimp only
  split
  case h_1 => exact yields_quiet (yields_clamped h fun _ _ hd hg =>
    (yields_insertCells hg hd _).mono fun _ hg' => hg'.1)
  case h_2 => exact yields_quiet (yields_clamped h fun _ _ _ hg => yields_some (hg.rowDecClamp _))
  case h_3 => exact yields_quiet (yields_clamped h fun _ _ _ hg => yields_rowIncClamp hg _)
  case h_4 => exact yields_quiet (yields_withGrid_of_forall h fun _ _ _ hg => yields_colIncClamp hg _)
  case h_5 => exact yields_quiet (yields_withGrid_of_forall h fun _ _ _ hg =>
    yields_colDecRestricted hg _)
  case h_6 => exact yields_quiet (yields_withGrid_of_forall h fun _ _ _ hg =>
    (yields_colSet hg 0).bind fun _ hg' => yields_rowIncClamp hg' _)
  case h_7 => exact yields_quiet (yields_withGrid_of_forall h fun _ _ _ hg =>
    (yields_colSet hg 0).bind fun _ hg' => yields_some (hg'.rowDecClamp _))
  case h_8 => exact yields_quiet (yields_cha h hp1)
  case h_9 => exact yields_quiet (yields_cup h hp1 hp2)
  case h_10 => exact yields_calling _ (yields_ed h _)
  case h_11 => exact yields_calling _ (yields_el h _)
  case h_12 => exact yields_quiet (yields_withGrid_of_forall h fun _ _ hd hg =>
    yields_insertLines hg hd _)
  case h_13 => exact yields_quiet (yields_withGrid_of_forall h fun _ _ hd hg =>
    yields_deleteLines hg hd _)
  case h_14 => exact yields_quiet (yields_clamped h fun _ _ hd hg => yields_deleteCells hg hd _)
  case h_15 => exact yields_quiet (yields_withGrid_of_forall h fun _ _ hd hg =>
    yields_scrollUpDiscard hg hd _)
  case h_16 => exact yields_quiet (yields_withGrid_of_forall h fun _ _ hd hg =>
    yields_scrollDown hg hd _ false)
  case h_17 => exact yields_quiet (yields_clamped h fun _ _ hd hg => yields_eraseCells hg hd _ _)
  case h_18 => exact yields_quiet (yields_rep hwidth h _ fun hv => hview hv rfl rfl)
  case h_19 => exact yields_quiet (yields_cha h hp1)
  case h_20 => exact yields_quiet (yields_withGrid_of_forall h fun _ _ _ hg =>
    yields_colIncClamp hg _)
  case h_21 => exact yields_quiet (yields_clamped h fun _ _ _ hg => yields_rowIncClamp hg _)
  case h_22 => exact yields_quiet (yields_cup h hp1 hp2)
  case h_23 => exact yields_quiet (yields_withGrid_of_forall h fun _ _ _ hg =>
    yields_colForwardTab hg _)
  case h_24 => exact yields_quiet (yields_withGrid_of_forall h fun _ _ _ hg =>
    yields_colBackTab hg _)
  case h_25 => exact yields_now (h.tbc _)
  case h_26 => exact yields_now (h.ansiMode _ _)
  case h_27 => exact yields_now (h.ansiMode _ _)
  case h_28 => exact yields_now h.saveCursor
  case h_29 => exact yields_quiet (yields_restoreCursorScreen h)
  case h_30 => exact yields_quiet (yields_vpa h hp1)
  case h_31 => exact yields_now (h.sgr _)
  case h_32 =>
      have hrows : 1 ≤ s.currentGrid.size.rows := h.current.rows_eq ▸ h.current.rows_pos
      exact yields_quiet (yields_decstbm h (one_le_orDefault _ (le_refl 1))
        (one_le_orDefault _ hrows))
  case h_33 =>
      split_ifs
      · exact yields_now h
      · exact yields_now h
  case h_34 => exact yields_now h

theorem yields_csiPrivate (h : ScreenFits V size cap s) (params : List (List ℕ))
    (i2 : Option UInt8) (c : Char) : Yields (s.csiPrivate params i2 c) (Kept V size cap) := by
  unfold Screen.csiPrivate
  dsimp only
  split
  · exact yields_calling _ (yields_ed h _)
  · exact yields_calling _ (yields_el h _)
  · exact yields_calling _ (yields_eachParam (fun _ param ht => yields_decsetOne ht param) h params)
  · exact yields_calling _ (yields_eachParam (fun _ param ht => yields_decrstOne ht param) h params)
  · exact yields_now h

theorem yields_csiDispatch (hwidth : WidthLaw width) (h : ScreenFits V size cap s)
    (params : List (List ℕ)) (intermediates : List UInt8) (c : Char)
    (hview : V → ActionOk width s (.csiDispatch params intermediates c)) :
    Yields (s.csiDispatch width params intermediates c) (Kept V size cap) := by
  unfold Screen.csiDispatch
  dsimp only
  have h' : ScreenFits V size cap (if c = 'b' then s else s.breakRep) := by
    split_ifs
    · exact h
    · exact h.breakRep
  have hsame : c = 'b' → (if c = 'b' then s else s.breakRep) = s := fun hc => if_pos hc
  generalize (if c = 'b' then s else s.breakRep) = t at h' hsame ⊢
  split
  · refine yields_csiFinal hwidth h' params c fun hv => ?_
    intro _ hc
    rw [hsame hc]
    exact hview hv rfl hc
  · split_ifs
    · exact yields_csiPrivate h' params _ c
    · exact yields_quiet (yields_decstr h')
    · refine yields_now ?_
      show ScreenFits V size cap (t.decscusr _)
      unfold Screen.decscusr
      split_ifs
      · exact h'.congr rfl rfl rfl rfl
      · exact h'
    · exact yields_now h'

theorem yields_oscDispatch (h : ScreenFits V size cap s) (params : List (List UInt8)) (bel : Bool) :
    Yields (s.oscDispatch params bel) (Kept V size cap) := by
  unfold Screen.oscDispatch
  dsimp only
  split
  · exact yields_now h
  · split
    · exact yields_now h
    · split
      · exact yields_now h
      · split
        · exact yields_now h
        · split
          · split
            · exact yields_quiet (yields_osc8 h _ _)
            · split
              · exact yields_quiet (yields_osc8 h _ _)
              · exact yields_quiet (yields_osc8 h _ _)
          · split
            · split
              · exact yields_now h
              · exact yields_now h
            · exact yields_now h

/-- INTERNAL: Every action returns and keeps the screen in shape.
SRC: perform.rs:26-262 -/
theorem yields_perform (hwidth : WidthLaw width) (h : ScreenFits V size cap s) (a : Vt.Action)
    (hview : V → ActionOk width s a) : Yields (s.perform width a) (Kept V size cap) := by
  cases a with
  | print c =>
      show Yields (s.print width c) _
      unfold Screen.print
      split_ifs with hc1
      · exact yields_now h
      · exact yields_quiet (yields_text hwidth h c fun hv => hview hv hc1)
  | execute b => exact yields_execute h b hview
  | escDispatch intermediates b => exact yields_escDispatch h intermediates b hview
  | csiDispatch params intermediates c => exact yields_csiDispatch hwidth h params intermediates c hview
  | oscDispatch params bel => exact yields_oscDispatch h params bel
  | hook => exact yields_now h
  | put b => exact yields_now h
  | unhook => exact yields_now h

end

end Tymux.Analysis.Vt
