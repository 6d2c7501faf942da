import Tymux.Analysis.Vt.Drawing
import Tymux.Model.Vt.Perform

/-!
# Screens keep their shape

Both grids of a screen fit the same size. Every control works on the grid that is shown, so its
lemma is the one of the grid operation under `yields_withGrid`; the exceptions are the switches
between the grids and the hyperlink table, which renumbers the cells of both.
-/

set_option autoImplicit false

namespace Tymux.Analysis.Vt

open Tymux.Lib Tymux.Model Tymux.Model.Vt

/-! ## The invariant -/

/-- The representation invariant of a screen. The rows of the alternate grid are allocated when it
is first shown. -/
structure ScreenFits (V : Prop) (size : Size) (cap : ℕ) (s : Screen) : Prop where
  main : Fits ⟨size, cap, s.grid.freedRows, size.rows, V⟩ s.grid
  alternate : Fits ⟨size, 0, s.alternateGrid.freedRows, s.alternateGrid.rows.length, V⟩ s.alternateGrid
  drawn : s.alternateGrid.rows.length = 0 ∨ s.alternateGrid.rows.length = size.rows
  shown : s.modes.alternateScreen = true → s.alternateGrid.rows.length = size.rows
  mark : s.compactFreedMark ≤ s.freedRows

section

variable {V : Prop} {size : Size} {cap : ℕ} {s : Screen}

/-- The invariant is about the grids, which of them is shown, and the mark. -/
theorem ScreenFits.congr (h : ScreenFits V size cap s) {t : Screen} (hmain : t.grid = s.grid)
    (halt : t.alternateGrid = s.alternateGrid)
    (hshown : t.modes.alternateScreen = s.modes.alternateScreen)
    (hmark : t.compactFreedMark = s.compactFreedMark) : ScreenFits V size cap t := by
  have hfreed : t.freedRows = s.freedRows := by
    unfold Screen.freedRows
    rw [hmain, halt]
  refine ⟨?_, ?_, ?_, ?_, ?_⟩
  · rw [hmain]
    exact h.main
  · rw [halt]
    exact h.alternate
  · rw [halt]
    exact h.drawn
  · rw [halt, hshown]
    exact h.shown
  · rw [hmark, hfreed]
    exact h.mark

/-- The frame of the grid that is shown. -/
def shownFrame (V : Prop) (size : Size) (cap : ℕ) (s : Screen) : Frame :=
  ⟨size, if s.modes.alternateScreen then 0 else cap, s.currentGrid.freedRows, size.rows, V⟩

theorem Fits.rebase {b : Frame} {g : Grid} (h : Fits b g) : Fits { b with freed := g.freedRows } g :=
  { h with freed_le := le_refl _ }

theorem ScreenFits.current (h : ScreenFits V size cap s) :
    Fits (shownFrame V size cap s) s.currentGrid := by
  unfold shownFrame Screen.currentGrid
  cases halt : s.modes.alternateScreen with
  | true =>
      have hfit := h.alternate
      rw [h.shown halt] at hfit
      exact hfit
  | false => exact h.main

theorem ScreenFits.putGrid (h : ScreenFits V size cap s) {g : Grid}
    (hg : Fits (shownFrame V size cap s) g) : ScreenFits V size cap (s.putGrid g) := by
  have hmark := h.mark
  have hfreed := hg.freed_le
  unfold shownFrame Screen.currentGrid at hg hfreed
  unfold Screen.putGrid
  unfold Screen.freedRows at hmark
  cases halt : s.modes.alternateScreen with
  | true =>
      rw [halt] at hg hfreed
      replace hfreed : s.alternateGrid.freedRows ≤ g.freedRows := hfreed
      have hrows : g.rows.length = size.rows := hg.rows_len
      refine ⟨h.main, ?_, Or.inr hrows, fun _ => hrows, ?_⟩
      · have hfit := hg.rebase
        show Fits ⟨size, 0, g.freedRows, g.rows.length, V⟩ g
        rw [hrows]
        exact hfit
      · show s.compactFreedMark ≤ s.grid.freedRows + g.freedRows
        omega
  | false =>
      rw [halt] at hg hfreed
      replace hfreed : s.grid.freedRows ≤ g.freedRows := hfreed
      refine ⟨hg.rebase, h.alternate, h.drawn, ?_, ?_⟩
      · intro htrue
        rw [show s.modes.alternateScreen = true from htrue] at halt
        cases halt
      · show s.compactFreedMark ≤ g.freedRows + s.alternateGrid.freedRows
        omega

/-- INTERNAL: A change of the grid that is shown. -/
theorem yields_withGrid (h : ScreenFits V size cap s) {f : Grid → Option Grid}
    (hf : Yields (f s.currentGrid) (Fits (shownFrame V size cap s))) :
    Yields (s.withGrid f) (ScreenFits V size cap) := by
  unfold Screen.withGrid
  exact hf.map fun g hg => h.putGrid hg

/-- A change that any grid survives. -/
theorem yields_withGrid_of_forall (h : ScreenFits V size cap s) {f : Grid → Option Grid}
    (hf : ∀ (b : Frame) (g : Grid), b.drawn = b.size.rows → Fits b g → Yields (f g) (Fits b)) :
    Yields (s.withGrid f) (ScreenFits V size cap) :=
  yields_withGrid h (hf _ _ rfl h.current)

/-! ## The two grids -/

theorem yields_screenNew (hrows : 1 ≤ size.rows) (hcols : 1 ≤ size.cols)
    (hle : size.cols ≤ u16Max) (cap : ℕ) : Yields (Screen.new size cap) (ScreenFits V size cap) := by
  have hnew : ∀ n, Yields (Grid.new size n) fun g => g.rows = [] ∧ g.freedRows = 0 ∧
      g.scrollback = [] ∧ Fits ⟨size, n, 0, 0, V⟩ g := by
    intro n
    unfold Grid.new
    refine yields_bind_of_eq (checkedSub_of_le hrows) (yields_some ⟨rfl, rfl, rfl, ?_⟩)
    exact {
      size_eq := rfl
      cap_eq := rfl
      freed_le := le_refl _
      rows_pos := hrows
      cols_pos := hcols
      cols_le := hle
      rows_len := rfl
      rows_fit := by simp
      history_fit := by simp
      pos_row := hrows
      pos_col := Nat.zero_le _
      saved_row := hrows
      region_le := Nat.zero_le _
      region_lt := by show size.rows - 1 < size.rows; omega
      history_len := Nat.zero_le _
      offset_le := Nat.zero_le _
      view_full := by simp
      tabs_len := by simp [defaultTabStops] }
  unfold Screen.new
  refine (hnew cap).bind fun g hg => ?_
  refine (hnew 0).bind fun a ha => yields_some ?_
  obtain ⟨hgrows, hgfreed, hgsb, hgfit⟩ := hg
  obtain ⟨harows, hafreed, -, hafit⟩ := ha
  refine ⟨?_, ?_, Or.inl (by rw [harows]; rfl), by simp, Nat.zero_le _⟩
  · show Fits ⟨size, cap, g.allocateRows.freedRows, size.rows, V⟩ g.allocateRows
    unfold Grid.allocateRows
    rw [hgrows, List.isEmpty_nil, if_pos rfl]
    refine { hgfit.rebase with
      rows_len := by rw [hgfit.rows_eq]; exact List.length_replicate
      rows_fit := ?_
      view_full := ?_ }
    · intro row hrow
      rw [List.eq_of_mem_replicate hrow, hgfit.cols_eq]
      exact rowFits_new _
    · intro _ i row hi
      dsimp only at hi
      rw [hgsb] at hi
      cases hi
  · show Fits ⟨size, 0, a.freedRows, a.rows.length, V⟩ a
    rw [harows]
    exact hafit.rebase

theorem yields_setScrollbackScreen (h : ScreenFits V size cap s) (rows : ℕ) :
    Yields (s.setScrollback rows) (ScreenFits V size cap) :=
  yields_withGrid_of_forall h fun _ _ _ hg => yields_setScrollback hg rows

theorem yields_enterAlternateGrid (h : ScreenFits V size cap s) :
    Yields s.enterAlternateGrid (ScreenFits V size cap) := by
  unfold Screen.enterAlternateGrid
  split_ifs
  · exact yields_some h
  · refine (yields_setScrollbackScreen h 0).bind fun s h => yields_some ?_
    have halloc := h.alternate.allocateRows rfl h.drawn
    have hfreed : s.alternateGrid.allocateRows.freedRows = s.alternateGrid.freedRows := by
      unfold Grid.allocateRows
      split_ifs <;> rfl
    have hrows : s.alternateGrid.allocateRows.rows.length = size.rows := halloc.rows_len
    refine ⟨h.main, ?_, Or.inr hrows, fun _ => hrows, ?_⟩
    · show Fits ⟨size, 0, s.alternateGrid.allocateRows.freedRows,
        s.alternateGrid.allocateRows.rows.length, V⟩ _
      rw [hrows]
      exact halloc.rebase.cursor h.main.pos_row h.main.pos_col
    · have hmark := h.mark
      show s.compactFreedMark ≤ s.grid.freedRows + s.alternateGrid.allocateRows.freedRows
      rw [hfreed]
      exact hmark

theorem ScreenFits.exitAlternateGrid (h : ScreenFits V size cap s) :
    ScreenFits V size cap s.exitAlternateGrid := by
  unfold Screen.exitAlternateGrid
  split_ifs
  · refine ⟨?_, h.alternate, h.drawn, by simp, h.mark⟩
    exact h.main.cursor h.alternate.pos_row h.alternate.pos_col
  · exact h

theorem ScreenFits.saveCursor (h : ScreenFits V size cap s) :
    ScreenFits V size cap s.saveCursor :=
  { h.putGrid h.current.saveCursor with }

theorem ScreenFits.syncBlankAttrs (h : ScreenFits V size cap s) :
    ScreenFits V size cap s.syncBlankAttrs :=
  { h with main := { h.main with }, alternate := { h.alternate with } }

theorem yields_restoreCursorScreen (h : ScreenFits V size cap s) :
    Yields s.restoreCursor (ScreenFits V size cap) := by
  unfold Screen.restoreCursor
  refine (yields_withGrid_of_forall h fun _ _ _ hg => yields_restoreCursor hg).bind
    fun s h => yields_some ?_
  exact ScreenFits.syncBlankAttrs { h with }

/-- The alternate grid may be cleared while it is not shown. -/
theorem ScreenFits.putAlternate (h : ScreenFits V size cap s) {g : Grid}
    (hg : Fits ⟨size, 0, s.alternateGrid.freedRows, s.alternateGrid.rows.length, V⟩ g) :
    ScreenFits V size cap { s with alternateGrid := g } := by
  have hmark := h.mark
  have hfreed : s.alternateGrid.freedRows ≤ g.freedRows := hg.freed_le
  have hrows : g.rows.length = s.alternateGrid.rows.length := hg.rows_len
  unfold Screen.freedRows at hmark
  refine ⟨h.main, ?_, ?_, ?_, ?_⟩
  · show Fits ⟨size, 0, g.freedRows, g.rows.length, V⟩ g
    rw [hrows]
    exact hg.rebase
  · show g.rows.length = 0 ∨ g.rows.length = size.rows
    rw [hrows]
    exact h.drawn
  · intro hshown
    show g.rows.length = size.rows
    rw [hrows]
    exact h.shown hshown
  · show s.compactFreedMark ≤ s.grid.freedRows + g.freedRows
    omega

/-! ## Hyperlinks -/

/-- Renumbering the links of the cells leaves their kind alone. -/
theorem Fits.mapLinks {b : Frame} {g : Grid} (h : Fits b g) (f : ℕ → ℕ) :
    Fits b (Screen.mapLinks f g) := by
  have hpaired : ∀ cells : List Cell, PairedCells cells →
      PairedCells (cells.map fun c => { c with attrs.hyperlink := f c.attrs.hyperlink }) :=
    fun cells hcells => hcells.map (fun _ hc => hc) (fun _ hc => hc) (fun _ hc => hc)
  have hlen : (Screen.mapLinks f g).scrollback.length = g.scrollback.length := List.length_map _
  refine { h with
    rows_len := (List.length_map _).trans h.rows_len
    rows_fit := ?_
    history_fit := ?_
    history_len := by rw [hlen]; exact h.history_len
    offset_le := by rw [hlen]; exact h.offset_le
    view_full := ?_ }
  · intro row hrow
    obtain ⟨r, hr, rfl⟩ := List.mem_map.mp hrow
    have hfit := h.rows_fit r hr
    exact ⟨(List.length_map _).trans hfit.1, hpaired _ hfit.2⟩
  · intro row hrow
    obtain ⟨r, hr, rfl⟩ := List.mem_map.mp hrow
    have hfit := h.history_fit r hr
    exact ⟨(List.length_map _).trans_le hfit.1, hpaired _ hfit.2⟩
  · intro hv i row hi hlo hhi
    rw [hlen] at hlo hhi
    obtain ⟨r, hr, rfl⟩ := Option.map_eq_some_iff.mp ((List.getElem?_map).symm.trans hi)
    exact (List.length_map _).trans (h.view_full hv i r hr hlo hhi)

theorem ScreenFits.mapLinks (h : ScreenFits V size cap s) (f : ℕ → ℕ) :
    ScreenFits V size cap { s with
      grid := Screen.mapLinks f s.grid
      alternateGrid := Screen.mapLinks f s.alternateGrid } := by
  have hlen : (Screen.mapLinks f s.alternateGrid).rows.length = s.alternateGrid.rows.length :=
    List.length_map _
  refine ⟨h.main.mapLinks f, ?_, ?_, ?_, h.mark⟩
  · dsimp only
    rw [hlen]
    exact h.alternate.mapLinks f
  · dsimp only
    rw [hlen]
    exact h.drawn
  · dsimp only
    rw [hlen]
    exact h.shown

theorem ScreenFits.compactHyperlinks (h : ScreenFits V size cap s) :
    ScreenFits V size cap s.compactHyperlinks.1 := by
  unfold Screen.compactHyperlinks
  dsimp only
  split
  · exact { h with }
  · split
    · exact h
    · exact { h.mapLinks _ with }

theorem yields_makeRoom (h : ScreenFits V size cap s) :
    Yields s.makeRoom (ScreenFits V size cap) := by
  unfold Screen.makeRoom
  refine yields_bind_of_eq (checkedSub_of_le h.mark) ?_
  dsimp only
  have hreset : ScreenFits V size cap (if minRearmRows ≤ s.freedRows - s.compactFreedMark then
      { s with compactSkip := 0, compactDelay := 0 } else s) := by
    split_ifs
    · exact { h with }
    · exact h
  generalize (if minRearmRows ≤ s.freedRows - s.compactFreedMark then
    { s with compactSkip := 0, compactDelay := 0 } else s : Screen) = t at hreset
  split_ifs
  · exact yields_some { hreset with }
  · have hcompact := hreset.compactHyperlinks
    split
    case h_1 u hu =>
        rw [hu] at hcompact
        exact yields_some { hcompact with }
    case h_2 u hu =>
        rw [hu] at hcompact
        exact yields_some { hcompact with mark := le_refl _ }

theorem yields_linkTo (h : ScreenFits V size cap s) (link : String × String) :
    Yields (s.linkTo link) (ScreenFits V size cap) := by
  unfold Screen.linkTo
  split
  · exact yields_some { h with }
  · refine Yields.bind (Q := ScreenFits V size cap) ?_ fun t ht => ?_
    · split_ifs
      · exact yields_makeRoom h
      · exact yields_some h
    · split_ifs
      · exact yields_some { ht with }
      · split
        · exact yields_some { ht with }
        · exact yields_some { ht with }

theorem yields_osc8 (h : ScreenFits V size cap s) (params uri : List UInt8) :
    Yields (s.osc8 params uri) (ScreenFits V size cap) := by
  have hended : ScreenFits V size cap { s with lastClusterLive := false } := { h with }
  unfold Screen.osc8
  dsimp only
  split_ifs
  · exact yields_some { h with }
  · split
    · split_ifs
      · exact yields_some { h with }
      · exact yields_linkTo hended _
    · exact yields_some { h with }

/-! ## Drawing -/

variable {width : Char → Option ℕ}

/-- Drawing `c` makes the grid that is shown scroll while it is armed. -/
def DrawArms (width : Char → Option ℕ) (s : Screen) (c : Char) : Prop :=
  c.toNat ≠ 0xfeff ∧ ¬ (charWidth width c = none ∧ c.toNat < 256) ∧
    (charWidth width c).getD 1 ≤ s.currentGrid.size.cols ∧
    Wraps s.modes.noAutowrap s.currentGrid ((charWidth width c).getD 1) ∧ Armed s.currentGrid

/-- INTERNAL: A character is drawn.
SRC: screen.rs:1124-1358 -/
theorem yields_draw (hwidth : WidthLaw width) (h : ScreenFits V size cap s) (c : Char)
    (hview : V → ¬ DrawArms width s c) : Yields (s.draw width c) (ScreenFits V size cap) := by
  have hcur := h.current
  have hcols := hcur.cols_eq
  unfold Screen.draw
  split_ifs with hbom hcontrol
  · exact yields_some h
  · exact yields_some h
  · dsimp only
    split_ifs with hnarrow hfast
    · exact yields_some h
    · refine yields_withGrid h ?_
      obtain ⟨cells, hopen, hlen, hpaired⟩ := open_of_fits hcur rfl
      have hcol : s.currentGrid.pos.col < cells.length := by
        rw [hlen, ← hcols]
        exact hfast.2.1
      obtain ⟨cell, hcell⟩ : ∃ c, cells[s.currentGrid.pos.col]? = some c :=
        ⟨_, List.getElem?_eq_getElem hcol⟩
      have hdraw := hopen.drawingCell s.currentGrid.pos.col
      have hflags := hfast.2.2.2
      rw [show s.currentGrid.drawingCell s.currentGrid.pos = some cell from hdraw.trans hcell,
        Option.any_some, Bool.and_eq_true, Bool.not_eq_true', Bool.not_eq_true'] at hflags
      have hsingle : ∀ old : Cell, Single (old.set width c s.attrs) := by
        intro old
        refine single_set old s.attrs ?_
        rcases hwidth.charWidth c with ⟨-, hone⟩ | ⟨htwo, -⟩
        · exact hone
        · omega
      refine (hopen.modifyCell hcell _).bind fun g hg => yields_some ?_
      have hu16 := hcur.cols_le
      rw [colInc_one g (by rw [hg.2]; omega)]
      refine (hg.1.move (by rw [hg.2]; omega)).close (List.length_set.trans hlen) ?_
      refine hpaired.set_of_kind hcell (fun _ => hsingle cell) ?_ ?_
      · intro hF
        rw [hF.1] at hflags
        cases hflags.1
      · intro hC
        rw [hC.2] at hflags
        cases hflags.2
    · refine yields_withGrid h ?_
      have hw : (charWidth width c).getD 1 ≤ (shownFrame V size cap s).size.cols := by omega
      refine (yields_drawWrap hcur rfl s.attrs s.modes.noAutowrap hw ?_).bind fun r hr => ?_
      · intro hwraps hv harmed
        exact hview hv ⟨hbom, hcontrol, by omega, hwraps, harmed⟩
      · split_ifs with hdrawn
        · exact yields_drawAt hwidth hr.1 rfl s.attrs s.modes.insert c (hr.2 hdrawn)
        · exact yields_some hr.1

/-- The character that is drawn for `c` in the character set in use. -/
def mappedChar (s : Screen) (c : Char) : Char :=
  (s.charsets.g.get (s.charsets.singleShift.getD s.charsets.gl)).map c

theorem yields_text (hwidth : WidthLaw width) (h : ScreenFits V size cap s) (c : Char)
    (hview : V → ¬ DrawArms width s (mappedChar s c)) :
    Yields (s.text width c) (ScreenFits V size cap) := by
  unfold Screen.text
  have h' : ScreenFits V size cap { s with charsets.singleShift := none } := { h with }
  refine (yields_draw hwidth h' (mappedChar s c) hview).bind fun t ht => ?_
  split
  · exact yields_some ht
  · split_ifs
    · exact yields_some { ht with }
    · exact yields_some ht
  · exact yields_some { ht with }

/-- The characters that `REP` draws. -/
def repChars (s : Screen) (count : ℕ) : List Char :=
  if s.lastClusterLive then
    (List.replicate (min count (s.currentGrid.size.rows * s.currentGrid.size.cols))
      (s.lastBase :: s.lastMarks)).flatten
  else []

theorem yields_rep (hwidth : WidthLaw width) (h : ScreenFits V size cap s) (count : ℕ)
    (hview : V → Along (fun s c => Screen.draw width s c) (fun s c => ¬ DrawArms width s c) s
      (repChars s count)) :
    Yields (s.rep width count) (ScreenFits V size cap) := by
  unfold Screen.rep
  split_ifs with hlive
  · unfold repChars at hview
    rw [if_pos hlive] at hview
    have hloop := repeatM_foldlM (fun s c => Screen.draw width s c) (s.lastBase :: s.lastMarks)
      (min count (s.currentGrid.size.rows * s.currentGrid.size.cols)) s
    refine Yields.bind (Q := ScreenFits V size cap) ?_ fun t ht => yields_some { ht with }
    rw [show (fun t : Screen => do
        let t ← t.draw width s.lastBase
        s.lastMarks.foldlM (fun t c => t.draw width c) t) =
        fun t => (s.lastBase :: s.lastMarks).foldlM (fun t c => t.draw width c) t from
      funext fun t => (List.foldlM_cons).symm, hloop]
    refine yields_foldlM_along (ScreenFits V size cap) ?_ _ h (along_of_imp hview)
    intro t c ht hP
    exact yields_draw hwidth ht c hP
  · exact yields_some h

end

end Tymux.Analysis.Vt
