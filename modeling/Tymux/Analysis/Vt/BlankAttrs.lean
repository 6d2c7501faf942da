import Tymux.Lib.Ensures
import Tymux.Analysis.Vt.RelabelledScreens

/-!
# Blank cells have no link

The attributes of blank cells are set from the pen, without its link, and no operation on a grid
changes them.
-/

set_option autoImplicit false

namespace Tymux.Analysis.Vt

open Tymux.Lib Tymux.Model Tymux.Model.Vt

/-! ## Grids -/

/-- The grid that comes out has the blank attributes `blank`. -/
def Blanks (blank : Attrs) (m : Option Grid) : Prop := Ensures m fun g => g.blankAttrs = blank

section

variable {blank : Attrs} {g : Grid}

theorem blanks_some (h : g.blankAttrs = blank) : Blanks blank (some g) := ensures_some h

theorem Blanks.bind {m : Option Grid} {f : Grid → Option Grid} (h : Blanks blank m)
    (hf : ∀ g : Grid, g.blankAttrs = blank → Blanks blank (f g)) : Blanks blank (m >>= f) :=
  Ensures.bind h hf

theorem blanks_bind {α : Type} {m : Option α} {f : α → Option Grid}
    (hf : ∀ a, Blanks blank (f a)) : Blanks blank (m >>= f) := ensures_bind hf

theorem Blanks.ite {c : Prop} [Decidable c] {m n : Option Grid} (hthen : Blanks blank m)
    (helse : Blanks blank n) : Blanks blank (if c then m else n) := Ensures.ite hthen helse

theorem blanks_ite {c : Prop} [Decidable c] {g' : Grid} (h : g.blankAttrs = blank)
    (h' : g'.blankAttrs = blank) : Blanks blank (some (if c then g else g')) := by
  refine blanks_some ?_
  split_ifs
  · exact h
  · exact h'

theorem blanks_repeatM {f : Grid → Option Grid}
    (hf : ∀ g : Grid, g.blankAttrs = blank → Blanks blank (f g)) (n : ℕ) (h : g.blankAttrs = blank) :
    Blanks blank (repeatM f n g) :=
  ensures_repeatM (fun g : Grid => g.blankAttrs = blank) hf n h

variable (h : g.blankAttrs = blank)

include h

theorem blanks_rowClampTop (limit : Bool) : (g.rowClampTop limit).blankAttrs = blank := by
  unfold Grid.rowClampTop
  split_ifs
  · exact h
  · exact h

theorem blanks_rowClampBottom (limit : Bool) :
    Ensures (g.rowClampBottom limit) fun r => r.1.blankAttrs = blank := by
  unfold Grid.rowClampBottom
  exact ensures_bind fun bottom => Ensures.ite (ensures_bind fun rows => ensures_some h) (ensures_some h)

theorem blanks_rowClamp : Blanks blank g.rowClamp := by
  unfold Grid.rowClamp
  exact blanks_bind fun last => blanks_ite h h

theorem blanks_colClamp : Blanks blank g.colClamp := by
  unfold Grid.colClamp
  exact blanks_bind fun last => blanks_ite h h

theorem blanks_setPos (pos : Pos) : Blanks blank (g.setPos pos) := by
  unfold Grid.setPos
  refine Ensures.bind (blanks_rowClampBottom ?_ _) fun r hr => blanks_colClamp hr
  refine blanks_rowClampTop ?_ _
  exact h

theorem blanks_modifyCurrentRow (f : Row → Option Row) : Blanks blank (g.modifyCurrentRow f) := by
  unfold Grid.modifyCurrentRow
  exact blanks_bind fun rows => blanks_some h

theorem blanks_modifyCell (pos : Pos) (f : Cell → Cell) : Blanks blank (g.modifyCell pos f) := by
  unfold Grid.modifyCell
  exact blanks_bind fun rows => blanks_some h

theorem blanks_padScrollbackWindow : Blanks blank g.padScrollbackWindow := by
  unfold Grid.padScrollbackWindow
  exact blanks_bind fun skip => blanks_some h

theorem blanks_clear : Blanks blank g.clear := by
  unfold Grid.clear
  exact blanks_bind fun bottom => blanks_some h

theorem blanks_allocateRows : g.allocateRows.blankAttrs = blank := by
  unfold Grid.allocateRows
  split_ifs
  · exact h
  · exact h

theorem blanks_setSize (size : Size) (reflow : Bool) : Blanks blank (g.setSize size reflow) := by
  unfold Grid.setSize
  refine Blanks.ite (blanks_some h) (blanks_bind fun r => blanks_bind fun b => ?_)
  refine blanks_bind fun lastRow => blanks_bind fun lastCol => ?_
  refine Blanks.bind (blanks_padScrollbackWindow h) fun g hg => ?_
  exact blanks_bind fun tabStops => blanks_some hg

theorem blanks_eraseRowForward (attrs : Attrs) : Blanks blank (g.eraseRowForward attrs) :=
  blanks_modifyCurrentRow h _

theorem blanks_eraseRowBackward (attrs : Attrs) : Blanks blank (g.eraseRowBackward attrs) :=
  blanks_bind fun _ => blanks_modifyCurrentRow h _

theorem blanks_eraseAllBackward (attrs : Attrs) : Blanks blank (g.eraseAllBackward attrs) := by
  unfold Grid.eraseAllBackward
  refine Blanks.bind (blanks_eraseRowBackward ?_ attrs) fun g hg => ?_
  · exact h
  refine Blanks.bind (blanks_modifyCurrentRow hg _) fun g hg => ?_
  refine Blanks.ite (Blanks.ite ?_ ?_) (blanks_some hg)
  · exact blanks_bind fun back => blanks_some hg
  · exact blanks_bind fun next => blanks_some hg

theorem blanks_insertCells (count : ℕ) : Blanks blank (g.insertCells count) :=
  blanks_bind fun _ => blanks_modifyCurrentRow h _

theorem blanks_deleteCells (count : ℕ) : Blanks blank (g.deleteCells count) :=
  blanks_bind fun _ => blanks_modifyCurrentRow h _

theorem blanks_insertLines (count : ℕ) : Blanks blank (g.insertLines count) := by
  unfold Grid.insertLines
  refine Blanks.bind (blanks_colClamp h) fun g hg => Blanks.ite (blanks_some hg) ?_
  refine blanks_bind fun left => blanks_repeatM (fun g hg => ?_) _ hg
  exact blanks_bind fun r => blanks_bind fun rows => blanks_some hg

theorem blanks_deleteLines (count : ℕ) : Blanks blank (g.deleteLines count) := by
  unfold Grid.deleteLines
  refine Blanks.bind (blanks_colClamp h) fun g hg => Blanks.ite (blanks_some hg) ?_
  refine blanks_bind fun left => blanks_repeatM (fun g hg => ?_) _ hg
  exact blanks_bind fun rows => blanks_bind fun r => blanks_some hg

theorem blanks_scrollRegionUp (count : ℕ) (feed : Bool) :
    Blanks blank (g.scrollRegionUp count feed) := by
  unfold Grid.scrollRegionUp
  refine blanks_bind fun height => blanks_repeatM (fun g hg => ?_) _ h
  unfold Grid.scrollOne
  refine blanks_bind fun rows => blanks_bind fun r => Blanks.ite (blanks_some hg) (blanks_some hg)

theorem blanks_scrollDown (count : ℕ) (bce : Bool) : Blanks blank (g.scrollDown count bce) := by
  unfold Grid.scrollDown
  refine blanks_bind fun height => blanks_repeatM (fun g hg => ?_) _ h
  exact blanks_bind fun r => blanks_bind fun rows => blanks_some hg

theorem blanks_setScrollRegion (top bottom : ℕ) : Blanks blank (g.setScrollRegion top bottom) := by
  unfold Grid.setScrollRegion
  exact blanks_bind fun last => blanks_ite h h

theorem blanks_rowIncClamp (count : ℕ) : Blanks blank (g.rowIncClamp count) := by
  unfold Grid.rowIncClamp
  refine Ensures.bind (blanks_rowClampBottom ?_ _) fun r hr => blanks_some hr
  exact h

theorem blanks_rowIncScroll (count : ℕ) :
    Ensures (g.rowIncScroll count) fun r => r.1.blankAttrs = blank := by
  unfold Grid.rowIncScroll
  refine Ensures.bind (Q := fun r => r.1.blankAttrs = blank) (blanks_rowClampBottom ?_ _) fun r hr => ?_
  · exact h
  refine Ensures.ite ?_ (ensures_some hr)
  exact Ensures.bind (blanks_scrollRegionUp hr _ _) fun g hg => ensures_some hg

theorem blanks_lineFeed : Blanks blank g.lineFeed := by
  unfold Grid.lineFeed
  refine Ensures.bind (blanks_rowIncScroll h 1) fun r hr => ?_
  refine Blanks.bind (Blanks.ite ?_ (blanks_some hr)) fun g hg => blanks_colClamp hg
  exact blanks_modifyCurrentRow hr _

theorem blanks_rowDecClamp (count : ℕ) : (g.rowDecClamp count).blankAttrs = blank :=
  blanks_rowClampTop (g := { g with pos := { g.pos with row := g.pos.row - count } }) h _

theorem blanks_reverseIndex : Blanks blank g.reverseIndex := by
  unfold Grid.reverseIndex
  refine Blanks.bind (blanks_colClamp h) fun g hg => ?_
  exact Blanks.ite (blanks_scrollDown hg 1 true) (blanks_some hg)

theorem blanks_colSet (i : ℕ) : Blanks blank (g.colSet i) :=
  blanks_colClamp (g := { g with pos := { g.pos with col := i } }) h

theorem blanks_colDecRestricted (count : ℕ) : Blanks blank (g.colDecRestricted count) :=
  Blanks.bind (blanks_colClamp h) fun _ hg => blanks_some hg

theorem blanks_colForwardTab (count : ℕ) : Blanks blank (g.colForwardTab count) := by
  unfold Grid.colForwardTab
  refine Blanks.ite (blanks_some h) ?_
  refine Blanks.bind (blanks_repeatM (fun g hg => ?_) count h) fun g hg => blanks_colClamp hg
  exact blanks_bind fun next => blanks_bind fun last => blanks_some hg

theorem blanks_colBackTab (count : ℕ) : Blanks blank (g.colBackTab count) := by
  unfold Grid.colBackTab
  refine blanks_repeatM (fun g hg => ?_) count h
  exact blanks_bind fun last => blanks_bind fun prev => blanks_some hg

theorem blanks_colWrap (width : ℕ) : Blanks blank (g.colWrap width) := by
  unfold Grid.colWrap
  refine blanks_bind fun last => Blanks.ite ?_ (blanks_some h)
  refine Ensures.bind (blanks_rowIncScroll ?_ 1) fun r hr => blanks_modifyCurrentRow hr _
  exact h

/-! ### Drawing -/

theorem blanks_drawMark (c : Char) : Blanks blank (Screen.drawMark g c) := by
  unfold Screen.drawMark
  refine Blanks.ite ?_ (Blanks.ite (Blanks.ite ?_ (blanks_some h)) (blanks_some h))
  · refine blanks_bind fun prev => Blanks.ite (blanks_bind fun col => ?_) ?_
    · exact blanks_modifyCell h _ _
    · exact blanks_modifyCell h _ _
  · refine blanks_bind fun last => blanks_bind fun prev => Blanks.ite (blanks_bind fun col => ?_) ?_
    · exact blanks_modifyCell h _ _
    · exact blanks_modifyCell h _ _

theorem blanks_tryModifyCell (pos : Pos) (f : Cell → Cell) :
    Blanks blank (Screen.tryModifyCell g pos f) :=
  Blanks.ite (blanks_modifyCell h pos f) (blanks_some h)

theorem blanks_drawFirst (width : Char → Option ℕ) (attrs : Attrs) (c : Char) :
    Blanks blank (Screen.drawFirst width attrs g c) := by
  unfold Screen.drawFirst
  refine blanks_bind fun cell => Blanks.bind (Blanks.ite (blanks_bind fun col => ?_) (blanks_some h))
    fun g hg => blanks_bind fun cell => ?_
  · exact blanks_modifyCell h _ _
  refine Blanks.bind (Blanks.ite (blanks_tryModifyCell hg _ _) (blanks_some hg)) fun g hg => ?_
  exact Blanks.bind (blanks_modifyCell hg _ _) fun g hg => blanks_some hg

theorem blanks_drawSecond (attrs : Attrs) : Blanks blank (Screen.drawSecond attrs g) := by
  unfold Screen.drawSecond
  refine blanks_bind fun cell => ?_
  refine Blanks.bind (Blanks.ite (blanks_tryModifyCell h _ _) (blanks_some h)) fun g hg => ?_
  exact Blanks.bind (blanks_modifyCell hg _ _) fun g hg => blanks_some hg

theorem blanks_drawAt (width : Char → Option ℕ) (attrs : Attrs) (insert : Bool) (c : Char) (w : ℕ) :
    Blanks blank (Screen.drawAt width attrs insert g c w) := by
  unfold Screen.drawAt
  refine Blanks.bind (Blanks.ite (blanks_insertCells h w) (blanks_some h)) fun g hg => ?_
  refine Blanks.ite (blanks_drawMark hg c) ?_
  refine Blanks.bind (blanks_drawFirst hg width attrs c) fun g hg => ?_
  exact Blanks.ite (blanks_drawSecond hg attrs) (blanks_some hg)

theorem blanks_drawWrap (attrs : Attrs) (noAutowrap : Bool) (w : ℕ) :
    Ensures (Screen.drawWrap attrs noAutowrap g w) fun r => r.1.blankAttrs = blank := by
  unfold Screen.drawWrap
  refine Ensures.ite (ensures_bind fun last => Ensures.ite (ensures_bind fun lastCol => ?_) ?_) ?_
  · exact Ensures.bind (blanks_colSet h lastCol) fun g hg => ensures_some hg
  · exact ensures_some h
  · refine Ensures.bind (Q := fun g : Grid => g.blankAttrs = blank) ?_ fun g hg => ?_
    · unfold Screen.blankLast
      refine Blanks.ite (blanks_bind fun last => Blanks.ite ?_ (blanks_some h)) (blanks_some h)
      exact blanks_modifyCurrentRow h _
    · exact Ensures.bind (blanks_colWrap hg w) fun g hg => ensures_some hg

end

/-! ## Screens -/

/-- Blank cells of either grid have no link. -/
def Unlinked (s : Screen) : Prop :=
  s.grid.blankAttrs.hyperlink = 0 ∧ s.alternateGrid.blankAttrs.hyperlink = 0

/-- Every screen that comes out is unlinked. -/
def Unlinks (m : Option Screen) : Prop := Ensures m Unlinked

theorem unlinks_new (size : Size) (cap : ℕ) : Unlinks (Screen.new size cap) := by
  have hnew : ∀ n, Blanks {} (Grid.new size n) := fun n => blanks_bind fun bottom => blanks_some rfl
  unfold Screen.new
  refine Ensures.bind (hnew cap) fun g hg => Ensures.bind (hnew 0) fun g' hg' => ensures_some ?_
  constructor
  · exact congrArg Attrs.hyperlink (blanks_allocateRows hg)
  · exact congrArg Attrs.hyperlink hg'

section

variable {s : Screen} (h : Unlinked s)

include h

theorem Unlinked.putGrid {g : Grid} (hg : g.blankAttrs = s.currentGrid.blankAttrs) :
    Unlinked (s.putGrid g) := by
  unfold Screen.currentGrid at hg
  unfold Screen.putGrid
  split_ifs at hg ⊢
  · exact ⟨h.1, (congrArg Attrs.hyperlink hg).trans h.2⟩
  · exact ⟨(congrArg Attrs.hyperlink hg).trans h.1, h.2⟩

/-- A change of the grid that is shown. -/
theorem unlinks_withGrid {f : Grid → Option Grid}
    (hf : Blanks s.currentGrid.blankAttrs (f s.currentGrid)) : Unlinks (s.withGrid f) :=
  Ensures.map hf fun _ hg => h.putGrid hg

/-- A change of the grid that is shown, with the cursor pulled back first. -/
theorem unlinks_clamped {f : Grid → Option Grid}
    (hf : ∀ g : Grid, g.blankAttrs = s.currentGrid.blankAttrs →
      Blanks s.currentGrid.blankAttrs (f g)) :
    Unlinks (s.withGrid fun g => g.colClamp >>= f) :=
  unlinks_withGrid h (Blanks.bind (blanks_colClamp rfl) hf)

theorem unlinks_setSize (rows cols : ℕ) : Unlinks (s.setSize rows cols) := by
  unfold Screen.setSize
  refine Ensures.bind (blanks_setSize rfl _ true) fun g hg => ?_
  refine Ensures.bind (blanks_setSize rfl _ false) fun g' hg' => ensures_some ?_
  exact ⟨(congrArg Attrs.hyperlink hg).trans h.1, (congrArg Attrs.hyperlink hg').trans h.2⟩

theorem unlinks_setScrollback (rows : ℕ) : Unlinks (s.setScrollback rows) :=
  unlinks_withGrid h (blanks_padScrollbackWindow rfl)

theorem unlinks_enterAlternateGrid : Unlinks s.enterAlternateGrid := by
  unfold Screen.enterAlternateGrid
  refine Ensures.ite (ensures_some h) (Ensures.bind (unlinks_setScrollback h 0) fun t ht => ?_)
  exact ensures_some ⟨ht.1, (congrArg Attrs.hyperlink (blanks_allocateRows rfl)).trans ht.2⟩

theorem Unlinked.exitAlternateGrid : Unlinked s.exitAlternateGrid := by
  unfold Screen.exitAlternateGrid
  split_ifs
  · exact h
  · exact h

theorem Unlinked.saveCursor : Unlinked s.saveCursor := h.putGrid rfl

omit h in
theorem unlinked_syncBlankAttrs (s : Screen) : Unlinked s.syncBlankAttrs := ⟨rfl, rfl⟩

omit h in
theorem unlinks_restoreCursor (s : Screen) : Unlinks s.restoreCursor :=
  ensures_bind fun _ => ensures_some (unlinked_syncBlankAttrs _)

/-! ### Text and controls -/

theorem unlinks_draw (width : Char → Option ℕ) (c : Char) : Unlinks (s.draw width c) := by
  unfold Screen.draw
  refine Ensures.ite (ensures_some h) (Ensures.ite (ensures_some h) ?_)
  refine Ensures.ite (ensures_some h) (Ensures.ite ?_ ?_)
  · refine unlinks_withGrid h (Blanks.bind (blanks_modifyCell rfl _ _) fun g hg => ?_)
    exact blanks_some hg
  · refine unlinks_withGrid h (Ensures.bind (blanks_drawWrap rfl _ _ _) fun r hr => ?_)
    exact Blanks.ite (blanks_drawAt hr _ _ _ _ _) (blanks_some hr)

theorem unlinks_text (width : Char → Option ℕ) (c : Char) : Unlinks (s.text width c) := by
  have hnote : ∀ (t : Screen) (c : Char), Unlinked t → Unlinked (noteDrawn width c t) := by
    intro t c ht
    unfold noteDrawn
    split
    · exact ht
    · split_ifs
      · exact ht
      · exact ht
    · exact ht
  rw [text_eq]
  refine Ensures.map (unlinks_draw (s := { s with charsets.singleShift := none }) h width _) ?_
  exact fun t ht => hnote t _ ht

theorem unlinks_rep (width : Char → Option ℕ) (count : ℕ) : Unlinks (s.rep width count) := by
  unfold Screen.rep
  refine Ensures.ite ?_ (ensures_some h)
  refine Ensures.bind (Q := Unlinked) ?_ fun t ht => ensures_some ht
  refine ensures_repeatM Unlinked (fun t ht => ?_) _ h
  refine Ensures.bind (unlinks_draw ht width _) fun t ht => ?_
  exact ensures_foldlM Unlinked (fun t c ht => unlinks_draw ht width c) _ ht

theorem unlinks_ed (mode : ℕ) : Ensures (s.ed mode) fun r => Unlinked r.1 := by
  match mode with
  | 0 => exact Ensures.map (unlinks_withGrid h (blanks_eraseRowForward rfl _)) fun t ht => ht
  | 1 => exact Ensures.map (unlinks_withGrid h (blanks_eraseAllBackward rfl _)) fun t ht => ht
  | 2 => exact ensures_some (h.putGrid rfl)
  | _ + 3 => exact ensures_some h

theorem unlinks_el (mode : ℕ) : Ensures (s.el mode) fun r => Unlinked r.1 := by
  match mode with
  | 0 => exact Ensures.map (unlinks_withGrid h (blanks_eraseRowForward rfl _)) fun t ht => ht
  | 1 => exact Ensures.map (unlinks_withGrid h (blanks_eraseRowBackward rfl _)) fun t ht => ht
  | 2 => exact Ensures.map (unlinks_withGrid h (blanks_modifyCurrentRow rfl _)) fun t ht => ht
  | _ + 3 => exact ensures_some h

theorem unlinks_tbc (mode : ℕ) : Unlinked (s.tbc mode).1 := by
  match mode with
  | 0 => exact h.putGrid rfl
  | 1 => exact h
  | 2 => exact h
  | 3 => exact h.putGrid rfl
  | _ + 4 => exact h

/-- The screen that is made of a parameter, if it is one that is handled. -/
def UnlinksOne (m : Option (Option Screen)) : Prop :=
  Ensures m fun done => ∀ t, done = some t → Unlinked t

omit h in
theorem unlinksOne_handled {t : Screen} (ht : Unlinked t) : UnlinksOne (Screen.handled t) := by
  refine ensures_some fun t' ht' => ?_
  rw [Option.some_inj] at ht'
  exact ht' ▸ ht

omit h in
theorem unlinksOne_map {m : Option Screen} (hm : Unlinks m) : UnlinksOne (m.map some) := by
  refine Ensures.map hm fun t ht t' ht' => ?_
  rw [Option.some_inj] at ht'
  exact ht' ▸ ht

omit h in
theorem unlinksOne_none : UnlinksOne (some none) := ensures_some fun _ hnone => by cases hnone

theorem unlinks_clearAlternate :
    Unlinks (s.alternateGrid.clear.map fun g => { s with alternateGrid := g }) :=
  Ensures.map (blanks_clear rfl) fun _ hg => ⟨h.1, (congrArg Attrs.hyperlink hg).trans h.2⟩

theorem unlinks_decsetOne (param : List ℕ) : UnlinksOne (s.decsetOne param) := by
  unfold Screen.decsetOne
  split
  case h_3 => exact unlinksOne_map (unlinks_withGrid h (blanks_setPos rfl _))
  case h_7 => exact unlinksOne_map (unlinks_enterAlternateGrid h)
  case h_8 => exact unlinksOne_map (unlinks_enterAlternateGrid h)
  case h_9 => exact unlinksOne_handled h.saveCursor
  case h_17 =>
      refine Ensures.bind (Q := Unlinked) ?_ fun t ht => unlinksOne_map (unlinks_enterAlternateGrid ht)
      exact Ensures.ite (ensures_some h.saveCursor) (unlinks_clearAlternate h.saveCursor)
  case h_19 => exact unlinksOne_none
  all_goals exact unlinksOne_handled h

theorem Unlinked.clearMouseMode (mode : MouseProtocolMode) : Unlinked (s.clearMouseMode mode) := by
  unfold Screen.clearMouseMode
  split_ifs
  · exact h
  · exact h

theorem Unlinked.clearMouseEncoding (encoding : MouseProtocolEncoding) :
    Unlinked (s.clearMouseEncoding encoding) := by
  unfold Screen.clearMouseEncoding
  split_ifs
  · exact h
  · exact h

theorem unlinks_decrstOne (param : List ℕ) : UnlinksOne (s.decrstOne param) := by
  unfold Screen.decrstOne
  split
  case h_3 => exact unlinksOne_map (unlinks_withGrid h (blanks_setPos rfl _))
  case h_5 => exact unlinksOne_handled (h.clearMouseMode _)
  case h_7 => exact unlinksOne_handled h.exitAlternateGrid
  case h_8 =>
      refine Ensures.map (blanks_clear rfl) fun g hg t ht => ?_
      rw [Option.some_inj] at ht
      subst ht
      exact ⟨h.exitAlternateGrid.1, (congrArg Attrs.hyperlink hg).trans h.exitAlternateGrid.2⟩
  case h_9 => exact unlinksOne_map (unlinks_restoreCursor s)
  case h_10 => exact unlinksOne_handled (h.clearMouseMode _)
  case h_11 => exact unlinksOne_handled (h.clearMouseMode _)
  case h_12 => exact unlinksOne_handled (h.clearMouseMode _)
  case h_13 => exact unlinksOne_handled (h.clearMouseEncoding _)
  case h_14 => exact unlinksOne_handled (h.clearMouseEncoding _)
  case h_15 => exact unlinksOne_handled (h.clearMouseEncoding _)
  case h_17 => exact unlinksOne_map (unlinks_restoreCursor _)
  case h_19 => exact unlinksOne_none
  all_goals exact unlinksOne_handled h

theorem unlinks_eachParam {f : Screen → List ℕ → Option (Option Screen)}
    (hf : ∀ t param, Unlinked t → UnlinksOne (f t param)) (params : List (List ℕ)) :
    Ensures (s.eachParam f params) fun r => Unlinked r.1 := by
  unfold Screen.eachParam
  refine ensures_foldlM (fun r : Screen × ℕ => Unlinked r.1) (fun r param hr => ?_) params h
  refine Ensures.map (hf r.1 param hr) fun done hdone => ?_
  cases done with
  | none => exact hr
  | some t => exact hdone t rfl

theorem unlinks_ansiMode (params : List (List ℕ)) (on : Bool) :
    Unlinked (s.ansiMode params on).1 := by
  unfold Screen.ansiMode
  generalize hn : 0 = n
  clear hn
  induction params generalizing s n with
  | nil => exact h
  | cons param params ih =>
      rw [List.foldl_cons]
      split
      · exact ih (s := { s with modes := { s.modes with insert := on } }) h n
      · exact ih (s := { s with modes := { s.modes with newline := on } }) h n
      · exact ih h (n + 1)

theorem Unlinked.scs (slot finalByte : UInt8) : Unlinked (s.scs slot finalByte) := by
  unfold Screen.scs
  dsimp only
  split
  · exact h
  · exact h

/-! ### The table -/

theorem Unlinked.compactHyperlinks : Unlinked s.compactHyperlinks.1 := by
  unfold Screen.compactHyperlinks
  dsimp only
  split
  · exact h
  · split
    · exact h
    · exact h

theorem unlinks_makeRoom : Unlinks s.makeRoom := by
  unfold Screen.makeRoom
  refine ensures_bind fun freed => ?_
  have hreset : Unlinked (if minRearmRows ≤ freed then
      { s with compactSkip := 0, compactDelay := 0 } else s) := by
    split_ifs
    · exact h
    · exact h
  generalize (if minRearmRows ≤ freed then
    { s with compactSkip := 0, compactDelay := 0 } else s : Screen) = t at hreset ⊢
  refine Ensures.ite (ensures_some hreset) ?_
  have hcompact := hreset.compactHyperlinks
  match hc : t.compactHyperlinks with
  | (t', true) =>
      rw [hc] at hcompact
      exact ensures_some hcompact
  | (t', false) =>
      rw [hc] at hcompact
      exact ensures_some hcompact

theorem unlinks_linkTo (link : String × String) : Unlinks (s.linkTo link) := by
  unfold Screen.linkTo
  split
  · exact ensures_some h
  · refine Ensures.bind (Q := Unlinked) ?_ fun t ht => Ensures.ite (ensures_some ht) ?_
    · exact Ensures.ite (unlinks_makeRoom h) (ensures_some h)
    · split
      · exact ensures_some ht
      · exact ensures_some ht

theorem unlinks_osc8 (params uri : List UInt8) : Unlinks (s.osc8 params uri) := by
  unfold Screen.osc8
  refine Ensures.ite (ensures_some h) ?_
  split
  · exact Ensures.ite (ensures_some h) (unlinks_linkTo (s := { s with lastClusterLive := false }) h _)
  · exact ensures_some h

/-! ### Dispatch -/

/-- The screen that is left after an action. -/
def UnlinksCalls (m : Screen.Performed) : Prop := Ensures m fun r => Unlinked r.1

omit h in
theorem unlinks_quiet {m : Option Screen} (hm : Unlinks m) : UnlinksCalls (Screen.quiet m) :=
  Ensures.map hm fun _ ht => ht

omit h in
theorem unlinks_calling {m : Option (Screen × ℕ)} (hm : Ensures m fun r => Unlinked r.1)
    (callback : Callback) : UnlinksCalls (m.map (Screen.calling callback)) :=
  Ensures.map hm fun _ ht => ht

theorem unlinks_lf : Unlinks s.lf := by
  unfold Screen.lf
  refine Ensures.bind (Ensures.ite (unlinks_withGrid h (blanks_colSet rfl 0)) (ensures_some h)) ?_
  exact fun t ht => unlinks_withGrid ht (blanks_lineFeed rfl)

theorem unlinks_ind : Unlinks s.ind :=
  unlinks_clamped h fun g hg => Ensures.bind (blanks_rowIncScroll hg 1) fun r hr => blanks_some hr

theorem unlinks_execute (b : UInt8) : UnlinksCalls (s.execute b) := by
  have hbreak : Unlinked (if b = 14 ∨ b = 15 then s else s.breakRep) := by
    split_ifs
    · exact h
    · exact h
  unfold Screen.execute
  generalize (if b = 14 ∨ b = 15 then s else s.breakRep) = t at hbreak ⊢
  dsimp only
  split
  · exact ensures_some hbreak
  · exact unlinks_quiet (unlinks_withGrid hbreak (blanks_colDecRestricted rfl 1))
  · exact unlinks_quiet (unlinks_withGrid hbreak (blanks_colForwardTab rfl 1))
  · exact unlinks_quiet (unlinks_lf hbreak)
  · exact unlinks_quiet (unlinks_lf hbreak)
  · exact unlinks_quiet (unlinks_lf hbreak)
  · exact unlinks_quiet (unlinks_withGrid hbreak (blanks_colSet rfl 0))
  · exact ensures_some hbreak
  · exact ensures_some hbreak
  · exact ensures_some hbreak

theorem unlinks_escFinal (b : UInt8) : UnlinksCalls (s.escFinal b) := by
  unfold Screen.escFinal
  split
  case h_1 => exact unlinks_quiet (unlinks_ind h)
  case h_2 =>
      refine unlinks_quiet (Ensures.bind (unlinks_withGrid h (blanks_colSet rfl 0)) fun t ht => ?_)
      exact unlinks_ind ht
  case h_3 => exact ensures_some (h.putGrid rfl)
  case h_8 => exact ensures_some h.saveCursor
  case h_9 => exact unlinks_quiet (unlinks_restoreCursor s)
  case h_12 => exact unlinks_quiet (unlinks_withGrid h (blanks_reverseIndex rfl))
  case h_13 => exact unlinks_quiet (unlinks_new _ _)
  all_goals exact ensures_some h

theorem unlinks_escDispatch (width : Char → Option ℕ) (intermediates : List UInt8) (b : UInt8) :
    UnlinksCalls (s.escDispatch width intermediates b) := by
  have hbreak : Unlinked s.breakRep := h
  unfold Screen.escDispatch
  match intermediates with
  | [] => exact unlinks_escFinal hbreak b
  | [i] =>
      refine Ensures.ite (ensures_some (hbreak.scs i b)) (Ensures.ite ?_ (ensures_some hbreak))
      exact unlinks_quiet (unlinks_withGrid hbreak (blanks_bind fun bottom => blanks_some rfl))
  | _ :: _ :: _ => exact ensures_some hbreak

theorem unlinks_moved {f : Grid → Grid} (hf : ∀ g : Grid, (f g).blankAttrs = g.blankAttrs) :
    Unlinks (s.withGrid fun g => g.colClamp >>= fun g => some (f g)) :=
  unlinks_clamped h fun g hg => blanks_some ((hf g).trans hg)

theorem unlinks_csiFinal (width : Char → Option ℕ) (params : List (List ℕ)) (c : Char) :
    UnlinksCalls (s.csiFinal width params c) := by
  have hcud : ∀ n, Unlinks (s.cud n) := fun n =>
    unlinks_clamped h fun g hg => blanks_rowIncClamp hg n
  have hcuf : ∀ n, Unlinks (s.cuf n) := fun n => unlinks_withGrid h (blanks_colClamp rfl)
  have hcha : ∀ n, Unlinks (s.cha n) := fun n =>
    ensures_bind fun col => unlinks_withGrid h (blanks_colSet rfl col)
  have hcup : ∀ m n, Unlinks (s.cup m n) := fun m n =>
    ensures_bind fun row => ensures_bind fun col => unlinks_withGrid h (blanks_setPos rfl _)
  unfold Screen.csiFinal
  dsimp only
  split
  · exact unlinks_quiet (unlinks_clamped h fun g hg => blanks_insertCells hg _)
  · exact unlinks_quiet (unlinks_moved h fun g => blanks_rowDecClamp rfl _)
  · exact unlinks_quiet (hcud _)
  · exact unlinks_quiet (hcuf _)
  · exact unlinks_quiet (unlinks_withGrid h (blanks_colDecRestricted rfl _))
  · refine unlinks_quiet (unlinks_withGrid h (Blanks.bind (blanks_colSet rfl 0) fun g hg => ?_))
    exact blanks_rowIncClamp hg _
  · refine unlinks_quiet (unlinks_withGrid h (Blanks.bind (blanks_colSet rfl 0) fun g hg => ?_))
    exact blanks_some (blanks_rowDecClamp hg _)
  · exact unlinks_quiet (hcha _)
  · exact unlinks_quiet (hcup _ _)
  · exact unlinks_calling (unlinks_ed h _) _
  · exact unlinks_calling (unlinks_el h _) _
  · exact unlinks_quiet (unlinks_withGrid h (blanks_insertLines rfl _))
  · exact unlinks_quiet (unlinks_withGrid h (blanks_deleteLines rfl _))
  · exact unlinks_quiet (unlinks_clamped h fun g hg => blanks_deleteCells hg _)
  · exact unlinks_quiet (unlinks_withGrid h (blanks_scrollRegionUp rfl _ _))
  · exact unlinks_quiet (unlinks_withGrid h (blanks_scrollDown rfl _ _))
  · exact unlinks_quiet (unlinks_clamped h fun g hg => blanks_modifyCurrentRow hg _)
  · exact unlinks_quiet (unlinks_rep h width _)
  · exact unlinks_quiet (hcha _)
  · exact unlinks_quiet (hcuf _)
  · exact unlinks_quiet (hcud _)
  · exact unlinks_quiet (hcup _ _)
  · exact unlinks_quiet (unlinks_withGrid h (blanks_colForwardTab rfl _))
  · exact unlinks_quiet (unlinks_withGrid h (blanks_colBackTab rfl _))
  · exact ensures_some (unlinks_tbc h _)
  · exact ensures_some (unlinks_ansiMode h _ _)
  · exact ensures_some (unlinks_ansiMode h _ _)
  · exact ensures_some h.saveCursor
  · exact unlinks_quiet (unlinks_restoreCursor s)
  · refine unlinks_quiet (Ensures.bind (unlinks_withGrid h (blanks_colClamp rfl)) fun t ht => ?_)
    exact ensures_bind fun row => unlinks_withGrid ht (blanks_rowClamp rfl)
  · exact ensures_some (unlinked_syncBlankAttrs _)
  · refine unlinks_quiet (ensures_bind fun top => ensures_bind fun bottom => ?_)
    exact unlinks_withGrid h (blanks_setScrollRegion rfl _ _)
  · exact Ensures.ite (ensures_some h) (ensures_some h)
  · exact ensures_some h

theorem unlinks_csiPrivate (params : List (List ℕ)) (i2 : Option UInt8) (c : Char) :
    UnlinksCalls (s.csiPrivate params i2 c) := by
  unfold Screen.csiPrivate
  dsimp only
  split
  · exact unlinks_calling (unlinks_ed h _) _
  · exact unlinks_calling (unlinks_el h _) _
  · exact unlinks_calling (unlinks_eachParam h (fun t p ht => unlinks_decsetOne ht p) params) _
  · exact unlinks_calling (unlinks_eachParam h (fun t p ht => unlinks_decrstOne ht p) params) _
  · exact ensures_some h

theorem unlinks_csiDispatch (width : Char → Option ℕ) (params : List (List ℕ))
    (intermediates : List UInt8) (c : Char) :
    UnlinksCalls (s.csiDispatch width params intermediates c) := by
  have hbreak : Unlinked (if c = 'b' then s else s.breakRep) := by
    split_ifs
    · exact h
    · exact h
  unfold Screen.csiDispatch
  generalize (if c = 'b' then s else s.breakRep) = t at hbreak ⊢
  cases intermediates with
  | nil => exact unlinks_csiFinal hbreak width params c
  | cons i rest =>
      refine Ensures.ite (unlinks_csiPrivate hbreak params _ c) (Ensures.ite ?_ (Ensures.ite ?_ ?_))
      · exact unlinks_quiet (ensures_bind fun _ => ensures_some (unlinked_syncBlankAttrs _))
      · refine ensures_some ?_
        unfold Screen.decscusr
        split_ifs
        · exact hbreak
        · exact hbreak
      · exact ensures_some hbreak

theorem unlinks_oscDispatch (params : List (List UInt8)) (bel : Bool) :
    UnlinksCalls (s.oscDispatch params bel) := by
  unfold Screen.oscDispatch
  cases params with
  | nil => exact ensures_some h
  | cons first rest =>
      refine Ensures.ite (ensures_some h) (Ensures.ite (ensures_some h) ?_)
      refine Ensures.ite (ensures_some h) (Ensures.ite (Ensures.ite ?_ ?_) (Ensures.ite ?_ ?_))
      · exact unlinks_quiet (unlinks_osc8 h _ _)
      · split
        · exact unlinks_quiet (unlinks_osc8 h _ _)
        · exact unlinks_quiet (unlinks_osc8 h _ _)
      · split
        · exact ensures_some h
        · exact ensures_some h
      · exact ensures_some h

theorem unlinks_perform (width : Char → Option ℕ) (a : Vt.Action) :
    UnlinksCalls (s.perform width a) := by
  cases a with
  | print c => exact Ensures.ite (ensures_some h) (unlinks_quiet (unlinks_text h width c))
  | execute b => exact unlinks_execute h b
  | escDispatch intermediates b => exact unlinks_escDispatch h width intermediates b
  | csiDispatch params intermediates c => exact unlinks_csiDispatch h width params intermediates c
  | oscDispatch params bel => exact unlinks_oscDispatch h params bel
  | hook => exact ensures_some h
  | put b => exact ensures_some h
  | unhook => exact ensures_some h

end

end Tymux.Analysis.Vt
