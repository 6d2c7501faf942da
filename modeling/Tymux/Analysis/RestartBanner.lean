import Tymux.Analysis.Vte
import Tymux.Analysis.Vt.Representation
import Tymux.Analysis.Vt.WritingBelow
import Tymux.Model.LastWords

/-!
# The banner of a restart

The reset that it begins with leaves the alternate screen, and on the primary screen all that is
left of this is the cursor that is restored. So the marker comes below the row of the saved cursor,
the top row where none was saved, and what the old process printed there is written over.
-/

set_option autoImplicit false

namespace Tymux.Analysis.RestartBanner

open Tymux.Lib Tymux.Model Tymux.Model.Vt Tymux.Analysis.Vt

/-! ## What it keeps -/

/-- The rows down to the one of the cursor, with the scrollback. -/
def oldRows (g : Grid) : List (List Cell) :=
  (g.scrollback ++ g.rows.take (g.pos.row + 1)).map Row.cells

/-- The cursor is on the row below the old rows. One row may have left the scrollback. -/
structure Below (old : List (List Cell)) (g : Grid) (n : ℕ) : Prop where
  remains : Remains old n g
  gone : n ≤ 1
  below : (old.drop n).length = g.scrollback.length + g.pos.row

/-- The banner up to the marker goes on the row below the old rows, when there is room for it and for
a marker that takes `rows` rows: the saved cursor is on the last row of the region and the old
cursor too, or it is on the row of the old cursor, and the marker does not take an old row out of
a region that begins further down. -/
def Room (g : Grid) (rows : ℕ) : Prop :=
  g.savedPos.row = g.scrollBottom ∧ (g.scrollTop = 0 ∧ g.pos.row = g.scrollBottom ∨
      g.scrollTop = g.scrollBottom ∧ g.pos.row + 1 = g.scrollBottom) ∨
    g.savedPos.row ≠ g.scrollBottom ∧ min (g.savedPos.row + 1) (g.size.rows - 1) = g.pos.row + 1 ∧
      (g.scrollTop = 0 ∨ g.pos.row < g.scrollTop ∨ g.scrollBottom ≤ g.pos.row ∨
        g.pos.row + 1 + rows ≤ g.scrollBottom)

section

variable {b b' : Frame} {g g' : Grid} {old : List (List Cell)} {k n : ℕ}

theorem Below.inRow (h : Below old g n) (hrow : InRow g g') : Below old g' n := by
  refine ⟨hrow.remains h.remains h.below.le, h.gone, ?_⟩
  rw [hrow.scrollback_eq, hrow.row_eq]
  exact h.below

theorem length_oldRows (h : Fits b g) (hd : b.drawn = b.size.rows) :
    (oldRows g).length = g.scrollback.length + (g.pos.row + 1) := by
  have hrow := h.pos_row
  have hlen := h.rows_len
  unfold oldRows
  rw [List.length_map, List.length_append, List.length_take]
  omega

theorem remains_oldRows (h : g'.rows = g.rows) (hback : g'.scrollback = g.scrollback) :
    Remains (oldRows g) 0 g' := by
  refine ⟨?_, fun hne => absurd rfl hne⟩
  unfold oldRows allRows
  rw [h, hback, List.drop_zero, List.map_append, List.map_append, List.prefix_append_right_inj,
    List.map_take]
  exact List.take_prefix _ _

/-- INTERNAL: The line feed goes from the row of the saved cursor to the row below the old rows.
SRC: grid.rs:709-719 -/
theorem below_rowIncScroll (h : Fits b g) (hd : b.drawn = b.size.rows) (hrows : b'.size.rows ≤ u16Max)
    (h' : Fits b' g') (hsame : g'.rows = g.rows) (hback : g'.scrollback = g.scrollback)
    (hshape : shape g' = shape g) (hsaved : g'.pos.row = g.savedPos.row) (hroom : Room g k) :
    Ensures (g'.rowIncScroll 1) fun r =>
      (∃ n, Below (oldRows g) r.1 n ∧ Clear (oldRows g) (1 + k) k n r.1) ∧ r.1.pos.col = g'.pos.col := by
  have hlen := length_oldRows h hd
  have hremains : Remains (oldRows g) 0 g' := remains_oldRows hsame hback
  have hregion := h.region_le
  have hsize := h.rows_eq
  unfold shape at hshape
  simp only [Prod.mk.injEq] at hshape
  obtain ⟨hgsize, htop, hbottom, -⟩ := hshape
  intro r hr
  obtain ⟨hlast, -, hone⟩ | ⟨hlast, -, heq⟩ := rowIncScroll_cases h' hrows r hr
  · rw [hsaved, hbottom] at hlast
    obtain ⟨-, hroom⟩ | ⟨hne, -⟩ := hroom
    · have hfar : ((oldRows g).drop 0).length ≤ g'.scrollback.length +
          if g'.scrollTop = 0 then g'.scrollBottom + 1 else g'.scrollTop := by
        rw [List.drop_zero, hlen, hback, htop, hbottom]
        split_ifs <;> omega
      obtain ⟨hpos, hshape', e, he, hremains', hback'⟩ := remains_scrollOne h' hremains hfar r.1 hone
      unfold shape at hshape'
      simp only [Prod.mk.injEq] at hshape'
      obtain ⟨-, htop', hbottom', -⟩ := hshape'
      have hbelow : ((oldRows g).drop (0 + e)).length = r.1.scrollback.length + r.1.pos.row := by
        rw [List.length_drop, hlen, hpos, hsaved]
        rw [htop, hback] at hback'
        split_ifs at hback' <;> omega
      refine ⟨⟨0 + e, ⟨hremains', by omega, hbelow⟩, ⟨hremains', by omega, hbelow.le, ?_⟩⟩, by rw [hpos]⟩
      rw [hbelow, hpos, hsaved, htop', htop, hlast]
      omega
    · exact absurd hlast hne
  · rw [hsaved, hbottom] at hlast
    obtain ⟨heq', -⟩ | ⟨-, hnext, hroom⟩ := hroom
    · exact absurd heq' hlast
    · rw [heq]
      have hbelow : ((oldRows g).drop 0).length =
          g'.scrollback.length + min (g'.pos.row + 1) (g'.size.rows - 1) := by
        rw [List.drop_zero, hlen, hback, hsaved, hgsize, hnext]
      refine ⟨⟨0, ⟨⟨hremains.rows, hremains.full⟩, Nat.zero_le 1, hbelow⟩,
        ⟨⟨hremains.rows, hremains.full⟩, by omega, hbelow.le, ?_⟩⟩, rfl⟩
      rw [hbelow]
      show g'.scrollTop = 0 ∨ g'.scrollback.length + min (g'.pos.row + 1) (g'.size.rows - 1) ≤
        g'.scrollback.length + g'.scrollTop ∨
        g'.scrollBottom < min (g'.pos.row + 1) (g'.size.rows - 1) ∨
        min (g'.pos.row + 1) (g'.size.rows - 1) + k ≤ g'.scrollBottom
      rw [hsaved, hgsize, hnext, htop, hbottom]
      omega

/-- INTERNAL: The rest of the line feed is about the row that it goes to.
SRC: grid.rs:699-707 -/
theorem below_lineFeed (h : Fits b g) (hd : b.drawn = b.size.rows) (hrows : b'.size.rows ≤ u16Max)
    (h' : Fits b' g') (hsame : g'.rows = g.rows) (hback : g'.scrollback = g.scrollback)
    (hshape : shape g' = shape g) (hsaved : g'.pos.row = g.savedPos.row) (hroom : Room g k) :
    Ensures g'.lineFeed fun r =>
      (∃ n, Below (oldRows g) r n ∧ Clear (oldRows g) (1 + k) k n r) ∧ r.pos.col ≤ g'.pos.col := by
  unfold Grid.lineFeed
  refine (below_rowIncScroll h hd hrows h' hsame hback hshape hsaved hroom).bind
    fun r ⟨⟨n, hbelow, hclear⟩, hcol⟩ => ?_
  dsimp only
  refine Ensures.bind (Q := fun g₁ => InRow r.1 g₁ ∧ g₁.pos.col = g'.pos.col) ?_
    fun g₁ ⟨h₁, hcol₁⟩ => ?_
  · refine Ensures.ite (fun g₁ hg₁ => ?_) (ensures_some ⟨InRow.refl _, hcol⟩)
    obtain ⟨hrow, hpos⟩ := inRow_modifyCurrentRow _ g₁ hg₁
    exact ⟨hrow, by rw [hpos, hcol]⟩
  · intro g₂ hg₂
    obtain ⟨hrow, hle⟩ := inRow_colClamp g₂ hg₂
    have hwhole := h₁.trans hrow
    exact ⟨⟨n, hbelow.inRow hwhole, hclear.inRow hwhole⟩, hle.trans hcol₁.le⟩

end

/-! ## The reset -/

/-- What the reset leaves alone, apart from the cursor. -/
def face (s : Screen) : Bool × Bool × List Row × List Row × (Size × ℕ × ℕ × ℕ) × ℕ :=
  (s.modes.alternateScreen, s.modes.noAutowrap, s.grid.rows, s.grid.scrollback, shape s.grid,
    s.grid.savedPos.row)

section

variable {width : Char → Option ℕ} {size : Size} {cap : ℕ} {s : Screen}

/-- The action is about neither the grid nor what the reset leaves alone. -/
def Mild (width : Char → Option ℕ) (a : Vt.Action) : Prop :=
  ∀ s : Screen, Ensures (s.perform width a) fun r =>
    face r.1 = face s ∧ r.1.grid.pos = s.grid.pos

theorem mild_sgr (params : List (List ℕ)) : Mild width (.csiDispatch params [] 'm') :=
  fun _ => ensures_some ⟨rfl, rfl⟩

theorem mild_showCursor : Mild width (.csiDispatch [[25]] [0x3f] 'h') :=
  fun _ => ensures_some ⟨rfl, rfl⟩

theorem mild_keypad : Mild width (.escDispatch [] 0x3e) := fun _ => ensures_some ⟨rfl, rfl⟩

/-- A mode that is switched off and is about neither. -/
theorem mild_decrst {param : ℕ} (h : ∀ s : Screen, ∃ s', s.decrstOne [param] = some (some s') ∧
    face s' = face s ∧ s'.grid.pos = s.grid.pos) : Mild width (.csiDispatch [[param]] [0x3f] 'l') := by
  intro s r hr
  obtain ⟨s', hs', hface, hpos⟩ := h s.breakRep
  have hdecrst : s.breakRep.decrst [[param]] = some (s', 0) := by
    show (Option.map _ (s.breakRep.decrstOne [param]) >>= fun r => some r) = _
    rw [hs']
    rfl
  change (s.breakRep.decrst [[param]]).map _ = some r at hr
  rw [hdecrst, Option.map_some, Option.some_inj] at hr
  rw [← hr]
  exact ⟨hface, hpos⟩

theorem mild_mouseMode (mode : MouseProtocolMode) (s : Screen) :
    face (s.clearMouseMode mode) = face s ∧ (s.clearMouseMode mode).grid.pos = s.grid.pos := by
  unfold Screen.clearMouseMode
  split_ifs
  · exact ⟨rfl, rfl⟩
  · exact ⟨rfl, rfl⟩

theorem mild_mouseEncoding (encoding : MouseProtocolEncoding) (s : Screen) :
    face (s.clearMouseEncoding encoding) = face s ∧
      (s.clearMouseEncoding encoding).grid.pos = s.grid.pos := by
  unfold Screen.clearMouseEncoding
  split_ifs
  · exact ⟨rfl, rfl⟩
  · exact ⟨rfl, rfl⟩

/-- The modes that the reset switches, apart from the alternate screen. -/
def modeActions : List Vt.Action :=
  [.csiDispatch [[25]] [0x3f] 'h', .csiDispatch [[1000]] [0x3f] 'l',
    .csiDispatch [[1002]] [0x3f] 'l', .csiDispatch [[1003]] [0x3f] 'l',
    .csiDispatch [[1006]] [0x3f] 'l', .csiDispatch [[1004]] [0x3f] 'l',
    .csiDispatch [[2004]] [0x3f] 'l', .csiDispatch [[1]] [0x3f] 'l', .escDispatch [] 0x3e]

theorem mild_modeActions : ∀ a ∈ modeActions, Mild width a := by
  unfold modeActions
  simp only [List.forall_mem_cons]
  refine ⟨mild_showCursor, ?_, ?_, ?_, ?_, ?_, ?_, ?_, mild_keypad, fun a ha => nomatch ha⟩
  · exact mild_decrst fun s => ⟨_, rfl, mild_mouseMode .pressRelease s⟩
  · exact mild_decrst fun s => ⟨_, rfl, mild_mouseMode .buttonMotion s⟩
  · exact mild_decrst fun s => ⟨_, rfl, mild_mouseMode .anyMotion s⟩
  · exact mild_decrst fun s => ⟨_, rfl, mild_mouseEncoding .sgr s⟩
  · exact mild_decrst fun s => ⟨_, rfl, rfl, rfl⟩
  · exact mild_decrst fun s => ⟨_, rfl, rfl, rfl⟩
  · exact mild_decrst fun s => ⟨_, rfl, rfl, rfl⟩

/-- Such actions, with others after them. -/
theorem yields_mild (hwidth : WidthLaw width) (h : ScreenFits False size cap s)
    {mild acts : List Vt.Action} (hmild : ∀ a ∈ mild, Mild width a) {R : Screen → Prop}
    (hrest : ∀ s', ScreenFits False size cap s' → face s' = face s → s'.grid.pos = s.grid.pos →
      Yields (collecting (Screen.perform width) s' acts) fun r => R r.1) :
    Yields (collecting (Screen.perform width) s (mild ++ acts)) fun r => R r.1 := by
  induction mild generalizing s with
  | nil => exact hrest s h rfl rfl
  | cons a mild ih =>
      rw [List.forall_mem_cons] at hmild
      rw [List.cons_append]
      obtain ⟨r, hr, hfits⟩ := yields_perform hwidth h a False.elim
      obtain ⟨hface, hpos⟩ := hmild.1 s r hr
      refine yields_collecting_cons (Q := fun r' => r' = r) ⟨r, hr, rfl⟩ fun r' hr' => ?_
      rw [hr']
      refine ih hfits hmild.2 fun s' hs' hface' hpos' => ?_
      exact hrest s' hs' (hface'.trans hface) (hpos'.trans hpos)

/-- INTERNAL: There is no alternate screen to leave, and the saved cursor is restored.
SRC: screen.rs:1712-1715 -/
theorem ensures_leave (hprimary : s.modes.alternateScreen = false) :
    Ensures (s.perform width (.csiDispatch [[1049]] [0x3f] 'l')) fun r =>
      face r.1 = face s ∧ r.1.grid.pos.row = s.grid.savedPos.row := by
  have hexit : s.breakRep.exitAlternateGrid = s.breakRep := by
    unfold Screen.exitAlternateGrid
    rw [if_neg (by
      show ¬s.modes.alternateScreen = true
      rw [hprimary]
      exact Bool.false_ne_true)]
  have hrestore : Ensures s.breakRep.restoreCursor fun s' =>
      face s' = face s ∧ s'.grid.pos.row = s.grid.savedPos.row := by
    unfold Screen.restoreCursor
    have hgrid : Ensures s.breakRep.grid.restoreCursor fun g => g.rows = s.grid.rows ∧
        g.scrollback = s.grid.scrollback ∧ shape g = shape s.grid ∧
        g.savedPos.row = s.grid.savedPos.row ∧ g.pos.row = s.grid.savedPos.row := by
      unfold Grid.restoreCursor Grid.colClamp
      refine ensures_bind fun last => ensures_some ?_
      split_ifs
      · exact ⟨rfl, rfl, rfl, rfl, rfl⟩
      · exact ⟨rfl, rfl, rfl, rfl, rfl⟩
    refine (ensures_withGrid (s := s.breakRep) (f := fun g => g.restoreCursor) hprimary hgrid).bind
      fun s' hs' => ?_
    obtain ⟨hmodes, hrows, hback, hshape, hsaved, hrow⟩ := hs'
    refine ensures_some ⟨?_, hrow⟩
    show (s'.modes.alternateScreen, s'.modes.noAutowrap, s'.grid.rows, s'.grid.scrollback,
      shape s'.grid, s'.grid.savedPos.row) = face s
    rw [hmodes, hrows, hback, hshape, hsaved]
    rfl
  intro r hr
  change ((Option.map _ (s.breakRep.exitAlternateGrid.restoreCursor.map some) >>=
    fun r => some r).map _) = some r at hr
  rw [hexit] at hr
  cases hcursor : s.breakRep.restoreCursor with
  | none =>
      rw [hcursor] at hr
      cases hr
  | some s' =>
      rw [hcursor] at hr
      change some _ = some r at hr
      rw [Option.some_inj] at hr
      rw [← hr]
      exact hrestore s' hcursor

/-- INTERNAL: The carriage return leaves the rows alone.
SRC: screen.rs:1470-1472 -/
theorem ensures_cr_face (hprimary : s.modes.alternateScreen = false) :
    Ensures s.cr fun s' => s'.modes = s.modes ∧ face s' = face s ∧
      s'.grid.pos.row = s.grid.pos.row ∧ s'.grid.pos.col = 0 := by
  have hgrid : Ensures (s.grid.colSet 0) fun g => (g.rows = s.grid.rows ∧
      g.scrollback = s.grid.scrollback ∧ shape g = shape s.grid ∧
      g.savedPos.row = s.grid.savedPos.row) ∧ g.pos.row = s.grid.pos.row ∧ g.pos.col = 0 := by
    unfold Grid.colSet Grid.colClamp
    refine ensures_bind fun last => ensures_some ?_
    split_ifs with hlt
    · exact absurd hlt (Nat.not_lt_zero last)
    · exact ⟨⟨rfl, rfl, rfl, rfl⟩, rfl, rfl⟩
  intro s' hs'
  obtain ⟨hmodes, ⟨hrows, hback, hshape, hsaved⟩, hrow, hcol⟩ :=
    ensures_withGrid (f := fun g => g.colSet 0) hprimary hgrid s' hs'
  refine ⟨hmodes, ?_, hrow, hcol⟩
  unfold face
  rw [hmodes, hrows, hback, hshape, hsaved]

/-- INTERNAL: The line feed after the reset, with the carriage return of the newline mode.
SRC: screen.rs:1370-1375 -/
theorem yields_landing (hwidth : WidthLaw width) {start : Screen} {k : ℕ}
    (h : ScreenFits False size cap start) (hrows : size.rows ≤ u16Max)
    (hprimary : start.modes.alternateScreen = false) (hs : ScreenFits False size cap s)
    (hface : face s = face start) (hrow : s.grid.pos.row = start.grid.savedPos.row)
    (hcol : s.grid.pos.col = 0) (hroom : Room start.grid k) :
    Yields (s.perform width (.execute 10)) fun r => ScreenFits False size cap r.1 ∧
      r.1.modes = s.modes ∧ r.1.grid.pos.col = 0 ∧
      ∃ n, Below (oldRows start.grid) r.1.grid n ∧ Clear (oldRows start.grid) (1 + k) k n r.1.grid := by
  obtain ⟨r, hr, hfits⟩ := yields_perform hwidth hs (.execute 10) False.elim
  have hshown : s.modes.alternateScreen = false := (congrArg (·.1) hface).trans hprimary
  have hlf : Ensures s.breakRep.lf fun s' => s'.modes = s.modes ∧ s'.grid.pos.col = 0 ∧
      ∃ n, Below (oldRows start.grid) s'.grid n ∧ Clear (oldRows start.grid) (1 + k) k n s'.grid := by
    unfold Screen.lf
    refine Ensures.bind (Q := fun s' => s'.modes = s.modes ∧ face s' = face s ∧
      s'.grid.pos.row = s.grid.pos.row ∧ s'.grid.pos.col = 0 ∧ ScreenFits False size cap s') ?_
      fun s' hs' => ?_
    · refine Ensures.ite (fun s' hs' => ?_) (ensures_some ⟨rfl, rfl, rfl, hcol, hs.breakRep⟩)
      obtain ⟨hmodes, hface', hrow', hcol'⟩ := ensures_cr_face (s := s.breakRep) hshown s' hs'
      exact ⟨hmodes, hface', hrow', hcol', (yields_cr hs.breakRep).of_eq hs'⟩
    · obtain ⟨hmodes, hface', hrow', hcol', hfits'⟩ := hs'
      have hall := hface'.trans hface
      unfold face at hall
      simp only [Prod.mk.injEq] at hall
      obtain ⟨halternate, -, hsame, hback, hshape, -⟩ := hall
      intro t ht
      obtain ⟨hkeep, hland, hle⟩ := ensures_withGrid (halternate.trans hprimary)
        (below_lineFeed h.main rfl hrows hfits'.main hsame hback hshape (hrow'.trans hrow) hroom) t ht
      exact ⟨hkeep.trans hmodes, Nat.le_zero.mp (hle.trans hcol'.le), hland⟩
  have hquiet : Ensures (Screen.quiet s.breakRep.lf) fun r => r.1.modes = s.modes ∧
      r.1.grid.pos.col = 0 ∧
      ∃ n, Below (oldRows start.grid) r.1.grid n ∧ Clear (oldRows start.grid) (1 + k) k n r.1.grid :=
    hlf.map fun s' hs' => hs'
  exact ⟨r, hr, hfits, hquiet r hr⟩

/-- What is made of the reset and the line end after it. -/
def headActions : List Vt.Action :=
  [.csiDispatch [[0]] [] 'm', .csiDispatch [[1049]] [0x3f] 'l'] ++
    (modeActions ++ [.execute 13, .execute 10])

/-- INTERNAL: The reset and the line end bring the cursor to the row below the old rows. -/
theorem yields_head (hwidth : WidthLaw width) {k : ℕ} (h : ScreenFits False size cap s)
    (hrows : size.rows ≤ u16Max) (hprimary : s.modes.alternateScreen = false)
    (hroom : Room s.grid k) :
    Yields (collecting (Screen.perform width) s headActions) fun r =>
      ScreenFits False size cap r.1 ∧ r.1.modes.alternateScreen = false ∧
      r.1.modes.noAutowrap = s.modes.noAutowrap ∧ r.1.grid.pos.col = 0 ∧
      ∃ n, Below (oldRows s.grid) r.1.grid n ∧ Clear (oldRows s.grid) (1 + k) k n r.1.grid := by
  let R : Screen → Prop := fun s' => ScreenFits False size cap s' ∧
    s'.modes.alternateScreen = false ∧ s'.modes.noAutowrap = s.modes.noAutowrap ∧
    s'.grid.pos.col = 0 ∧
    ∃ n, Below (oldRows s.grid) s'.grid n ∧ Clear (oldRows s.grid) (1 + k) k n s'.grid
  have hland : ∀ s', ScreenFits False size cap s' → face s' = face s →
      s'.grid.pos.row = s.grid.savedPos.row →
      Yields (collecting (Screen.perform width) s' [.execute 13, .execute 10]) fun r => R r.1 := by
    intro s' hs' hface hrow
    have hshown : s'.modes.alternateScreen = false := (congrArg (·.1) hface).trans hprimary
    obtain ⟨r, hr, hfits⟩ := yields_perform hwidth hs' (.execute 13) False.elim
    have hcr : Ensures (Screen.quiet s'.breakRep.cr) fun r => r.1.modes = s'.modes ∧
        face r.1 = face s' ∧ r.1.grid.pos.row = s'.grid.pos.row ∧ r.1.grid.pos.col = 0 :=
      (ensures_cr_face (s := s'.breakRep) hshown).map fun s' hs' => hs'
    obtain ⟨hmodes, hface', hrow', hcol⟩ := hcr r hr
    refine yields_collecting_cons (Q := fun r' => r' = r) ⟨r, hr, rfl⟩ fun r' hr' => ?_
    rw [hr']
    refine yields_collecting_cons (R := R) (yields_landing hwidth h hrows hprimary hfits
      (hface'.trans hface) (hrow'.trans hrow) hcol hroom) fun r₂ hr₂ => yields_some ?_
    obtain ⟨hfits₂, hmodes₂, hcol₂, hbelow⟩ := hr₂
    have hall := hface
    unfold face at hall
    simp only [Prod.mk.injEq] at hall
    refine ⟨hfits₂, ?_, ?_, hcol₂, hbelow⟩
    · rw [hmodes₂, hmodes]
      exact hshown
    · rw [hmodes₂, hmodes]
      exact hall.2.1
  have hsgr : ∀ a ∈ [.csiDispatch [[0]] [] 'm'], Mild width a :=
    List.forall_mem_singleton.mpr (mild_sgr _)
  refine yields_mild (R := R) hwidth h hsgr fun s₁ h₁ hface₁ hpos₁ => ?_
  have hshown₁ : s₁.modes.alternateScreen = false := (congrArg (·.1) hface₁).trans hprimary
  have hsaved₁ : s₁.grid.savedPos.row = s.grid.savedPos.row := by
    unfold face at hface₁
    simp only [Prod.mk.injEq] at hface₁
    exact hface₁.2.2.2.2.2
  obtain ⟨r, hr, hfits⟩ := yields_perform hwidth h₁ (.csiDispatch [[1049]] [0x3f] 'l') False.elim
  obtain ⟨hface₂, hrow₂⟩ := ensures_leave hshown₁ r hr
  refine yields_collecting_cons (Q := fun r' => r' = r) (R := R) ⟨r, hr, rfl⟩ fun r' hr' => ?_
  rw [hr']
  refine yields_mild hwidth hfits mild_modeActions fun s₃ h₃ hface₃ hpos₃ => ?_
  refine hland s₃ h₃ (hface₃.trans (hface₂.trans hface₁)) ?_
  rw [hpos₃, hrow₂, hsaved₁]

end

/-! ## The bytes -/

theorem toList_loop (bytes : ByteArray) (i : ℕ) (read : List UInt8) :
    ByteArray.toList.loop bytes i read = read.reverse ++ bytes.data.toList.drop i := by
  fun_induction ByteArray.toList.loop bytes i read with
  | case1 i read hlt ih =>
      have hi : i < bytes.data.toList.length := by
        rw [Array.length_toList]
        exact hlt
      have hget : bytes.get! i = bytes.data.toList[i] := by
        rw [Array.getElem_toList]
        exact getElem!_pos bytes.data i hlt
      rw [ih, List.reverse_cons, List.append_assoc, List.singleton_append,
        List.drop_eq_getElem_cons hi, hget]
  | case2 i read hle =>
      rw [List.drop_eq_nil_of_le, List.append_nil]
      rw [Array.length_toList]
      exact Nat.le_of_not_lt hle

theorem toList_data (bytes : ByteArray) : bytes.toList = bytes.data.toList := toList_loop bytes 0 []

theorem utf8_append (s t : String) :
    (s ++ t).toUTF8.toList = s.toUTF8.toList ++ t.toUTF8.toList := by
  rw [toList_data, toList_data, toList_data, String.toUTF8_eq_toByteArray,
    String.toUTF8_eq_toByteArray, String.toUTF8_eq_toByteArray, String.toByteArray_append,
    ByteArray.data_append, Array.toList_append]

/-- The letters have one byte each. -/
def letterBytes (letters : List Char) : List UInt8 := letters.map fun c => UInt8.ofNat c.toNat

theorem utf8_letters {letters : List Char} (h : ∀ c ∈ letters, ' ' ≤ c ∧ c ≤ '~') :
    (String.ofList letters).toUTF8.toList = letterBytes letters := by
  rw [toList_data, String.toUTF8_eq_toByteArray, String.toByteArray_ofList]
  induction letters with
  | nil => rfl
  | cons c letters ih =>
      rw [List.forall_mem_cons] at h
      have hle : c.toNat ≤ '~'.toNat := h.1.2
      have hsize : c.utf8Size = 1 := by
        rw [Char.utf8Size_eq_one_iff, UInt32.le_iff_toNat_le]
        exact hle.trans (by decide)
      rw [List.utf8Encode_cons, ByteArray.data_append, Array.toList_append,
        List.utf8Encode_singleton, List.data_toByteArray, ih h.2,
        String.utf8EncodeChar_eq_singleton hsize]
      rfl

/-- The banner up to the marker. -/
def bannerHead : List UInt8 := (LiveStream.terminalReset ++ "\r\n").toUTF8.toList

def markerText (pid : Option ℕ) (restartCount : ℕ) : String :=
  "[tymux: restarted (pid " ++ (pid.map toString).getD "?" ++ ", restart #" ++
    toString restartCount ++ ")]"

/-- The letters of the marker. -/
def markerLetters (pid : Option ℕ) (restartCount : ℕ) : List Char := (markerText pid restartCount).toList

/-- A line in a dim colour, as bytes. -/
def lineBytes (letters : List Char) : List UInt8 :=
  [0x1b, 0x5b, 0x32, 0x6d] ++ letterBytes letters ++ [0x1b, 0x5b, 0x30, 0x6d, 0x0d, 0x0a]

theorem letters_toString (n : ℕ) : ∀ c ∈ (toString n).toList, ' ' ≤ c ∧ c ≤ '~' := by
  intro c hc
  rw [Nat.toString_eq_repr, Nat.repr_eq_ofList_toDigits, String.toList_ofList] at hc
  have hdigit := Nat.isDigit_of_mem_toDigits (by decide) (by decide) hc
  rw [Char.isDigit_iff_toNat] at hdigit
  have hspace : ' '.toNat = 32 := rfl
  have htilde : '~'.toNat = 126 := rfl
  have hzero : '0'.toNat = 48 := rfl
  have hnine : '9'.toNat = 57 := rfl
  exact ⟨show ' '.toNat ≤ c.toNat by omega, show c.toNat ≤ '~'.toNat by omega⟩

/-- A literal is checked letter by letter. -/
theorem letters_literal {letters : List Char}
    (h : (letters.all fun c => decide (' ' ≤ c ∧ c ≤ '~')) = true) :
    ∀ c ∈ letters, ' ' ≤ c ∧ c ≤ '~' :=
  fun c hc => of_decide_eq_true (List.all_eq_true.mp h c hc)

theorem letters_marker (pid : Option ℕ) (restartCount : ℕ) :
    ∀ c ∈ markerLetters pid restartCount, ' ' ≤ c ∧ c ≤ '~' := by
  unfold markerLetters markerText
  simp only [String.toList_append, List.forall_mem_append]
  refine ⟨⟨⟨⟨letters_literal (by decide), ?_⟩, letters_literal (by decide)⟩,
    letters_toString restartCount⟩, letters_literal (by decide)⟩
  cases pid with
  | none => exact letters_literal (by decide)
  | some pid => exact letters_toString pid

/-- INTERNAL: The banner is the reset, a line end and the line of the marker.
SRC: supervision.rs:210-216 -/
theorem banner_eq (pid : Option ℕ) (restartCount : ℕ) :
    LiveStream.banner pid restartCount =
      bannerHead ++ lineBytes (markerLetters pid restartCount) := by
  have hmarker : (markerText pid restartCount).toUTF8.toList =
      letterBytes (markerLetters pid restartCount) := by
    rw [← utf8_letters (letters_marker pid restartCount)]
    unfold markerLetters
    rw [String.ofList_toList]
  have hdim : "\x1b[2m".toUTF8.toList = [0x1b, 0x5b, 0x32, 0x6d] := by decide +kernel
  have hend : "\x1b[0m\r\n".toUTF8.toList = [0x1b, 0x5b, 0x30, 0x6d, 0x0d, 0x0a] := by decide +kernel
  have hfirst : "\r\n\x1b[2m[tymux: restarted (pid " =
      "\r\n" ++ ("\x1b[2m" ++ "[tymux: restarted (pid ") := by decide +kernel
  have hlast : ")]\x1b[0m\r\n" = ")]" ++ "\x1b[0m\r\n" := by decide +kernel
  unfold lineBytes bannerHead
  rw [← hmarker, ← hdim, ← hend, ← utf8_append, ← utf8_append, ← utf8_append]
  unfold LiveStream.banner markerText
  rw [hfirst, hlast]
  simp only [String.append_assoc]

/-! ## The emulator -/

section

variable {σ : Type} (tok : Tokenizer σ) (width : Char → Option ℕ)

/-- What `vte` makes of the banner. -/
structure ReadsBanner : Prop where
  lawful : Lawful tok
  quiet : (tok.advance tok.start 0x1b).2 = []
  head : (tok.advanceAll tok.start bannerHead).2 = headActions
  line : ∀ letters : List Char, (∀ c ∈ letters, ' ' ≤ c ∧ c ≤ '~') →
    (tok.advanceAll (tok.after bannerHead) (lineBytes letters)).2 = lineActions letters

/-- Nothing is written when an ESC breaks off what the old process was in the middle of. -/
def BreaksOff (p : Parser σ) : Prop :=
  Yields (p.process tok width [0x1b]) fun r =>
    r.1.screen.grid = p.screen.grid ∧ r.1.screen.modes = p.screen.modes

/-- How many rows the marker takes. -/
def markerRows (p : Parser σ) (pid : Option ℕ) (restartCount : ℕ) : ℕ :=
  wraps p.screen.modes.noAutowrap p.screen.grid.size.cols 0 (markerLetters pid restartCount).length + 1

/-- The marker begins on the row below the old rows, and they are still there after it, apart from
those that the scrolling took out of a full scrollback. -/
def KeepsScreen (p : Parser σ) (pid : Option ℕ) (restartCount : ℕ) : Prop :=
  ∃ p₁ p₂ calls₁ calls₂, p.process tok width bannerHead = some (p₁, calls₁) ∧
    p₁.process tok width (lineBytes (markerLetters pid restartCount)) = some (p₂, calls₂) ∧
    p.process tok width (LiveStream.banner pid restartCount) = some (p₂, calls₁ ++ calls₂) ∧
    (∃ n, Below (oldRows p.screen.grid) p₁.screen.currentGrid n) ∧
    p₁.screen.currentGrid.pos.col = 0 ∧
    ∃ n ≤ 1 + markerRows p pid restartCount, Remains (oldRows p.screen.grid) n p₂.screen.currentGrid

variable {tok width}

/-- INTERNAL: The reset begins with an ESC, and what comes after it does not depend on what was read
before. -/
theorem process_head (hreads : ReadsBanner tok) {p p' : Parser σ} {calls : List Callback}
    (hesc : p.process tok width [0x1b] = some (p', calls)) {r : Screen × List Callback}
    (hrun : collecting (Screen.perform width) p'.screen headActions = some r) :
    ∃ t, tok.ObsEq t (tok.after bannerHead) ∧
      p.process tok width bannerHead = some (⟨t, false, r.1⟩, calls ++ r.2) := by
  have hfirst : bannerHead = [0x1b] ++ bannerHead.tail := by decide +kernel
  have hplain : bannerHead.tail.contains 0xc2 = false := by decide +kernel
  have hstart : (tok.advanceAll (tok.advance tok.start 0x1b).1 bannerHead.tail).2 = headActions := by
    have hhead := hreads.head
    rw [hfirst, List.singleton_append, tok.advanceAll_cons, hreads.quiet, List.nil_append] at hhead
    exact hhead
  have hobs : tok.ObsEq p'.parser (tok.advance tok.start 0x1b).1 ∧ p'.pendingC2 = false := by
    rw [process_eq] at hesc
    unfold processing at hesc
    obtain ⟨next, -, hnext⟩ := Option.map_eq_some_iff.mp hesc
    rw [Prod.mk.injEq] at hnext
    have hone : Parser.rewrite p.pendingC2 [0x1b] =
        ((if p.pendingC2 then [0xc2] else []) ++ [0x1b], false) := by
      rw [rewrite_singleton]
      cases p.pendingC2 with
      | false => rfl
      | true => rfl
    rw [hone, tok.advanceAll_append, tok.advanceAll_singleton] at hnext
    rw [← hnext.1]
    exact ⟨hreads.lawful.esc _ _, rfl⟩
  obtain ⟨hobs, hpending⟩ := hobs
  refine ⟨(tok.advanceAll p'.parser bannerHead.tail).1, ?_, ?_⟩
  · have hafter : tok.after bannerHead =
        (tok.advanceAll (tok.advance tok.start 0x1b).1 bannerHead.tail).1 := by
      unfold Tokenizer.after
      conv_lhs => rw [hfirst, List.singleton_append, tok.advanceAll_cons]
    rw [hafter]
    exact hobs.advanceAll _
  · rw [process_eq] at hesc ⊢
    rw [hfirst, processing_append, hesc, Option.bind_some, ← hfirst]
    unfold processing
    rw [hpending, rewrite_fast hplain]
    dsimp only
    rw [hobs bannerHead.tail, hstart, hrun]
    rfl

/-- INTERNAL: The line of the marker is read after the reset. -/
theorem process_line (hreads : ReadsBanner tok) {t : σ} (hobs : tok.ObsEq t (tok.after bannerHead))
    {s : Screen} {letters : List Char} (hletters : ∀ c ∈ letters, ' ' ≤ c ∧ c ≤ '~')
    {r : Screen × List Callback}
    (hrun : collecting (Screen.perform width) s (lineActions letters) = some r) :
    ∃ t', (⟨t, false, s⟩ : Parser σ).process tok width (lineBytes letters) =
      some (⟨t', false, r.1⟩, r.2) := by
  have hplain : (lineBytes letters).contains 0xc2 = false := by
    rw [Bool.eq_false_iff, Ne, List.contains_iff_mem]
    unfold lineBytes letterBytes
    simp only [List.mem_append, not_or]
    refine ⟨⟨by decide, fun hmem => ?_⟩, by decide⟩
    obtain ⟨c, hc, heq⟩ := List.mem_map.mp hmem
    have hle : c.toNat ≤ '~'.toNat := (hletters c hc).2
    have htilde : '~'.toNat = 126 := rfl
    have hval := congrArg UInt8.toNat heq
    rw [UInt8.toNat_ofNat'] at hval
    change c.toNat % 256 = 194 at hval
    omega
  refine ⟨(tok.advanceAll t (lineBytes letters)).1, ?_⟩
  rw [process_eq]
  unfold processing
  dsimp only
  rw [rewrite_fast hplain]
  dsimp only
  rw [hobs, hreads.line letters hletters, hrun]
  rfl

/-- The screen of the emulator has a shape, and no more rows than a pane can have. -/
def Sized (cap : ℕ) (p : Parser σ) : Prop :=
  ∃ size, ScreenFits False size cap p.screen ∧ size.rows ≤ u16Max

/-- INTERNAL: A call keeps it.
SRC: parser.rs:50-76, screen.rs:220-224, screen.rs:245-247 -/
theorem yields_sized (hwidth : WidthLaw width) {cap : ℕ} (hcap : 1 ≤ cap) {p : Parser σ}
    (h : Sized cap p) (call : Call) (hcall : call.Admissible) :
    Yields (call.run tok width p) (Sized cap) := by
  obtain ⟨size, h, hrows⟩ := h
  cases call with
  | process bytes =>
      refine Yields.map (Q := fun r => Sized cap r.1) ?_ fun r hr => hr
      unfold Parser.process
      refine (yields_performAll hwidth h _ False.elim).bind fun r hr => ?_
      exact yields_some ⟨size, hr, hrows⟩
  | setSize rows cols =>
      have hmax : cols ≤ u16Max := hcall.2.2.2.trans (by decide)
      refine (yields_screenSetSize h hcap hcall.1 hcall.2.2.1 hmax).map fun screen hscreen => ?_
      exact ⟨_, hscreen, hcall.2.1.trans (by decide)⟩
  | setScrollback rows =>
      exact (yields_setScrollbackScreen h rows).map fun screen hscreen => ⟨size, hscreen, hrows⟩

/-- INTERNAL: Every run keeps it. -/
theorem sized_run (hwidth : WidthLaw width) {rows cols cap : ℕ}
    (hsize : (Call.setSize rows cols).Admissible) (hcap : 1 ≤ cap) {calls : List Call}
    (hcalls : ∀ call ∈ calls, call.Admissible) {p₀ p : Parser σ}
    (hnew : Parser.new tok rows cols cap = some p₀)
    (hrun : calls.foldlM (Call.run tok width) p₀ = some p) : Sized cap p := by
  have hstart : Yields (Parser.new tok rows cols cap) (Sized cap) := by
    have hmax : cols ≤ u16Max := hsize.2.2.2.trans (by decide)
    have hscreen : Yields (Screen.new ⟨rows, cols⟩ cap) (ScreenFits False ⟨rows, cols⟩ cap) :=
      yields_screenNew hsize.1 hsize.2.2.1 hmax cap
    refine hscreen.bind fun screen hfits => yields_some ⟨_, hfits, ?_⟩
    exact hsize.2.1.trans (by decide)
  have hall : Yields (calls.foldlM (Call.run tok width) p₀) (Sized cap) :=
    yields_foldlM_along _ (fun p call hI hcall => yields_sized hwidth hcap hI call hcall) calls
      (hstart.of_eq hnew) (along_of_forall (Call.run tok width) hcalls)
  exact hall.of_eq hrun

end

/-! ## The concrete tokenizer -/

theorem advance_letter {c : Char} (hlow : ' ' ≤ c) (hhigh : c ≤ '~') :
    vte.advance (.ground []) (UInt8.ofNat c.toNat) = (.ground [], [.print c]) := by
  have hspace : 32 ≤ c.toNat := hlow
  have htilde : c.toNat ≤ 126 := hhigh
  have hval : (UInt8.ofNat c.toNat).toNat = c.toNat := by
    rw [UInt8.toNat_ofNat']
    exact Nat.mod_eq_of_lt (by omega)
  have hne : ∀ b : UInt8, b.toNat < 32 → UInt8.ofNat c.toNat ≠ b := by
    intro b hb heq
    rw [← heq, hval] at hb
    omega
  show Vte.advance (.ground []) (UInt8.ofNat c.toNat) = _
  unfold Vte.advance
  rw [if_neg (by
    rintro (hesc | hcan | hsub)
    · exact hne 0x1b (by decide) hesc
    · exact hne 0x18 (by decide) hcan
    · exact hne 0x1a (by decide) hsub)]
  show Vte.groundByte (UInt8.ofNat c.toNat) = _
  unfold Vte.groundByte
  rw [if_neg (by
    rw [UInt8.lt_iff_toNat_lt, hval]
    exact Nat.not_lt.mpr hspace), if_pos (by
    rw [UInt8.lt_iff_toNat_lt, hval]
    exact Nat.lt_succ_of_le htilde), hval, Char.ofNat_toNat]

theorem advanceAll_letters {letters : List Char} (h : ∀ c ∈ letters, ' ' ≤ c ∧ c ≤ '~') :
    vte.advanceAll (.ground []) (letterBytes letters) = (.ground [], letters.map .print) := by
  induction letters with
  | nil => rfl
  | cons c letters ih =>
      rw [List.forall_mem_cons] at h
      show vte.advanceAll (.ground []) (UInt8.ofNat c.toNat :: letterBytes letters) = _
      rw [vte.advanceAll_cons, advance_letter h.1.1 h.1.2, ih h.2]
      rfl

theorem readsBanner_vte : ReadsBanner vte where
  lawful := lawful_vte
  quiet := rfl
  head := by decide +kernel
  line := by
    intro letters hletters
    have hafter : vte.after bannerHead = .ground [] := by decide +kernel
    have hdim : vte.advanceAll (.ground []) [0x1b, 0x5b, 0x32, 0x6d] =
        (.ground [], [.csiDispatch [[2]] [] 'm']) := by decide +kernel
    have hend : (vte.advanceAll (.ground []) [0x1b, 0x5b, 0x30, 0x6d, 0x0d, 0x0a]).2 =
        [.csiDispatch [[0]] [] 'm', .execute 13, .execute 10] := by decide +kernel
    unfold lineBytes
    rw [hafter, vte.advanceAll_append, vte.advanceAll_append, hdim]
    dsimp only
    rw [advanceAll_letters hletters, hend]
    rfl

theorem narrow_ascii : Narrow asciiWidth := by
  have hdecided : ∀ set ∈ [Charset.ascii, .uk, .decSpecial], ∀ n < 127, 32 ≤ n →
      charWidth asciiWidth (set.map (Char.ofNat n)) = some 1 := by decide +kernel
  intro set c hlow hhigh
  have hspace : 32 ≤ c.toNat := hlow
  have htilde : c.toNat ≤ 126 := hhigh
  rw [← Char.ofNat_toNat c]
  refine hdecided set ?_ c.toNat (by omega) hspace
  cases set with
  | ascii => decide
  | uk => decide
  | decSpecial => decide

end Tymux.Analysis.RestartBanner
