import Tymux.Analysis.Vt.Rows

/-!
# Grids keep their shape

`Fits` is the representation invariant of a grid, relative to what an operation leaves alone: the
size, the limit of the scrollback, the number of drawn rows, and a bound on the freed rows. Each
operation of `grid.rs` returns and keeps it. The width of the rows in view is claimed under the
condition `view` of the frame; only feeding a row to the scrollback can break it, from an `Armed`
grid.
-/

set_option autoImplicit false

namespace Tymux.Analysis.Vt

open Tymux.Lib Tymux.Model Tymux.Model.Vt

/-! ## The invariant -/

/-- What an operation on a grid leaves alone, and the condition for the rows in view. -/
structure Frame where
  size : Size
  cap : ℕ
  freed : ℕ
  drawn : ℕ
  view : Prop

/-- The representation invariant of a grid. -/
structure Fits (b : Frame) (g : Grid) : Prop where
  size_eq : g.size = b.size
  cap_eq : g.scrollbackLen = b.cap
  freed_le : b.freed ≤ g.freedRows
  rows_pos : 1 ≤ b.size.rows
  cols_pos : 1 ≤ b.size.cols
  cols_le : b.size.cols ≤ u16Max
  rows_len : g.rows.length = b.drawn
  rows_fit : ∀ row ∈ g.rows, RowFits b.size.cols row
  history_fit : ∀ row ∈ g.scrollback, row.cells.length ≤ b.size.cols ∧ PairedCells row.cells
  pos_row : g.pos.row < b.size.rows
  pos_col : g.pos.col ≤ b.size.cols
  saved_row : g.savedPos.row < b.size.rows
  region_le : g.scrollTop ≤ g.scrollBottom
  region_lt : g.scrollBottom < b.size.rows
  history_len : g.scrollback.length ≤ b.cap
  offset_le : g.scrollbackOffset ≤ g.scrollback.length
  view_full : b.view → ∀ i row, g.scrollback[i]? = some row →
    g.scrollback.length ≤ i + g.scrollbackOffset →
    i + g.scrollbackOffset < g.scrollback.length + b.drawn → row.cells.length = b.size.cols
  tabs_len : g.tabStops.length = b.size.cols

/-- A row fed to the scrollback brings a row into view that is narrower than the screen: the
region starts at the top, the scrollback is full, the view is at its far end, and the row that
follows the view is narrow. -/
def Narrows (g : Grid) : Prop :=
  g.scrollTop = 0 ∧ 0 < g.scrollbackOffset ∧ g.scrollbackOffset = g.scrollback.length ∧
    g.scrollback.length = g.scrollbackLen ∧
    ∃ row, g.scrollback[g.rows.length]? = some row ∧ row.cells.length < g.size.cols

/-- The next line feed does so: the cursor is on the last row of the region. -/
def Armed (g : Grid) : Prop := g.pos.row = g.scrollBottom ∧ Narrows g

section

variable {b : Frame} {g : Grid}

theorem Fits.cursor (h : Fits b g) {p : Pos} (hr : p.row < b.size.rows)
    (hc : p.col ≤ b.size.cols) : Fits b { g with pos := p } :=
  { h with pos_row := hr, pos_col := hc }

theorem Fits.putRows (h : Fits b g) {rows : List Row} (hlen : rows.length = g.rows.length)
    (hrows : ∀ row ∈ rows, RowFits b.size.cols row) : Fits b { g with rows } :=
  { h with rows_len := hlen.trans h.rows_len, rows_fit := hrows }

theorem Fits.region (h : Fits b g) {top bottom : ℕ} (hle : top ≤ bottom)
    (hlt : bottom < b.size.rows) : Fits b { g with scrollTop := top, scrollBottom := bottom } :=
  { h with region_le := hle, region_lt := hlt }

theorem Fits.putTabs (h : Fits b g) {tabStops : List Bool}
    (hlen : tabStops.length = g.tabStops.length) : Fits b { g with tabStops } :=
  { h with tabs_len := hlen.trans h.tabs_len }

theorem Fits.rows_eq (h : Fits b g) : g.size.rows = b.size.rows := congrArg Size.rows h.size_eq

theorem Fits.cols_eq (h : Fits b g) : g.size.cols = b.size.cols := congrArg Size.cols h.size_eq

theorem single_blankCell (g : Grid) : Single g.blankCell := single_clear _ _

theorem rowFits_newRow (g : Grid) : RowFits g.size.cols g.newRow := by
  unfold Grid.newRow
  dsimp only
  split_ifs
  · exact rowFits_clear (rowFits_new _) _
  · exact rowFits_new _

/-! ## The cursor -/

theorem colClamp_eq (g : Grid) (hcols : 1 ≤ g.size.cols) :
    g.colClamp = some { g with pos := ⟨g.pos.row, min g.pos.col (g.size.cols - 1)⟩ } := by
  unfold Grid.colClamp
  rw [checkedSub_of_le hcols]
  show some (if g.size.cols - 1 < g.pos.col then _ else _) = _
  split_ifs with hlt
  · rw [min_eq_right (by omega)]
  · rw [min_eq_left (by omega)]

theorem rowClamp_eq (g : Grid) (hrows : 1 ≤ g.size.rows) :
    g.rowClamp = some { g with pos := ⟨min g.pos.row (g.size.rows - 1), g.pos.col⟩ } := by
  unfold Grid.rowClamp
  rw [checkedSub_of_le hrows]
  show some (if g.size.rows - 1 < g.pos.row then _ else _) = _
  split_ifs with hlt
  · rw [min_eq_right (by omega)]
  · rw [min_eq_left (by omega)]

/-- The last row the cursor may be on. -/
def bottomRow (g : Grid) (limit : Bool) : ℕ := if limit then g.scrollBottom else g.size.rows - 1

theorem rowClampBottom_eq (g : Grid) (hrows : 1 ≤ g.size.rows) (limit : Bool) :
    g.rowClampBottom limit = some ({ g with
      pos := ⟨min g.pos.row (bottomRow g limit), g.pos.col⟩ }, g.pos.row - bottomRow g limit) := by
  have hbottom : (if limit then some g.scrollBottom else checkedSub g.size.rows 1) =
      some (bottomRow g limit) := by
    unfold bottomRow
    rw [checkedSub_of_le hrows]
    split_ifs <;> rfl
  unfold Grid.rowClampBottom
  rw [hbottom]
  show (if bottomRow g limit < g.pos.row then _ else _) = _
  split_ifs with hlt
  · rw [checkedSub_of_le hlt.le, min_eq_right hlt.le]
    rfl
  · rw [min_eq_left (by omega), Nat.sub_eq_zero_of_le (by omega)]
    rfl

theorem Fits.bottomRow_lt (h : Fits b g) (limit : Bool) : bottomRow g limit < b.size.rows := by
  have hrows := h.rows_pos
  have hlt := h.region_lt
  unfold bottomRow
  rw [h.rows_eq]
  split_ifs <;> omega

theorem yields_colClamp (h : Fits b g) {pos : Pos} (hr : pos.row < b.size.rows) :
    Yields (Grid.colClamp { g with pos }) (Fits b) := by
  have hcols : 1 ≤ g.size.cols := h.cols_eq ▸ h.cols_pos
  rw [colClamp_eq { g with pos } hcols]
  refine yields_some (h.cursor hr ?_)
  have hc := h.cols_eq
  show min pos.col (g.size.cols - 1) ≤ b.size.cols
  omega

theorem yields_colClamp_self (h : Fits b g) : Yields g.colClamp (Fits b) :=
  yields_colClamp h h.pos_row

theorem yields_rowSet (h : Fits b g) (i : ℕ) : Yields (g.rowSet i) (Fits b) := by
  have hrows := h.rows_pos
  have hr := h.rows_eq
  unfold Grid.rowSet
  rw [rowClamp_eq { g with pos := { g.pos with row := i } } (by show 1 ≤ g.size.rows; omega)]
  refine yields_some (h.cursor ?_ h.pos_col)
  show min i (g.size.rows - 1) < b.size.rows
  omega

/-- The row is clamped to the screen or to the region. -/
theorem yields_rowClampBottom (h : Fits b g) (pos : Pos) (hc : pos.col ≤ b.size.cols)
    (limit : Bool) :
    Yields (Grid.rowClampBottom { g with pos } limit) fun r => Fits b r.1 := by
  have hrows := h.rows_pos
  have hr := h.rows_eq
  rw [rowClampBottom_eq { g with pos } (by show 1 ≤ g.size.rows; omega)]
  refine yields_some (h.cursor ?_ hc)
  have hlt := h.bottomRow_lt limit
  show min pos.row (bottomRow g limit) < b.size.rows
  omega

theorem rowClampTop_eq (g : Grid) (limit : Bool) :
    ∃ row, g.rowClampTop limit = { g with pos := ⟨row, g.pos.col⟩ } ∧
      (row = g.pos.row ∨ row = g.scrollTop) := by
  unfold Grid.rowClampTop
  split_ifs
  · exact ⟨_, rfl, Or.inr rfl⟩
  · exact ⟨_, rfl, Or.inl rfl⟩

theorem yields_setPos (h : Fits b g) (pos : Pos) : Yields (g.setPos pos) (Fits b) := by
  have hrows : 1 ≤ g.size.rows := h.rows_eq ▸ h.rows_pos
  unfold Grid.setPos
  dsimp only
  generalize (if g.originMode = true then _ else pos : Pos) = pos'
  obtain ⟨row, heq, -⟩ := rowClampTop_eq { g with pos := pos' } g.originMode
  rw [heq]
  refine yields_bind_of_eq (rowClampBottom_eq { g with pos := ⟨row, pos'.col⟩ } hrows _) ?_
  refine yields_colClamp h ?_
  have hlt := h.bottomRow_lt g.originMode
  show min row (bottomRow g g.originMode) < b.size.rows
  omega

theorem Fits.saveCursor (h : Fits b g) : Fits b g.saveCursor := { h with saved_row := h.pos_row }

theorem yields_restoreCursor (h : Fits b g) : Yields g.restoreCursor (Fits b) := by
  have h' : Fits b { g with originMode := g.savedOriginMode } := { h with }
  exact yields_colClamp h' h.saved_row

theorem yields_setOriginMode (h : Fits b g) (mode : Bool) :
    Yields (g.setOriginMode mode) (Fits b) := by
  have h' : Fits b { g with originMode := mode } := { h with }
  exact yields_setPos h' {}

theorem yields_rowIncClamp (h : Fits b g) (count : ℕ) : Yields (g.rowIncClamp count) (Fits b) := by
  unfold Grid.rowIncClamp
  exact (yields_rowClampBottom h ⟨saturatingAdd u16Max g.pos.row count, g.pos.col⟩ h.pos_col _).bind
    fun r hr => yields_some hr

theorem Fits.rowDecClamp (h : Fits b g) (count : ℕ) : Fits b (g.rowDecClamp count) := by
  have hrow := h.pos_row
  have hle := h.region_le
  have hlt := h.region_lt
  unfold Grid.rowDecClamp
  obtain ⟨row, heq, hor⟩ := rowClampTop_eq
    { g with pos := { g.pos with row := g.pos.row - count } } g.inScrollRegion
  rw [heq]
  refine h.cursor ?_ h.pos_col
  show row < b.size.rows
  rcases hor with rfl | rfl
  · show g.pos.row - count < b.size.rows
    omega
  · show g.scrollTop < b.size.rows
    omega

theorem yields_colSet (h : Fits b g) (i : ℕ) : Yields (g.colSet i) (Fits b) :=
  yields_colClamp h h.pos_row

theorem yields_colIncClamp (h : Fits b g) (count : ℕ) : Yields (g.colIncClamp count) (Fits b) :=
  yields_colClamp h h.pos_row

theorem yields_colDecRestricted (h : Fits b g) (count : ℕ) :
    Yields (g.colDecRestricted count) (Fits b) := by
  unfold Grid.colDecRestricted
  refine (yields_colClamp_self h).bind fun g' h' => yields_some ?_
  refine h'.cursor h'.pos_row ?_
  have hc := h'.pos_col
  show g'.pos.col - count ≤ b.size.cols
  omega

/-! ## Tab stops -/

/-- The search for a tab stop returns. -/
theorem yields_findStop {stops : List Bool} (cols : List ℕ) (hcols : ∀ c ∈ cols, c < stops.length)
    {found : Option ℕ} (hfound : ∀ c ∈ found, c < stops.length) :
    Yields (cols.foldlM (fun found c => if found.isSome then some found else do
        let stop ← stops[c]?
        return if stop then some c else none) found) fun found : Option ℕ =>
      ∀ c ∈ found, c < stops.length := by
  refine yields_foldlM (fun found : Option ℕ => ∀ c ∈ found, c < stops.length) cols ?_ hfound
  intro found c hc hI
  split_ifs
  · exact yields_some hI
  · refine (yields_getElem? (hcols c hc) fun a ha => ha).bind fun stop _ => yields_some ?_
    intro c' hc'
    split_ifs at hc'
    · rw [Option.mem_some_iff] at hc'
      exact hc' ▸ hcols c hc
    · cases hc'

/-- The column of a stop that was found is on the screen. -/
theorem stopCol_le (h : Fits b g) {found : Option ℕ} (hf : ∀ c ∈ found, c < g.tabStops.length)
    {last : ℕ} (hlast : last ≤ b.size.cols) :
    (found.filter (· ≤ u16Max)).getD last ≤ b.size.cols := by
  have htabs := h.tabs_len
  cases hfound : found.filter (· ≤ u16Max) with
  | none => exact hlast
  | some c =>
      have := hf c (Option.eq_some_of_filter_eq_some hfound)
      show c ≤ b.size.cols
      omega

theorem yields_colForwardTab (h : Fits b g) (count : ℕ) :
    Yields (g.colForwardTab count) (Fits b) := by
  unfold Grid.colForwardTab
  split_ifs
  · exact yields_some h
  · refine (yields_repeatM (Fits b) ?_ count h).bind fun g' h' => yields_colClamp_self h'
    intro g h
    refine (yields_findStop _ ?_ (by simp)).bind fun found hfound => ?_
    · intro c hc
      rw [List.mem_range'_1] at hc
      omega
    · have hcols : 1 ≤ g.size.cols := h.cols_eq ▸ h.cols_pos
      refine yields_bind_of_eq (checkedSub_of_le hcols) (yields_some ?_)
      refine h.cursor h.pos_row (stopCol_le h hfound ?_)
      rw [h.cols_eq]
      omega

theorem yields_colBackTab (h : Fits b g) (count : ℕ) : Yields (g.colBackTab count) (Fits b) := by
  unfold Grid.colBackTab
  refine yields_repeatM (Fits b) ?_ count h
  intro g h
  have hcols : 1 ≤ g.size.cols := h.cols_eq ▸ h.cols_pos
  have htabs : g.tabStops.length = g.size.cols := h.tabs_len.trans h.cols_eq.symm
  refine yields_bind_of_eq (checkedSub_of_le hcols) ?_
  refine (yields_findStop _ ?_ (by simp)).bind fun found hfound => yields_some ?_
  · intro c hc
    rw [List.mem_reverse, List.mem_range] at hc
    omega
  · exact h.cursor h.pos_row (stopCol_le h hfound (Nat.zero_le _))

theorem Fits.setTabStop (h : Fits b g) : Fits b g.setTabStop := h.putTabs (List.length_set)

theorem Fits.clearTabStop (h : Fits b g) : Fits b g.clearTabStop := h.putTabs (List.length_set)

theorem Fits.clearAllTabStops (h : Fits b g) : Fits b g.clearAllTabStops :=
  h.putTabs (List.length_map _)

/-! ## Rows -/

theorem yields_updateRow (h : Fits b g) {i : ℕ} (hi : i < b.drawn) {f : Row → Option Row}
    (hf : ∀ row, g.rows[i]? = some row → RowFits b.size.cols row →
      Yields (f row) (RowFits b.size.cols)) :
    Yields (updateAt g.rows i f) fun rows =>
      rows.length = g.rows.length ∧ ∀ row ∈ rows, RowFits b.size.cols row := by
  have hlt : i < g.rows.length := by rw [h.rows_len]; exact hi
  refine (yields_updateAt hlt (Q := fun _ r => RowFits b.size.cols r) fun row hrow => ?_).mono ?_
  · exact hf row hrow (h.rows_fit row (List.mem_of_getElem? hrow))
  · rintro rows ⟨a, r, -, hr, rfl⟩
    refine ⟨List.length_set, fun row hrow => ?_⟩
    rcases List.mem_or_eq_of_mem_set hrow with hrow | rfl
    · exact h.rows_fit row hrow
    · exact hr

/-- INTERNAL: The current row may be changed to any row that fits; nothing else changes. -/
theorem yields_modifyCurrentRow (h : Fits b g) (hd : b.drawn = b.size.rows) {f : Row → Option Row}
    (hf : ∀ row, RowFits b.size.cols row → Yields (f row) (RowFits b.size.cols)) :
    Yields (g.modifyCurrentRow f) fun g' =>
      Fits b g' ∧ ∃ rows, g' = { g with rows } ∧ rows.length = g.rows.length := by
  unfold Grid.modifyCurrentRow
  refine (yields_updateRow h (hd ▸ h.pos_row) fun row _ => hf row).bind fun rows hrows =>
    yields_some ?_
  exact ⟨h.putRows hrows.1 hrows.2, rows, rfl, hrows.1⟩

theorem rowsFit_clearRows {cols : ℕ} {rows : List Row} (h : ∀ row ∈ rows, RowFits cols row)
    (attrs : Attrs) : ∀ row ∈ Grid.clearRows rows attrs, RowFits cols row := by
  intro row hrow
  obtain ⟨r, hr, rfl⟩ := List.mem_map.mp hrow
  exact rowFits_clear (h r hr) attrs

theorem Fits.eraseAll (h : Fits b g) (attrs : Attrs) : Fits b (g.eraseAll attrs) := by
  have h' := h.putRows (List.length_map _) (rowsFit_clearRows h.rows_fit attrs)
  exact { h' with freed_le := le_trans h.freed_le (Nat.le_add_right _ _) }

theorem yields_clear (h : Fits b g) : Yields g.clear (Fits b) := by
  have hrows := h.rows_pos
  have hr := h.rows_eq
  unfold Grid.clear
  refine yields_bind_of_eq (checkedSub_of_le (by omega)) (yields_some ?_)
  have h' := h.putRows (List.length_map _) (rowsFit_clearRows h.rows_fit {})
  exact { h' with
    freed_le := le_trans h.freed_le (Nat.le_add_right _ _)
    pos_row := hrows
    pos_col := Nat.zero_le _
    saved_row := hrows
    region_le := Nat.zero_le _
    region_lt := by show g.size.rows - 1 < _; omega }

theorem yields_softReset (h : Fits b g) : Yields g.softReset (Fits b) := by
  have hrows := h.rows_pos
  have hr := h.rows_eq
  unfold Grid.softReset
  refine yields_bind_of_eq (checkedSub_of_le (by omega)) (yields_some ?_)
  exact { h with
    saved_row := hrows
    region_le := Nat.zero_le _
    region_lt := by show g.size.rows - 1 < _; omega }

theorem rowFits_alignTest {cols : ℕ} {row : Row} (h : RowFits cols row) (width : Char → Option ℕ) :
    RowFits cols { row.clear {} with
      cells := (row.clear {}).cells.map fun c => c.set width 'E' {} } := by
  refine ⟨?_, .of_forall ?_⟩
  · show List.length (List.map _ _) = cols
    rw [List.length_map]
    exact (rowFits_clear h {}).1
  · intro c hc
    obtain ⟨a, -, rfl⟩ := List.mem_map.mp hc
    exact single_set a {} (Or.inl rfl)

theorem yields_alignTest (h : Fits b g) (width : Char → Option ℕ) :
    Yields (g.alignTest width) (Fits b) := by
  have hrows := h.rows_pos
  have hr := h.rows_eq
  unfold Grid.alignTest
  refine yields_bind_of_eq (checkedSub_of_le (by omega)) (yields_some ?_)
  have hfit : ∀ row ∈ g.rows.map (fun row : Row => { row.clear {} with
      cells := (row.clear {}).cells.map fun c => c.set width 'E' {} }),
      RowFits b.size.cols row := by
    intro row hrow
    obtain ⟨r, hr, rfl⟩ := List.mem_map.mp hrow
    exact rowFits_alignTest (h.rows_fit r hr) width
  have h' := h.putRows (List.length_map _) hfit
  exact { h' with
    pos_row := hrows
    pos_col := Nat.zero_le _
    region_le := Nat.zero_le _
    region_lt := by show g.size.rows - 1 < _; omega }

/-! ## Erasing -/

theorem yields_eraseRowForward (h : Fits b g) (hd : b.drawn = b.size.rows) (attrs : Attrs) :
    Yields (g.eraseRowForward attrs) (Fits b) := by
  unfold Grid.eraseRowForward
  refine (yields_modifyCurrentRow h hd fun row hrow => ?_).mono fun g' h' => h'.1
  refine (yields_eraseCols hrow _ h.cols_eq.le attrs).bind fun row hrow => yields_some ?_
  split_ifs
  · exact rowFits_wrap hrow false
  · exact hrow

theorem yields_eraseRowBackward (h : Fits b g) (hd : b.drawn = b.size.rows) (attrs : Attrs) :
    Yields (g.eraseRowBackward attrs) fun g' =>
      Fits b g' ∧ ∃ rows, g' = { g with rows } ∧ rows.length = g.rows.length := by
  have hcols := h.cols_pos
  have hc := h.cols_eq
  unfold Grid.eraseRowBackward
  refine yields_bind_of_eq (checkedSub_of_le (by omega)) ?_
  exact yields_modifyCurrentRow h hd fun row hrow => yields_eraseCols hrow _ (by omega) attrs

theorem yields_eraseRow (h : Fits b g) (hd : b.drawn = b.size.rows) (attrs : Attrs) :
    Yields (g.eraseRow attrs) (Fits b) :=
  (yields_modifyCurrentRow h hd fun _ hrow => yields_some (rowFits_clear hrow attrs)).mono
    fun _ h' => h'.1

theorem yields_eraseCells (h : Fits b g) (hd : b.drawn = b.size.rows) (count : ℕ) (attrs : Attrs) :
    Yields (g.eraseCells count attrs) (Fits b) := by
  have hc := h.cols_eq
  unfold Grid.eraseCells
  refine (yields_modifyCurrentRow h hd fun row hrow => ?_).mono fun g' h' => h'.1
  exact yields_eraseCols hrow _ (by omega) attrs

theorem yields_eraseAllForward (h : Fits b g) (hd : b.drawn = b.size.rows) (attrs : Attrs) :
    Yields (g.eraseAllForward attrs) (Fits b) := by
  unfold Grid.eraseAllForward
  refine yields_eraseRowForward (h.putRows ?_ ?_) hd attrs
  · rw [List.length_append, Grid.clearRows, List.length_map, ← List.length_append,
      List.take_append_drop]
  · intro row hrow
    rcases List.mem_append.mp hrow with hrow | hrow
    · exact h.rows_fit row (List.mem_of_mem_take hrow)
    · exact rowsFit_clearRows (fun r hr => h.rows_fit r (List.mem_of_mem_drop hr)) attrs row hrow

/-- The wrap flag of a row of the scrollback may be changed. -/
theorem Fits.putWrap (h : Fits b g) {i : ℕ} {row : Row} (hrow : g.scrollback[i]? = some row)
    (wrapped : Bool) : Fits b { g with scrollback := g.scrollback.set i (row.wrap wrapped) } := by
  refine { h with
    history_fit := ?_
    history_len := by rw [List.length_set]; exact h.history_len
    offset_le := by rw [List.length_set]; exact h.offset_le
    view_full := ?_ }
  · intro r hr
    rcases List.mem_or_eq_of_mem_set hr with hr | rfl
    · exact h.history_fit r hr
    · exact h.history_fit row (List.mem_of_getElem? hrow)
  · intro hv j r hr hlo hhi
    rw [List.length_set] at hlo hhi
    by_cases hj : i = j
    · subst hj
      obtain ⟨hlt, heq⟩ := List.getElem?_eq_some_iff.mp hr
      rw [List.getElem_set_self] at heq
      rw [← heq]
      exact h.view_full hv i row hrow hlo hhi
    · rw [List.getElem?_set_ne hj] at hr
      exact h.view_full hv j r hr hlo hhi

theorem yields_eraseAllBackward (h : Fits b g) (hd : b.drawn = b.size.rows) (attrs : Attrs) :
    Yields (g.eraseAllBackward attrs) (Fits b) := by
  unfold Grid.eraseAllBackward
  have h₁ : Fits b { g with
      rows := Grid.clearRows (g.rows.take g.pos.row) attrs ++ g.rows.drop g.pos.row } := by
    refine h.putRows ?_ ?_
    · rw [List.length_append, Grid.clearRows, List.length_map, ← List.length_append,
        List.take_append_drop]
    · intro row hrow
      rcases List.mem_append.mp hrow with hrow | hrow
      · exact rowsFit_clearRows (fun r hr => h.rows_fit r (List.mem_of_mem_take hr)) attrs row hrow
      · exact h.rows_fit row (List.mem_of_mem_drop hrow)
  refine (yields_eraseRowBackward h₁ hd attrs).bind fun g₂ h₂ => ?_
  refine (yields_modifyCurrentRow h₂.1 hd fun row hrow => yields_some (rowFits_wrap hrow false)).bind
    fun g₃ h₃ => ?_
  replace h₃ := h₃.1
  split_ifs
  · dsimp only
    split_ifs with habs
    · refine (yields_updateAt habs (Q := fun row r => r = row.wrap false)
        fun row _ => yields_some rfl).bind ?_
      rintro sb ⟨row, r, hrow, rfl, rfl⟩
      exact yields_some (h₃.putWrap hrow false)
    · refine yields_bind_of_eq (checkedSub_of_le (by omega)) (yields_some ?_)
      refine h₃.putRows (List.length_modify _ _ _) ?_
      intro row hrow
      obtain ⟨i, hi⟩ := List.mem_iff_getElem?.mp hrow
      rw [List.getElem?_modify] at hi
      obtain ⟨r, hr, rfl⟩ := Option.map_eq_some_iff.mp hi
      have hfit := h₃.rows_fit r (List.mem_of_getElem? hr)
      split_ifs
      · exact rowFits_wrap hfit false
      · exact hfit
  · exact yields_some h₃

/-! ## Inserting and deleting -/

theorem yields_insertCells (h : Fits b g) (hd : b.drawn = b.size.rows) (count : ℕ) :
    Yields (g.insertCells count) fun g' => Fits b g' ∧ g'.pos = g.pos := by
  have hc := h.cols_eq
  have hrow : g.pos.row < g.rows.length := by rw [h.rows_len, hd]; exact h.pos_row
  obtain ⟨current, hcurrent⟩ : ∃ row, g.rows[g.pos.row]? = some row :=
    ⟨_, List.getElem?_eq_getElem hrow⟩
  obtain ⟨hlen, hpaired⟩ := h.rows_fit current (List.mem_of_getElem? hcurrent)
  unfold Grid.insertCells
  have hwide : ∃ wide, (if g.pos.col < g.size.cols then
      (g.drawingCell g.pos).map fun c => c.wideContinuation else some false) = some wide ∧
      Insertable wide g.pos.col current.cells := by
    split_ifs with hcol
    · obtain ⟨c, hcell⟩ : ∃ c, current.cells[g.pos.col]? = some c :=
        ⟨_, List.getElem?_eq_getElem (by omega)⟩
      refine ⟨c.wideContinuation, ?_, insertable_of_paired hpaired hcell⟩
      unfold Grid.drawingCell
      rw [hcurrent, Option.bind_some, hcell]
      rfl
    · refine ⟨false, rfl, current.cells, [], by simp, ?_, hpaired, .nil⟩
      have hle := h.pos_col
      omega
  obtain ⟨wide, hwide, hins⟩ := hwide
  refine yields_bind_of_eq hwide ?_
  unfold Grid.modifyCurrentRow
  refine (yields_updateRow h (hd ▸ h.pos_row) fun row hget _ => ?_).bind fun rows hrows =>
    yields_some ⟨h.putRows hrows.1 hrows.2, rfl⟩
  rw [hcurrent, Option.some_inj] at hget
  subst hget
  refine (yields_repeat_insertBlank (single_blankCell g) _ hins).bind fun r hr => ?_
  have hcols := h.cols_pos
  rw [hc]
  exact yields_truncate hr.1 hcols (by omega)

theorem yields_deleteCells (h : Fits b g) (hd : b.drawn = b.size.rows) (count : ℕ) :
    Yields (g.deleteCells count) (Fits b) := by
  have hc := h.cols_eq
  have hcol := h.pos_col
  unfold Grid.deleteCells
  refine yields_bind_of_eq (checkedSub_of_le (by omega)) ?_
  refine (yields_modifyCurrentRow h hd fun row hrow => ?_).mono fun g' h' => h'.1
  refine (yields_repeat_remove g.pos.col _ hrow (by omega)).bind fun r hr => yields_some ?_
  rw [hc]
  exact rowFits_resize hr.2 _ (single_blankCell g)

theorem yields_insertLines (h : Fits b g) (hd : b.drawn = b.size.rows) (count : ℕ) :
    Yields (g.insertLines count) (Fits b) := by
  unfold Grid.insertLines
  refine (yields_colClamp_self h).bind fun g h => ?_
  split_ifs with hin
  · exact yields_some h
  · unfold Grid.inScrollRegion at hin
    simp only [Bool.not_eq_true', Bool.not_eq_false, Bool.and_eq_true, decide_eq_true_eq] at hin
    have h' : Fits b { g with pos := { g.pos with col := 0 } } :=
      h.cursor h.pos_row (Nat.zero_le _)
    refine yields_bind_of_eq (checkedSub_of_le hin.2) ?_
    refine yields_repeatM (Fits b) ?_ _ h'
    intro g h
    have hrow := h.pos_row
    have hlt := h.region_lt
    have hlen : g.rows.length = b.size.rows := h.rows_len.trans hd
    refine (yields_removeAt (by omega)).bind fun r hr => ?_
    have hr2 : r.2.length + 1 = g.rows.length := by
      rw [hr.2, List.length_eraseIdx_of_lt (by omega)]
      omega
    refine (yields_insertAt g.newRow (by omega)).bind fun rows hrows => yields_some ?_
    refine h.putRows ?_ fun row hmem => ?_
    · rw [hrows, List.length_insertIdx_of_le_length (by omega)]
      exact hr2
    · rw [hrows, List.mem_insertIdx (by omega), hr.2] at hmem
      rcases hmem with rfl | hmem
      · rw [← h.cols_eq]
        exact rowFits_newRow g
      · exact h.rows_fit row (List.mem_of_mem_eraseIdx hmem)

theorem yields_deleteLines (h : Fits b g) (hd : b.drawn = b.size.rows) (count : ℕ) :
    Yields (g.deleteLines count) (Fits b) := by
  unfold Grid.deleteLines
  refine (yields_colClamp_self h).bind fun g h => ?_
  split_ifs with hin
  · exact yields_some h
  · unfold Grid.inScrollRegion at hin
    simp only [Bool.not_eq_true', Bool.not_eq_false, Bool.and_eq_true, decide_eq_true_eq] at hin
    have h' : Fits b { g with pos := { g.pos with col := 0 } } :=
      h.cursor h.pos_row (Nat.zero_le _)
    refine yields_bind_of_eq (checkedSub_of_le hin.2) ?_
    refine yields_repeatM (Fits b) ?_ _ h'
    intro g h
    have hrow := h.pos_row
    have hlt := h.region_lt
    have hlen : g.rows.length = b.size.rows := h.rows_len.trans hd
    refine (yields_insertAt g.newRow (by omega)).bind fun rows hrows => ?_
    have hrl : rows.length = g.rows.length + 1 := by
      rw [hrows, List.length_insertIdx_of_le_length (by omega)]
    refine (yields_removeAt (by omega)).bind fun r hr => yields_some ?_
    refine h.putRows ?_ fun row hmem => ?_
    · rw [hr.2, List.length_eraseIdx_of_lt (by omega)]
      omega
    · rw [hr.2] at hmem
      replace hmem := List.mem_of_mem_eraseIdx hmem
      rw [hrows, List.mem_insertIdx (by omega)] at hmem
      rcases hmem with rfl | hmem
      · rw [← h.cols_eq]
        exact rowFits_newRow g
      · exact h.rows_fit row hmem

/-! ## Scrolling -/

theorem yields_scrollDown (h : Fits b g) (hd : b.drawn = b.size.rows) (count : ℕ) (bce : Bool) :
    Yields (g.scrollDown count bce) (Fits b) := by
  unfold Grid.scrollDown
  refine yields_bind_of_eq (checkedSub_of_le h.region_le) ?_
  refine yields_repeatM (Fits b) ?_ _ h
  intro g h
  have hle := h.region_le
  have hlt := h.region_lt
  have hlen : g.rows.length = b.size.rows := h.rows_len.trans hd
  refine (yields_removeAt (by omega)).bind fun r hr => ?_
  have hr2 : r.2.length + 1 = g.rows.length := by
    rw [hr.2, List.length_eraseIdx_of_lt (by omega)]
    omega
  refine (yields_insertAt _ (by omega)).bind fun rows hrows => yields_some ?_
  refine h.putRows ?_ fun row hmem => ?_
  · rw [hrows, List.length_insertIdx_of_le_length (by omega)]
    exact hr2
  · rw [hrows, List.mem_insertIdx (by omega), hr.2] at hmem
    rcases hmem with rfl | hmem
    · rw [← h.cols_eq]
      split_ifs
      · exact rowFits_newRow g
      · exact rowFits_new _
    · exact h.rows_fit row (List.mem_of_mem_eraseIdx hmem)

/-- INTERNAL: A row that fits is added at the end of the scrollback, and rows in excess of the
limit are dropped at its start. The rows in view stay full unless the view, at the far end of a
full scrollback, moves onto a narrow row.
SRC: grid.rs:619-629 -/
theorem Fits.feed (h : Fits b g) {row : Row} (hrow : RowFits b.size.cols row) (hcap : 0 < b.cap)
    (htop : g.scrollTop = 0) (hview : b.view → ¬ Narrows g) :
    Fits b { g with
      scrollback := (g.scrollback ++ [row]).drop ((g.scrollback ++ [row]).length - g.scrollbackLen)
      freedRows := g.freedRows + ((g.scrollback ++ [row]).length - g.scrollbackLen)
      scrollbackOffset := if 0 < g.scrollbackOffset then
          min ((g.scrollback ++ [row]).drop
            ((g.scrollback ++ [row]).length - g.scrollbackLen)).length (g.scrollbackOffset + 1)
        else g.scrollbackOffset } := by
  have hlen := h.history_len
  have hoff := h.offset_le
  have hlength : (g.scrollback ++ [row]).length = g.scrollback.length + 1 := by simp
  have hcapEq := h.cap_eq
  rw [hlength]
  generalize hexcess : g.scrollback.length + 1 - g.scrollbackLen = excess
  have hdrop : ((g.scrollback ++ [row]).drop excess).length = g.scrollback.length + 1 - excess := by
    rw [List.length_drop, hlength]
  rw [hdrop]
  refine { h with
    freed_le := le_trans h.freed_le (Nat.le_add_right _ _)
    history_fit := ?_
    history_len := by show ((g.scrollback ++ [row]).drop excess).length ≤ b.cap; omega
    offset_le := ?_
    view_full := ?_ }
  · intro r hr
    rcases List.mem_append.mp (List.mem_of_mem_drop hr) with hr | hr
    · exact h.history_fit r hr
    · rw [List.mem_singleton.mp hr]
      exact ⟨hrow.1.le, hrow.2⟩
  · show (if 0 < g.scrollbackOffset then _ else _) ≤ ((g.scrollback ++ [row]).drop excess).length
    rw [hdrop]
    split_ifs <;> omega
  · intro hv i r hr hlo hhi
    dsimp only at hr hlo hhi
    rw [hdrop] at hlo hhi
    rw [List.getElem?_drop] at hr
    rcases Nat.lt_trichotomy (excess + i) g.scrollback.length with hlt | heq | hgt
    · rw [List.getElem?_append_left hlt] at hr
      split_ifs at hlo hhi with hpos
      · by_cases hfar : g.scrollbackOffset = b.cap
        · -- the view is at the far end of a full scrollback and moves by one row
          by_cases hi : excess + i < b.drawn
          · exact h.view_full hv _ r hr (by omega) (by omega)
          · have hentry : excess + i = g.rows.length := by rw [h.rows_len]; omega
            by_contra hne
            have hle := (h.history_fit r (List.mem_of_getElem? hr)).1
            refine hview hv ⟨htop, hpos, by omega, by omega, r, ?_, ?_⟩
            · rw [← hentry]
              exact hr
            · rw [h.cols_eq]
              omega
        · exact h.view_full hv _ r hr (by omega) (by omega)
      · omega
    · rw [heq, List.getElem?_append_right (le_refl _), Nat.sub_self] at hr
      simp only [List.getElem?_cons_zero, Option.some_inj] at hr
      rw [← hr]
      exact hrow.1
    · rw [List.getElem?_eq_none (by rw [hlength]; omega)] at hr
      cases hr

theorem yields_scrollOne (h : Fits b g) (hd : b.drawn = b.size.rows) (feed : Bool)
    (hview : feed = true → b.view → ¬ Narrows g) :
    Yields (Grid.scrollOne feed g) fun g' => Fits b g' ∧ g'.pos = g.pos := by
  have hle := h.region_le
  have hlt := h.region_lt
  have hlen : g.rows.length = b.size.rows := h.rows_len.trans hd
  unfold Grid.scrollOne
  refine (yields_insertAt g.newRow (by omega)).bind fun rows hrows => ?_
  have hrl : rows.length = g.rows.length + 1 := by
    rw [hrows, List.length_insertIdx_of_le_length (by omega)]
  have hfit : ∀ row ∈ rows, RowFits b.size.cols row := by
    intro row hmem
    rw [hrows, List.mem_insertIdx (by omega)] at hmem
    rcases hmem with rfl | hmem
    · rw [← h.cols_eq]
      exact rowFits_newRow g
    · exact h.rows_fit row hmem
  refine (yields_removeAt (by omega)).bind fun r hr => ?_
  have hr2 : r.2.length = g.rows.length := by
    rw [hr.2, List.length_eraseIdx_of_lt (by omega)]
    omega
  have h' : Fits b { g with rows := r.2 } := by
    refine h.putRows hr2 fun row hmem => ?_
    rw [hr.2] at hmem
    exact hfit row (List.mem_of_mem_eraseIdx hmem)
  dsimp only
  by_cases hcond : feed = true ∧ 0 < g.scrollbackLen ∧ g.scrollTop = 0
  · rw [if_pos hcond]
    refine yields_some ⟨?_, rfl⟩
    refine h'.feed (hfit r.1 (List.mem_of_getElem? hr.1)) ?_ hcond.2.2 ?_
    · rw [← h.cap_eq]
      exact hcond.2.1
    · intro hv hn
      refine hview hcond.1 hv ?_
      unfold Narrows at hn ⊢
      dsimp only at hn
      rw [hr2] at hn
      exact hn
  · rw [if_neg hcond]
    exact yields_some ⟨{ h' with freed_le := le_trans h.freed_le (Nat.le_add_right _ _) }, rfl⟩

theorem yields_scrollUpDiscard (h : Fits b g) (hd : b.drawn = b.size.rows) (count : ℕ) :
    Yields (g.scrollUpDiscard count) (Fits b) := by
  unfold Grid.scrollUpDiscard Grid.scrollRegionUp
  refine yields_bind_of_eq (checkedSub_of_le h.region_le) ?_
  refine yields_repeatM (Fits b) ?_ _ h
  intro g h
  exact (yields_scrollOne h hd false (by simp)).mono fun g' h' => h'.1

/-- Scrolling by at most one row. -/
theorem yields_scrollUp (h : Fits b g) (hd : b.drawn = b.size.rows) {count : ℕ} (hcount : count ≤ 1)
    (hview : count = 1 → b.view → ¬ Narrows g) :
    Yields (g.scrollUp count) fun g' => Fits b g' ∧ g'.pos = g.pos := by
  unfold Grid.scrollUp Grid.scrollRegionUp
  refine yields_bind_of_eq (checkedSub_of_le h.region_le) ?_
  rw [min_eq_left (by omega)]
  rcases Nat.le_one_iff_eq_zero_or_eq_one.mp hcount with rfl | rfl
  · exact yields_some ⟨h, rfl⟩
  · exact (yields_scrollOne h hd true fun _ => hview rfl).bind fun g' h' => yields_some h'

theorem yields_setScrollRegion (h : Fits b g) (top bottom : ℕ) :
    Yields (g.setScrollRegion top bottom) (Fits b) := by
  have hrows := h.rows_pos
  have hr := h.rows_eq
  unfold Grid.setScrollRegion
  refine yields_bind_of_eq (checkedSub_of_le (by omega)) (yields_some ?_)
  by_cases hlt : top < min bottom (g.size.rows - 1)
  · rw [if_pos hlt]
    have hbottom : min bottom (g.size.rows - 1) < b.size.rows := by omega
    refine (h.region hlt.le hbottom).cursor ?_ (Nat.zero_le _)
    show (if g.originMode then top else 0) < b.size.rows
    split_ifs <;> omega
  · rw [if_neg hlt]
    exact h

/-! ## The view -/

/-- A window of a list is changed, cell by cell. -/
theorem getElem?_mapWindow {α : Type} (l : List α) {skip : ℕ} (hskip : skip ≤ l.length) (n : ℕ)
    (f : α → α) (i : ℕ) :
    (l.take skip ++ ((l.drop skip).take n).map f ++ (l.drop skip).drop n)[i]? =
      l[i]?.map fun a => if skip ≤ i ∧ i < skip + n then f a else a := by
  have htake : (l.take skip).length = skip := by rw [List.length_take]; omega
  have hwindow : (((l.drop skip).take n).map f).length = min n (l.length - skip) := by
    rw [List.length_map, List.length_take, List.length_drop]
  rw [List.append_assoc]
  by_cases hlo : i < skip
  · rw [List.getElem?_append_left (by omega), List.getElem?_take_of_lt hlo]
    simp only [show ¬ (skip ≤ i ∧ i < skip + n) by omega, if_false, Option.map_id']
  · rw [List.getElem?_append_right (by omega), htake]
    by_cases hhi : i < skip + n
    · simp only [show skip ≤ i ∧ i < skip + n by omega, and_self, if_true]
      by_cases hlen : i < l.length
      · rw [List.getElem?_append_left (by omega), List.getElem?_map,
          List.getElem?_take_of_lt (by omega), List.getElem?_drop, Nat.add_sub_cancel' (by omega)]
      · rw [List.getElem?_append_right (by omega), hwindow, List.getElem?_drop, List.getElem?_drop,
          List.getElem?_eq_none (by omega), List.getElem?_eq_none (by omega)]
        rfl
    · simp only [show ¬ (skip ≤ i ∧ i < skip + n) by omega, if_false, Option.map_id']
      rw [List.getElem?_append_right (by omega), hwindow, List.getElem?_drop, List.getElem?_drop]
      by_cases hn : n ≤ l.length - skip
      · rw [min_eq_left hn]
        congr 1
        omega
      · rw [List.getElem?_eq_none (by omega), List.getElem?_eq_none (by omega)]

/-- INTERNAL: Padding makes the rows in view full, whatever they were.
SRC: reflow.rs:522-533 -/
theorem yields_padScrollbackWindow (h : Fits { b with view := False } g) :
    Yields g.padScrollbackWindow (Fits b) := by
  have hoff := h.offset_le
  have hcols := h.cols_eq
  have hdrawn : g.rows.length = b.drawn := h.rows_len
  unfold Grid.padScrollbackWindow
  refine yields_bind_of_eq (checkedSub_of_le (by omega)) (yields_some ?_)
  generalize hpad : (fun row : Row => if row.cells.length < g.size.cols then
      { row with cells := resizeCells row.cells g.size.cols Cell.new } else row) = pad
  have hfit : ∀ row ∈ g.scrollback, (pad row).cells.length = b.size.cols ∧
      PairedCells (pad row).cells := by
    intro row hrow
    obtain ⟨hlen, hpaired⟩ := h.history_fit row hrow
    replace hlen : row.cells.length ≤ b.size.cols := hlen
    replace hcols : g.size.cols = b.size.cols := hcols
    rw [← hpad]
    dsimp only
    split_ifs with hlt
    · refine ⟨(length_resizeCells _ _ _).trans hcols, ?_⟩
      exact paired_resizeCells hpaired hlt.le single_new
    · exact ⟨by omega, hpaired⟩
  have hskip : g.scrollback.length - min g.scrollbackOffset g.scrollback.length ≤
      g.scrollback.length := Nat.sub_le _ _
  generalize hwin : g.scrollback.take _ ++ _ ++ _ = sb
  have hget : ∀ i, sb[i]? = g.scrollback[i]?.map fun row =>
      if g.scrollback.length - min g.scrollbackOffset g.scrollback.length ≤ i ∧
        i < g.scrollback.length - min g.scrollbackOffset g.scrollback.length + g.rows.length
      then pad row else row := by
    intro i
    rw [← hwin]
    exact getElem?_mapWindow g.scrollback hskip g.rows.length pad i
  have hlen : sb.length = g.scrollback.length := by
    rw [← hwin, List.length_append, List.length_append, List.length_map, ← List.length_append,
      ← List.length_append, List.append_assoc, List.take_append_drop, List.take_append_drop]
  have hmem : ∀ i row, sb[i]? = some row → ∃ r, g.scrollback[i]? = some r ∧
      (if g.scrollback.length ≤ i + g.scrollbackOffset ∧
        i + g.scrollbackOffset < g.scrollback.length + b.drawn then pad r else r) = row := by
    intro i row hrow
    rw [hget] at hrow
    obtain ⟨r, hr, hrow⟩ := Option.map_eq_some_iff.mp hrow
    refine ⟨r, hr, ?_⟩
    rw [← hrow]
    congr 1
    apply propext
    omega
  refine { h with
    history_fit := ?_
    history_len := by show sb.length ≤ b.cap; rw [hlen]; exact h.history_len
    offset_le := by show g.scrollbackOffset ≤ sb.length; rw [hlen]; exact hoff
    view_full := ?_ }
  · intro row hrow
    obtain ⟨i, hi⟩ := List.mem_iff_getElem?.mp hrow
    obtain ⟨r, hr, rfl⟩ := hmem i row hi
    have hr' := List.mem_of_getElem? hr
    split_ifs
    · exact ⟨(hfit r hr').1.le, (hfit r hr').2⟩
    · exact h.history_fit r hr'
  · intro _ i row hi hlo hhi
    obtain ⟨r, hr, rfl⟩ := hmem i row hi
    dsimp only at hlo hhi
    rw [hlen] at hlo hhi
    rw [if_pos ⟨hlo, hhi⟩]
    exact (hfit r (List.mem_of_getElem? hr)).1

theorem yields_setScrollback (h : Fits b g) (rows : ℕ) : Yields (g.setScrollback rows) (Fits b) := by
  unfold Grid.setScrollback
  refine yields_padScrollbackWindow ?_
  exact { h with
    offset_le := Nat.min_le_right _ _
    view_full := fun hfalse => hfalse.elim }

/-- A grid without scrollback may be allocated. -/
theorem Fits.allocateRows (h : Fits b g) (hcap : b.cap = 0)
    (hd : b.drawn = 0 ∨ b.drawn = b.size.rows) :
    Fits { b with drawn := b.size.rows } g.allocateRows := by
  have hlen := h.rows_len
  have hnil : g.scrollback = [] := List.length_eq_zero_iff.mp (by have := h.history_len; omega)
  unfold Grid.allocateRows
  split_ifs with hempty
  · refine { h with
      rows_len := by rw [← h.rows_eq]; exact List.length_replicate
      rows_fit := ?_
      view_full := ?_ }
    · intro row hrow
      rw [List.eq_of_mem_replicate hrow, h.cols_eq]
      exact rowFits_new _
    · intro _ i row hi
      dsimp only at hi
      rw [hnil] at hi
      cases hi
  · have hne : g.rows.length ≠ 0 := by
      intro hzero
      exact hempty (List.isEmpty_iff.mpr (List.length_eq_zero_iff.mp hzero))
    have heq : b.drawn = b.size.rows := by omega
    rw [← heq]
    exact h

/-! ## The line feed -/

theorem yields_reverseIndex (h : Fits b g) (hd : b.drawn = b.size.rows) :
    Yields g.reverseIndex (Fits b) := by
  unfold Grid.reverseIndex
  refine (yields_colClamp_self h).bind fun g h => ?_
  split_ifs
  · exact yields_scrollDown h hd 1 true
  · refine yields_some (h.cursor ?_ h.pos_col)
    have hrow := h.pos_row
    show g.pos.row - 1 < b.size.rows
    omega

theorem yields_rowIncScroll (h : Fits b g) (hd : b.drawn = b.size.rows)
    (hview : b.view → ¬ Armed g) :
    Yields (g.rowIncScroll 1) fun r => Fits b r.1 ∧ r.1.pos.col = g.pos.col := by
  have hrows : 1 ≤ g.size.rows := h.rows_eq ▸ h.rows_pos
  have hbottom := h.bottomRow_lt g.inScrollRegion
  unfold Grid.rowIncScroll
  have heq := rowClampBottom_eq
    { g with pos := { g.pos with row := saturatingAdd u16Max g.pos.row 1 } } hrows g.inScrollRegion
  refine yields_bind_of_eq heq ?_
  have hclamped : Fits b { g with
      pos := ⟨min (saturatingAdd u16Max g.pos.row 1) (bottomRow g g.inScrollRegion), g.pos.col⟩ } :=
    h.cursor (by show min _ (bottomRow g g.inScrollRegion) < b.size.rows; omega) h.pos_col
  dsimp only
  split_ifs with hin
  · have hregion : g.scrollTop ≤ g.pos.row ∧ g.pos.row ≤ g.scrollBottom := by
      unfold Grid.inScrollRegion at hin
      simpa only [Bool.and_eq_true, decide_eq_true_eq] using hin
    have hsat : saturatingAdd u16Max g.pos.row 1 ≤ g.pos.row + 1 := by
      unfold saturatingAdd
      omega
    have hcount : saturatingAdd u16Max g.pos.row 1 - bottomRow g g.inScrollRegion ≤
        g.pos.row + 1 - g.scrollBottom := by
      unfold bottomRow
      rw [hin, if_pos rfl]
      omega
    refine (yields_scrollUp hclamped hd ?_ ?_).bind fun g' h' => yields_some ⟨h'.1, ?_⟩
    · show saturatingAdd u16Max g.pos.row 1 - bottomRow g g.inScrollRegion ≤ 1
      omega
    · intro hone hv hn
      refine hview hv ⟨?_, hn⟩
      replace hone : saturatingAdd u16Max g.pos.row 1 - bottomRow g g.inScrollRegion = 1 := hone
      omega
    · show g'.pos.col = g.pos.col
      rw [h'.2]
  · exact yields_some ⟨hclamped, rfl⟩

theorem yields_lineFeed (h : Fits b g) (hd : b.drawn = b.size.rows) (hview : b.view → ¬ Armed g) :
    Yields g.lineFeed (Fits b) := by
  unfold Grid.lineFeed
  refine (yields_rowIncScroll h hd hview).bind fun r hr => ?_
  refine Yields.bind (Q := Fits b) ?_ fun g' h' => yields_colClamp_self h'
  split_ifs
  · exact (yields_modifyCurrentRow hr.1 hd fun row hrow => yields_some (rowFits_wrap hrow false)).mono
      fun g' h' => h'.1
  · exact yields_some hr.1

/-- After the wrap there is room for the character. -/
theorem yields_colWrap (h : Fits b g) (hd : b.drawn = b.size.rows) {w : ℕ} (hw : w ≤ b.size.cols)
    (hview : b.size.cols - w < g.pos.col → b.view → ¬ Armed g) :
    Yields (g.colWrap w) fun g' => Fits b g' ∧ g'.pos.col + w ≤ b.size.cols := by
  have hc := h.cols_eq
  unfold Grid.colWrap
  refine yields_bind_of_eq (checkedSub_of_le (by omega)) ?_
  split_ifs with hlt
  · have h' : Fits b { g with pos := { g.pos with col := 0 } } :=
      h.cursor h.pos_row (Nat.zero_le _)
    refine (yields_rowIncScroll h' hd fun hv => hview (by omega) hv).bind fun r hr => ?_
    refine (yields_modifyCurrentRow hr.1 hd fun row hrow =>
      yields_some (rowFits_wrap hrow true)).mono ?_
    rintro g' ⟨hfit, rows, rfl, -⟩
    refine ⟨hfit, ?_⟩
    show r.1.pos.col + w ≤ b.size.cols
    rw [hr.2]
    show 0 + w ≤ b.size.cols
    omega
  · refine yields_some ⟨h, ?_⟩
    omega

end

end Tymux.Analysis.Vt
