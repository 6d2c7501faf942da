import Tymux.Analysis.Vt.Grids
import Tymux.Model.Vt.Screen

/-!
# Drawing a character

While a character is written, the current row is not paired: its second half is missing, or what
it overwrites was one half of another character. `Open` describes a grid of which everything but
the current row is in order. Writing the first half leaves paired cells before and after it, and
writing the second half closes the row again.
-/

set_option autoImplicit false

namespace Tymux.Analysis.Vt

open Tymux.Lib Tymux.Model Tymux.Model.Vt

/-- What the emulator relies on of `unicode-width`: no character is wider than two columns, and
neither an ASCII character nor the soft hyphen is wider than one. -/
structure WidthLaw (width : Char → Option ℕ) : Prop where
  le_two : ∀ c, (width c).getD 1 ≤ 2
  ascii : ∀ c, Cell.isAscii c = true → (width c).getD 1 ≤ 1
  softHyphen : ∀ c : Char, c.toNat = 0xad → (width c).getD 1 ≤ 1

section

variable {width : Char → Option ℕ}

/-- INTERNAL: The width a character is drawn with agrees with the flag of its cell.
SRC: screen.rs:1846-1852 -/
theorem WidthLaw.charWidth (hwidth : WidthLaw width) (c : Char) :
    ((charWidth width c).getD 1 ≤ 1 ∧ (Cell.isAscii c = true ∨ (width c).getD 1 ≤ 1)) ∨
      ((charWidth width c).getD 1 = 2 ∧ Cell.isAscii c = false ∧ 1 < (width c).getD 1) := by
  unfold Vt.charWidth
  split_ifs with hprint hsoft
  · refine Or.inl ⟨le_refl 1, Or.inl ?_⟩
    have hle : c.toNat ≤ '~'.toNat := hprint.2
    unfold Cell.isAscii
    rw [decide_eq_true_iff]
    exact lt_of_le_of_lt hle (by decide)
  · exact Or.inl ⟨le_refl 1, Or.inr (hwidth.softHyphen c hsoft)⟩
  · have htwo := hwidth.le_two c
    rcases Nat.lt_or_ge 1 ((width c).getD 1) with hlt | hge
    · refine Or.inr ⟨by omega, ?_, hlt⟩
      cases hascii : Cell.isAscii c with
      | false => rfl
      | true =>
          have := hwidth.ascii c hascii
          omega
    · exact Or.inl ⟨hge, Or.inr hge⟩

end

section

variable {b : Frame} {g : Grid}

theorem modifyCell_eq {p : Pos} {row : Row} {c : Cell} (hrow : g.rows[p.row]? = some row)
    (hc : row.cells[p.col]? = some c) (f : Cell → Cell) :
    g.modifyCell p f = some { g with
      rows := g.rows.set p.row { row with cells := row.cells.set p.col (f c) } } := by
  unfold Grid.modifyCell
  rw [updateAt_eq hrow (modify_eq f hc)]
  rfl

/-- A cell may be changed to one of its kind. -/
theorem yields_modifyCell (h : Fits b g) (hd : b.drawn = b.size.rows) {pos : Pos}
    (hrow : pos.row < b.size.rows) (hcol : pos.col < b.size.cols) {f : Cell → Cell}
    (hf : ∀ c, (Single c → Single (f c)) ∧ (First c → First (f c)) ∧ (Second c → Second (f c))) :
    Yields (g.modifyCell pos f) (Fits b) := by
  have hlen : g.rows.length = b.size.rows := h.rows_len.trans hd
  obtain ⟨row, hget⟩ : ∃ row, g.rows[pos.row]? = some row :=
    ⟨_, List.getElem?_eq_getElem (by omega)⟩
  obtain ⟨hcells, hpaired⟩ := h.rows_fit row (List.mem_of_getElem? hget)
  obtain ⟨c, hc⟩ : ∃ c, row.cells[pos.col]? = some c := ⟨_, List.getElem?_eq_getElem (by omega)⟩
  rw [modifyCell_eq hget hc f]
  refine yields_some (h.putRows List.length_set fun r hr => ?_)
  rcases List.mem_or_eq_of_mem_set hr with hr | rfl
  · exact h.rows_fit r hr
  · refine ⟨List.length_set.trans hcells, ?_⟩
    exact hpaired.set_of_kind hc (hf c).1 (hf c).2.1 (hf c).2.2

/-- All but the current row is in order, and `cells` is what stands in it. -/
structure Open (b : Frame) (g : Grid) (cells : List Cell) : Prop where
  drawn : b.drawn = b.size.rows
  current : ∃ row, g.rows[g.pos.row]? = some row ∧ row.cells = cells
  rest : Fits b { g with rows := g.rows.set g.pos.row (Row.new b.size.cols) }

theorem open_of_fits (h : Fits b g) (hd : b.drawn = b.size.rows) :
    ∃ cells, Open b g cells ∧ cells.length = b.size.cols ∧ PairedCells cells := by
  have hlt : g.pos.row < g.rows.length := by rw [h.rows_len, hd]; exact h.pos_row
  obtain ⟨row, hrow⟩ : ∃ row, g.rows[g.pos.row]? = some row := ⟨_, List.getElem?_eq_getElem hlt⟩
  obtain ⟨hlen, hpaired⟩ := h.rows_fit row (List.mem_of_getElem? hrow)
  refine ⟨row.cells, ⟨hd, ⟨row, hrow, rfl⟩, ?_⟩, hlen, hpaired⟩
  refine h.putRows List.length_set fun r hr => ?_
  rcases List.mem_or_eq_of_mem_set hr with hr | rfl
  · exact h.rows_fit r hr
  · exact rowFits_new _

namespace Open

variable {cells : List Cell}

theorem close (h : Open b g cells) (hlen : cells.length = b.size.cols)
    (hpaired : PairedCells cells) : Fits b g := by
  obtain ⟨row, hrow, rfl⟩ := h.current
  refine h.rest.putRows List.length_set.symm fun r hr => ?_
  obtain ⟨i, hi⟩ := List.mem_iff_getElem?.mp hr
  by_cases heq : g.pos.row = i
  · subst heq
    rw [hrow, Option.some_inj] at hi
    exact hi ▸ ⟨hlen, hpaired⟩
  · refine h.rest.rows_fit r (List.mem_iff_getElem?.mpr ⟨i, ?_⟩)
    show (g.rows.set g.pos.row _)[i]? = some r
    rw [List.getElem?_set_ne heq]
    exact hi

theorem drawingCell (h : Open b g cells) (col : ℕ) :
    g.drawingCell ⟨g.pos.row, col⟩ = cells[col]? := by
  obtain ⟨row, hrow, rfl⟩ := h.current
  unfold Grid.drawingCell
  rw [hrow]
  rfl

theorem modifyCell (h : Open b g cells) {col : ℕ} {c : Cell} (hc : cells[col]? = some c)
    (f : Cell → Cell) :
    Yields (g.modifyCell ⟨g.pos.row, col⟩ f) fun g' =>
      Open b g' (cells.set col (f c)) ∧ g'.pos = g.pos := by
  obtain ⟨row, hrow, rfl⟩ := h.current
  have hlt := (List.getElem?_eq_some_iff.mp hrow).1
  have heq := modifyCell_eq (p := ⟨g.pos.row, col⟩) hrow hc f
  rw [heq]
  refine yields_some ⟨⟨h.drawn, ⟨_, List.getElem?_set_self hlt, rfl⟩, ?_⟩, rfl⟩
  dsimp only
  rw [List.set_set]
  exact h.rest

/-- The cell after the last column is left alone. -/
theorem tryModifyCell (h : Open b g cells) {col : ℕ} {c : Cell} (hc : cells[col]? = some c)
    (f : Cell → Cell) :
    Yields (Screen.tryModifyCell g ⟨g.pos.row, col⟩ f) fun g' =>
      Open b g' (cells.set col (f c)) ∧ g'.pos = g.pos := by
  unfold Screen.tryModifyCell
  rw [h.drawingCell, hc, Option.isSome_some, if_pos rfl]
  exact h.modifyCell hc f

theorem move (h : Open b g cells) {col : ℕ} (hcol : col ≤ b.size.cols) :
    Open b { g with pos := { g.pos with col } } cells :=
  ⟨h.drawn, h.current, h.rest.cursor h.rest.pos_row hcol⟩

end Open

/-! ## The two halves -/

variable {width : Char → Option ℕ}

theorem colInc_one (g : Grid) (hcol : g.pos.col < u16Max) :
    g.colInc 1 = { g with pos := { g.pos with col := g.pos.col + 1 } } := by
  have hsat : saturatingAdd u16Max g.pos.col 1 = g.pos.col + 1 := by
    unfold saturatingAdd
    omega
  unfold Grid.colInc
  rw [hsat]

/-- INTERNAL: The first half is written: what is before and what is after it is paired.
SRC: screen.rs:1261-1321 -/
theorem yields_drawFirst (h : Fits b g) (hd : b.drawn = b.size.rows)
    (hcol : g.pos.col < b.size.cols) (attrs : Attrs) (c : Char) :
    Yields (Screen.drawFirst width attrs g c) fun g' => ∃ before after,
      Open b g' (before ++ Cell.new.set width c attrs :: after) ∧ PairedCells before ∧
        PairedCells after ∧ before.length = g.pos.col ∧
        before.length + 1 + after.length = b.size.cols ∧ g'.pos.col = g.pos.col + 1 := by
  obtain ⟨cells, hopen, hlen, hpaired⟩ := open_of_fits h hd
  obtain ⟨cell, hcell⟩ : ∃ c, cells[g.pos.col]? = some c := ⟨_, List.getElem?_eq_getElem (by omega)⟩
  have hu16 := h.cols_le
  unfold Screen.drawFirst
  -- what is left to do once the halves around the column are cleared
  have hfinish : ∀ g₁ cells₁, Open b g₁ cells₁ → g₁.pos = g.pos → cells₁.length = b.size.cols →
      PairedCells (cells₁.take g.pos.col) → PairedCells (cells₁.drop (g.pos.col + 1)) →
      Yields (do
        let g ← g₁.modifyCell g₁.pos fun cell => cell.set width c attrs
        return g.colInc 1) fun g' => ∃ before after,
      Open b g' (before ++ Cell.new.set width c attrs :: after) ∧ PairedCells before ∧
        PairedCells after ∧ before.length = g.pos.col ∧
        before.length + 1 + after.length = b.size.cols ∧ g'.pos.col = g.pos.col + 1 := by
    intro g₁ cells₁ h₁ hpos hlen₁ hbefore hafter
    have hlt : g₁.pos.col < cells₁.length := by rw [hpos]; omega
    refine (h₁.modifyCell (List.getElem?_eq_getElem hlt) _).bind fun g₂ h₂ => yields_some ?_
    rw [colInc_one g₂ (by rw [h₂.2, hpos]; omega)]
    refine ⟨_, _, ?_, hbefore, hafter, ?_, ?_, ?_⟩
    · have hset : cells₁.set g₁.pos.col (Cell.new.set width c attrs) =
          cells₁.take g.pos.col ++ Cell.new.set width c attrs :: cells₁.drop (g.pos.col + 1) := by
        rw [← hpos]
        exact set_eq_take_cons_drop hlt _
      rw [← hset]
      exact h₂.1.move (by rw [h₂.2, hpos]; omega)
    · rw [List.length_take]
      omega
    · rw [List.length_take, List.length_drop]
      omega
    · show g₂.pos.col + 1 = g.pos.col + 1
      rw [h₂.2, hpos]
  refine yields_bind_of_eq ((hopen.drawingCell g.pos.col).trans hcell) ?_
  rcases hpaired.trichotomy hcell with ⟨hS, hbefore, hafter⟩ | ⟨hF, d, hd, -, hbefore, hafter⟩ |
    ⟨hC, j, d, hj, hd, -, hbefore, hafter⟩
  · rw [hS.2, if_neg Bool.false_ne_true]
    refine yields_bind_of_eq rfl ?_
    refine yields_bind_of_eq ((hopen.drawingCell g.pos.col).trans hcell) ?_
    rw [hS.1, if_neg Bool.false_ne_true]
    exact hfinish g cells hopen rfl hlen hbefore hafter
  · rw [hF.2.1, if_neg Bool.false_ne_true]
    refine yields_bind_of_eq rfl ?_
    refine yields_bind_of_eq ((hopen.drawingCell g.pos.col).trans hcell) ?_
    rw [hF.1, if_pos rfl]
    refine (hopen.tryModifyCell hd _).bind fun g₁ h₁ => ?_
    refine hfinish g₁ _ h₁.1 h₁.2 (List.length_set.trans hlen) ?_ ?_
    · rw [List.take_set_of_le (by omega)]
      exact hbefore
    · have hlt := (List.getElem?_eq_some_iff.mp hd).1
      rw [set_eq_take_cons_drop hlt, List.drop_append_of_le_length (by rw [List.length_take]; omega),
        List.drop_take_self, List.nil_append]
      exact .single (single_set _ _ (Or.inl rfl)) hafter
  · rw [hC.2, if_pos rfl]
    have hsub : checkedSub g.pos.col 1 = some j := by
      rw [checkedSub_of_le (by omega), hj, Nat.add_sub_cancel]
    refine Yields.bind (Q := fun g' => Open b g' (cells.set j (d.clear attrs)) ∧ g'.pos = g.pos)
      (yields_bind_of_eq hsub (hopen.modifyCell hd _)) fun g₁ h₁ => ?_
    have hcell₁ : g₁.drawingCell g₁.pos = some cell := by
      have hget := h₁.1.drawingCell g₁.pos.col
      rw [h₁.2, List.getElem?_set_ne (by omega), hcell] at hget
      rw [h₁.2]
      exact hget
    refine yields_bind_of_eq hcell₁ ?_
    rw [hC.1, if_neg Bool.false_ne_true]
    refine hfinish g₁ _ h₁.1 h₁.2 (List.length_set.trans hlen) ?_ ?_
    · rw [set_eq_take_cons_drop (by omega), hj, List.take_append, List.take_take, List.length_take,
        min_eq_right (by omega), min_eq_left (by omega), Nat.add_sub_cancel_left]
      exact hbefore.append (.single (single_clear _ _) .nil)
    · rw [List.drop_set_of_lt (by omega)]
      exact hafter

/-- INTERNAL: The second half closes the row.
SRC: screen.rs:1322-1356 -/
theorem yields_drawSecond {before after : List Cell} {first : Cell} (attrs : Attrs)
    (h : Open b g (before ++ first :: after)) (hfirst : First first) (hbefore : PairedCells before)
    (hafter : PairedCells after) (hne : after ≠ [])
    (hlen : before.length + 1 + after.length = b.size.cols) (hpos : g.pos.col = before.length + 1) :
    Yields (Screen.drawSecond attrs g) (Fits b) := by
  have hu16 := h.rest.cols_le
  obtain ⟨d, rest, rfl⟩ := List.exists_cons_of_ne_nil hne
  have hsplit : before ++ first :: d :: rest = (before ++ [first]) ++ d :: rest := by simp
  have hcol : g.pos.col = (before ++ [first]).length := by rw [hpos, List.length_append]; rfl
  have hget : (before ++ first :: d :: rest)[g.pos.col]? = some d := by
    rw [hsplit, hcol, List.getElem?_append_right (le_refl _), Nat.sub_self]
    rfl
  rw [List.length_cons] at hlen
  unfold Screen.drawSecond
  refine yields_bind_of_eq ((h.drawingCell g.pos.col).trans hget) ?_
  -- the first half of another character loses its second half
  have hcleared : Yields (if d.wide then
      Screen.tryModifyCell g ⟨g.pos.row, g.pos.col + 1⟩ fun next => next.clear attrs
      else some g) fun g' => ∃ rest', Open b g' (before ++ first :: d :: rest') ∧ g'.pos = g.pos ∧
        PairedCells rest' ∧ rest'.length = rest.length := by
    rcases hafter with _ | ⟨hS, hrest⟩ | ⟨hF, hC, hrest⟩
    · rw [hS.1, if_neg Bool.false_ne_true]
      exact yields_some ⟨rest, h, rfl, hrest, rfl⟩
    · rename_i e rest
      rw [hF.1, if_pos rfl]
      have hsplit' : before ++ first :: d :: e :: rest = (before ++ [first, d]) ++ e :: rest := by
        simp
      have hcol' : g.pos.col + 1 = (before ++ [first, d]).length := by
        rw [hpos, List.length_append]
        rfl
      have hget' : (before ++ first :: d :: e :: rest)[g.pos.col + 1]? = some e := by
        rw [hsplit', hcol', List.getElem?_append_right (le_refl _), Nat.sub_self]
        rfl
      refine (h.tryModifyCell hget' _).mono fun g' h' => ⟨e.clear attrs :: rest, ?_, h'.2, ?_, rfl⟩
      · have hset : (before ++ first :: d :: e :: rest).set (g.pos.col + 1) (e.clear attrs) =
            before ++ first :: d :: e.clear attrs :: rest := by
          rw [hsplit', hcol', List.set_append_right _ _ (le_refl _), Nat.sub_self]
          simp
        rw [← hset]
        exact h'.1
      · exact .single (single_clear _ _) hrest
  refine hcleared.bind fun g₁ ⟨rest', h₁, hpos₁, hrest', hlen'⟩ => ?_
  have hcol₁ : g₁.pos.col = (before ++ [first]).length := by rw [hpos₁, hcol]
  have hget₁ : (before ++ first :: d :: rest')[g₁.pos.col]? = some d := by
    rw [show before ++ first :: d :: rest' = (before ++ [first]) ++ d :: rest' by simp, hcol₁,
      List.getElem?_append_right (le_refl _), Nat.sub_self]
    rfl
  refine (h₁.modifyCell hget₁ _).bind fun g₂ h₂ => yields_some ?_
  have hlast : (before ++ [first]).length = before.length + 1 := by simp
  rw [colInc_one g₂ (by rw [h₂.2, hcol₁]; omega)]
  refine (h₂.1.move (by rw [h₂.2, hcol₁]; omega)).close ?_ ?_
  · rw [List.length_set]
    simp only [List.length_append, List.length_cons]
    omega
  · rw [show before ++ first :: d :: rest' = (before ++ [first]) ++ d :: rest' by simp, hcol₁,
      List.set_append_right _ _ (le_refl _), Nat.sub_self]
    simp only [List.set_cons_zero, List.append_assoc, List.cons_append, List.nil_append]
    exact hbefore.append (.pair hfirst ⟨rfl, rfl⟩ hrest')

/-- INTERNAL: A combining mark does not change what kind of cell it is added to.
SRC: screen.rs:1199-1260 -/
theorem yields_drawMark (h : Fits b g) (hd : b.drawn = b.size.rows) (c : Char) :
    Yields (Screen.drawMark g c) (Fits b) := by
  have hlen : g.rows.length = b.size.rows := h.rows_len.trans hd
  have hrow := h.pos_row
  have hcol := h.pos_col
  have hkind : ∀ cell : Cell, (Single cell → Single (cell.append c)) ∧
      (First cell → First (cell.append c)) ∧ (Second cell → Second (cell.append c)) := by
    intro cell
    obtain ⟨hwide, hcont, hcontents⟩ := append_flags cell c
    unfold Single First Second
    rw [hwide, hcont]
    exact ⟨id, fun hF => ⟨hF.1, hF.2.1, hcontents hF.2.2⟩, id⟩
  -- the mark joins the cell at `col`, or the one before it if that is a second half
  have hjoin : ∀ row col, row < b.size.rows → col < b.size.cols →
      ∀ prevCol, prevCol = checkedSub (col + 1) 2 →
      Yields (do
        let prev ← g.drawingCell ⟨row, col⟩
        if prev.wideContinuation then
          let col ← prevCol
          g.modifyCell ⟨row, col⟩ (·.append c)
        else g.modifyCell ⟨row, col⟩ (·.append c)) (Fits b) := by
    intro row col hr hc prevCol hprev
    obtain ⟨r, hget⟩ : ∃ r, g.rows[row]? = some r := ⟨_, List.getElem?_eq_getElem (by omega)⟩
    obtain ⟨hcells, hpaired⟩ := h.rows_fit r (List.mem_of_getElem? hget)
    obtain ⟨cell, hcell⟩ : ∃ c, r.cells[col]? = some c := ⟨_, List.getElem?_eq_getElem (by omega)⟩
    have hdraw : g.drawingCell ⟨row, col⟩ = some cell := by
      unfold Grid.drawingCell
      rw [hget]
      exact hcell
    refine yields_bind_of_eq hdraw ?_
    split_ifs with hcont
    · rcases hpaired.trichotomy hcell with ⟨hS, -⟩ | ⟨hF, -⟩ | ⟨-, j, d, rfl, -⟩
      · rw [hS.2] at hcont
        cases hcont
      · rw [hF.2.1] at hcont
        cases hcont
      · rw [checkedSub_of_le (by omega)] at hprev
        refine yields_bind_of_eq hprev ?_
        exact yields_modifyCell h hd hr (by show j + 1 + 1 - 2 < b.size.cols; omega) hkind
    · exact yields_modifyCell h hd hr hc hkind
  unfold Screen.drawMark
  split_ifs with hpos htop
  · refine hjoin g.pos.row (g.pos.col - 1) hrow (by omega) _ ?_
    rw [Nat.sub_add_cancel hpos]
  · have hcols : 1 ≤ g.size.cols := h.cols_eq ▸ h.cols_pos
    refine yields_bind_of_eq (checkedSub_of_le hcols) ?_
    refine hjoin (g.pos.row - 1) (g.size.cols - 1) (by omega) (by rw [← h.cols_eq]; omega) _ ?_
    rw [Nat.sub_add_cancel hcols]
  · exact yields_some h
  · exact yields_some h

/-! ## Drawing at the cursor -/

theorem yields_blankLast (h : Fits b g) (hd : b.drawn = b.size.rows) (attrs : Attrs) (w : ℕ) :
    Yields (Screen.blankLast attrs g w) fun g' =>
      Fits b g' ∧ ∃ rows, g' = { g with rows } ∧ rows.length = g.rows.length := by
  have hcols := h.cols_pos
  have hc := h.cols_eq
  unfold Screen.blankLast
  split_ifs
  · refine yields_bind_of_eq (checkedSub_of_le (by omega)) ?_
    split_ifs
    · exact yields_modifyCurrentRow h hd fun row hrow => yields_erase hrow (by omega) _
    · exact yields_some ⟨h, g.rows, rfl, rfl⟩
  · exact yields_some ⟨h, g.rows, rfl, rfl⟩

/-- The character wraps to the next row. -/
def Wraps (noAutowrap : Bool) (g : Grid) (w : ℕ) : Prop :=
  noAutowrap = false ∧ g.size.cols - w < g.pos.col

/-- If the character is to be drawn, there is room for it at the cursor. -/
theorem yields_drawWrap (h : Fits b g) (hd : b.drawn = b.size.rows) (attrs : Attrs)
    (noAutowrap : Bool) {w : ℕ} (hw : w ≤ b.size.cols)
    (hview : Wraps noAutowrap g w → b.view → ¬ Armed g) :
    Yields (Screen.drawWrap attrs noAutowrap g w) fun r =>
      Fits b r.1 ∧ (r.2 = true → r.1.pos.col + w ≤ b.size.cols) := by
  have hcols := h.cols_pos
  have hc := h.cols_eq
  unfold Screen.drawWrap
  cases hwrap : noAutowrap with
  | true =>
      rw [if_pos rfl]
      refine yields_bind_of_eq (checkedSub_of_le (by omega)) ?_
      split_ifs with hlt
      · refine yields_bind_of_eq (checkedSub_of_le (by omega)) ?_
        unfold Grid.colSet
        refine yields_bind_of_eq
          (colClamp_eq { g with pos := { g.pos with col := g.size.cols - 1 } } (by
            show 1 ≤ g.size.cols
            omega)) (yields_some ⟨?_, ?_⟩)
        · refine h.cursor h.pos_row ?_
          show min (g.size.cols - 1) (g.size.cols - 1) ≤ b.size.cols
          omega
        · intro hle
          replace hle : w ≤ 1 := by simpa using hle
          show min (g.size.cols - 1) (g.size.cols - 1) + w ≤ b.size.cols
          omega
      · exact yields_some ⟨h, fun _ => by show g.pos.col + w ≤ _; omega⟩
  | false =>
      rw [if_neg Bool.false_ne_true]
      refine (yields_blankLast h hd attrs w).bind ?_
      rintro g' ⟨hfit, rows, rfl, hrows⟩
      refine (yields_colWrap hfit hd hw ?_).bind fun g'' h'' => yields_some ⟨h''.1, fun _ => h''.2⟩
      intro hlt hv harmed
      refine hview ⟨hwrap, by rw [hc]; exact hlt⟩ hv ?_
      unfold Armed Narrows at harmed ⊢
      dsimp only at harmed
      rw [hrows] at harmed
      exact harmed

/-- INTERNAL: A character is drawn where there is room for it.
SRC: screen.rs:1193-1357 -/
theorem yields_drawAt (hwidth : WidthLaw width) (h : Fits b g) (hd : b.drawn = b.size.rows)
    (attrs : Attrs) (insert : Bool) (c : Char)
    (hroom : g.pos.col + (charWidth width c).getD 1 ≤ b.size.cols) :
    Yields (Screen.drawAt width attrs insert g c ((charWidth width c).getD 1)) (Fits b) := by
  have hkind := hwidth.charWidth c
  generalize (charWidth width c).getD 1 = w at hroom hkind ⊢
  unfold Screen.drawAt
  refine Yields.bind (Q := fun g' => Fits b g' ∧ g'.pos = g.pos) ?_ fun g₁ h₁ => ?_
  · split_ifs
    · exact yields_insertCells h hd w
    · exact yields_some ⟨h, rfl⟩
  · by_cases hzero : w = 0
    · rw [if_pos hzero]
      exact yields_drawMark h₁.1 hd c
    · rw [if_neg hzero]
      have hcol : g₁.pos.col < b.size.cols := by rw [h₁.2]; omega
      refine (yields_drawFirst h₁.1 hd hcol attrs c).bind ?_
      rintro g₂ ⟨before, after, hopen, hbefore, hafter, hlen, htotal, hpos⟩
      split_ifs with hwide
      · rcases hkind with ⟨hle, -⟩ | ⟨htwo, hascii, hgt⟩
        · omega
        · refine yields_drawSecond attrs hopen (first_set _ _ hascii hgt) hbefore hafter ?_ htotal
            (by omega)
          rintro rfl
          rw [h₁.2] at hlen
          rw [List.length_nil] at htotal
          omega
      · rcases hkind with ⟨-, hone⟩ | ⟨htwo, -⟩
        · refine yields_some (hopen.close ?_ ?_)
          · simp only [List.length_append, List.length_cons]
            omega
          · exact hbefore.append (.single (single_set _ _ hone) hafter)
        · omega

end

end Tymux.Analysis.Vt
