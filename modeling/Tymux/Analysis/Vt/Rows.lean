import Tymux.Model.Vt.Grid
import Tymux.Lib.Paired

/-!
# Rows stay paired

A cell is single, or it is the first or the second half of a wide character. In every row the
halves stand next to each other: `PairedCells`. The operations of `row.rs` keep this, and none of
them panics at a column inside the row. The lemma behind most of them is about `clear_wide`: after
it, what is before the column and what is after it are paired, whatever is put at the column.
-/

set_option autoImplicit false

namespace Tymux.Analysis.Vt

open Tymux.Lib Tymux.Model Tymux.Model.Vt

/-! ## Cells -/

/-- A cell that is no half of a wide character. -/
def Single (c : Cell) : Prop := c.wide = false ∧ c.wideContinuation = false

/-- The first half of a wide character holds the character. -/
def First (c : Cell) : Prop :=
  c.wide = true ∧ c.wideContinuation = false ∧ c.hasContents = true

def Second (c : Cell) : Prop := c.wide = false ∧ c.wideContinuation = true

/-- Every cell flagged wide is followed by one flagged as its continuation, and vice versa. -/
abbrev PairedCells (cells : List Cell) : Prop := Paired Single First Second cells

theorem single_new : Single Cell.new := ⟨rfl, rfl⟩

theorem single_clear (c : Cell) (attrs : Attrs) : Single (c.clear attrs) := ⟨rfl, rfl⟩

theorem hasContents_iff (c : Cell) : c.hasContents = true ↔ c.contents ≠ [] := by
  unfold Cell.hasContents Cell.len
  rw [decide_eq_true_iff]
  cases c.contents with
  | nil => simp
  | cons a as =>
      have ha := Char.utf8Size_pos a
      simp only [List.map_cons, List.sum_cons, ne_eq, reduceCtorEq, not_false_eq_true, iff_true]
      omega

theorem single_set {width : Char → Option ℕ} (cell : Cell) {c : Char} (attrs : Attrs)
    (hc : Cell.isAscii c = true ∨ (width c).getD 1 ≤ 1) : Single (cell.set width c attrs) := by
  refine ⟨?_, rfl⟩
  show (!Cell.isAscii c && decide ((width c).getD 1 > 1)) = false
  rcases hc with hc | hc
  · rw [hc, Bool.not_true, Bool.false_and]
  · have : ¬ (width c).getD 1 > 1 := by omega
    rw [decide_eq_false this, Bool.and_false]

theorem first_set {width : Char → Option ℕ} (cell : Cell) {c : Char} (attrs : Attrs)
    (ha : Cell.isAscii c = false) (hw : 1 < (width c).getD 1) :
    First (cell.set width c attrs) := by
  refine ⟨?_, rfl, (hasContents_iff _).mpr (List.cons_ne_nil _ _)⟩
  show (!Cell.isAscii c && decide ((width c).getD 1 > 1)) = true
  rw [ha, decide_eq_true hw, Bool.not_false, Bool.and_self]

theorem append_flags (cell : Cell) (c : Char) :
    (cell.append c).wide = cell.wide ∧
      (cell.append c).wideContinuation = cell.wideContinuation ∧
      (cell.hasContents = true → (cell.append c).hasContents = true) := by
  unfold Cell.append
  split_ifs with hfull hempty
  · exact ⟨rfl, rfl, id⟩
  · exact ⟨rfl, rfl, fun _ => (hasContents_iff _).mpr (List.cons_ne_nil _ _)⟩
  · exact ⟨rfl, rfl, fun _ => (hasContents_iff _).mpr (by simp)⟩

/-! ## Lists of cells -/

theorem set_eq_take_cons_drop {cells : List Cell} {i : ℕ} (hi : i < cells.length) (c : Cell) :
    cells.set i c = cells.take i ++ c :: cells.drop (i + 1) := by
  rw [List.set_eq_take_append_cons_drop, if_pos hi]

/-- A single may be put between two paired parts. -/
theorem paired_set {cells : List Cell} {i : ℕ} {c : Cell} (hi : i < cells.length) (hc : Single c)
    (hbefore : PairedCells (cells.take i)) (hafter : PairedCells (cells.drop (i + 1))) :
    PairedCells (cells.set i c) := by
  rw [set_eq_take_cons_drop hi]
  exact hbefore.append (.single hc hafter)

theorem paired_replicate (n : ℕ) {c : Cell} (hc : Single c) :
    PairedCells (List.replicate n c) :=
  .of_forall fun _ ha => List.eq_of_mem_replicate ha ▸ hc

theorem paired_resizeCells {cells : List Cell} {len : ℕ} {c : Cell} (h : PairedCells cells)
    (hlen : cells.length ≤ len) (hc : Single c) : PairedCells (resizeCells cells len c) := by
  unfold resizeCells
  rw [List.take_of_length_le hlen]
  exact h.append (paired_replicate _ hc)

theorem length_resizeCells (cells : List Cell) (len : ℕ) (c : Cell) :
    (resizeCells cells len c).length = len := by
  unfold resizeCells
  rw [List.length_append, List.length_take, List.length_replicate]
  omega

/-- The last cell of a paired row is no first half. -/
theorem not_wide_getLast {cells : List Cell} (h : PairedCells cells) {c : Cell}
    (hc : cells.getLast? = some c) : c.wide = false := by
  rw [List.getLast?_eq_getElem?] at hc
  rcases h.trichotomy hc with ⟨hS, -⟩ | ⟨-, b, hb, -⟩ | ⟨hC, -⟩
  · exact hS.1
  · have := (List.getElem?_eq_some_iff.mp hb).1
    omega
  · exact hC.1

/-- The row is cut at `len` and a first half at its end is replaced by a blank. -/
theorem paired_cut {cells : List Cell} (h : PairedCells cells) (len : ℕ) {last blank : Cell}
    (hlast : (cells.take len).getLast? = some last) (hb : Single blank) :
    PairedCells (if last.wide then (cells.take len).dropLast ++ [blank] else cells.take len) := by
  rcases h.take_mend len hb with htake | ⟨l', a, hl', hF, hmend⟩
  · rw [not_wide_getLast htake hlast, if_neg Bool.false_ne_true]
    exact htake
  · rw [hl', List.getLast?_append_of_ne_nil _ (List.cons_ne_nil _ _), List.getLast?_singleton,
      Option.some_inj] at hlast
    rw [← hlast, hF.1, if_pos rfl, hl', List.dropLast_concat]
    exact hmend

/-! ## Rows -/

/-- A row of the drawing area. -/
def RowFits (cols : ℕ) (row : Row) : Prop := row.cells.length = cols ∧ PairedCells row.cells

theorem rowFits_new (cols : ℕ) : RowFits cols (Row.new cols) :=
  ⟨List.length_replicate, paired_replicate cols single_new⟩

theorem rowFits_clear {cols : ℕ} {row : Row} (h : RowFits cols row) (attrs : Attrs) :
    RowFits cols (row.clear attrs) := by
  refine ⟨?_, .of_forall ?_⟩
  · show (row.cells.map (·.clear attrs)).length = cols
    rw [List.length_map]
    exact h.1
  · intro c hc
    obtain ⟨a, -, rfl⟩ := List.mem_map.mp hc
    exact single_clear a attrs

theorem rowFits_wrap {cols : ℕ} {row : Row} (h : RowFits cols row) (wrapped : Bool) :
    RowFits cols (row.wrap wrapped) := h

theorem modify_eq {row : Row} {col : ℕ} {c : Cell} (f : Cell → Cell)
    (hc : row.cells[col]? = some c) :
    row.modify col f = some { row with cells := row.cells.set col (f c) } := by
  unfold Row.modify updateAt
  rw [hc]
  rfl

/-- INTERNAL: After `clear_wide` the parts around the column are paired.
SRC: row.rs:121-131 -/
theorem yields_clearWide {cols : ℕ} {row : Row} (h : RowFits cols row) {col : ℕ} (hcol : col < cols) :
    Yields (row.clearWide col) fun r => r.cells.length = cols ∧
      PairedCells (r.cells.take col) ∧ PairedCells (r.cells.drop (col + 1)) := by
  obtain ⟨hlen, hpaired⟩ := h
  unfold Row.clearWide
  refine (yields_getElem? (by omega) fun a ha => ha).bind fun c hc => ?_
  rcases hpaired.trichotomy hc with ⟨hS, hbefore, hafter⟩ | ⟨hF, b, hb, -, hbefore, hafter⟩ |
    ⟨hC, j, b, rfl, hb, -, hbefore, hafter⟩
  · rw [hS.1, hS.2, if_neg Bool.false_ne_true, if_neg Bool.false_ne_true]
    exact yields_some ⟨hlen, hbefore, hafter⟩
  · have hlt : col + 1 < row.cells.length := (List.getElem?_eq_some_iff.mp hb).1
    rw [hF.1, if_pos rfl, modify_eq _ hb]
    refine yields_some ⟨by rw [List.length_set]; exact hlen, ?_, ?_⟩
    · rw [List.take_set_of_le (by omega)]
      exact hbefore
    · rw [set_eq_take_cons_drop hlt, List.drop_append_of_le_length (by simp; omega),
        List.drop_take_self, List.nil_append]
      exact .single (single_clear _ _) hafter
  · rw [hC.1, hC.2, if_neg Bool.false_ne_true, if_pos rfl]
    have hsub : checkedSub (j + 1) 1 = some j := by simp [checkedSub]
    refine yields_bind_of_eq hsub ?_
    rw [modify_eq _ hb]
    refine yields_some ⟨by rw [List.length_set]; exact hlen, ?_, ?_⟩
    · have hlt : j < row.cells.length := by omega
      rw [set_eq_take_cons_drop hlt, List.take_append, List.take_take, List.length_take,
        min_eq_right (by omega), min_eq_left (by omega), Nat.add_sub_cancel_left]
      exact hbefore.append (.single (single_clear _ _) .nil)
    · rw [List.drop_set_of_lt (by omega)]
      exact hafter

theorem yields_erase {cols : ℕ} {row : Row} (h : RowFits cols row) {col : ℕ} (hcol : col < cols)
    (attrs : Attrs) : Yields (row.erase col attrs) (RowFits cols) := by
  unfold Row.erase
  refine (yields_clearWide h hcol).bind fun r ⟨hlen, hbefore, hafter⟩ => ?_
  have hlt : col < r.cells.length := by omega
  rw [modify_eq _ (List.getElem?_eq_getElem hlt)]
  refine yields_some ⟨by rw [List.length_set]; exact hlen, ?_⟩
  exact paired_set hlt (single_clear _ _) hbefore hafter

theorem yields_remove {cols : ℕ} {row : Row} (h : RowFits cols row) {col : ℕ} (hcol : col < cols) :
    Yields (row.remove col) (RowFits (cols - 1)) := by
  unfold Row.remove
  refine (yields_clearWide h hcol).bind fun r ⟨hlen, hbefore, hafter⟩ => ?_
  refine (yields_removeAt (by omega)).bind fun x hx => ?_
  replace hx := hx.2
  refine yields_some ⟨?_, ?_⟩
  · show x.2.length = cols - 1
    rw [hx, List.length_eraseIdx_of_lt (by omega), hlen]
  · show PairedCells x.2
    rw [hx, List.eraseIdx_eq_take_drop_succ]
    exact hbefore.append hafter

theorem yields_truncate {len : ℕ} {row : Row} (h : PairedCells row.cells) (hpos : 1 ≤ len)
    (hlen : len ≤ row.cells.length) : Yields (row.truncate len) (RowFits len) := by
  obtain ⟨n, rfl⟩ : ∃ n, len = n + 1 := ⟨len - 1, by omega⟩
  have hsub : checkedSub (n + 1) 1 = some n := by simp [checkedSub]
  have htake : (row.cells.take (n + 1)).length = n + 1 := by rw [List.length_take]; omega
  unfold Row.truncate
  refine yields_bind_of_eq hsub ?_
  dsimp only
  obtain ⟨last, hlast⟩ : ∃ c, (row.cells.take (n + 1))[n]? = some c :=
    ⟨_, List.getElem?_eq_getElem (by omega)⟩
  rw [modify_eq _ hlast]
  refine yields_some ⟨by rw [List.length_set]; exact htake, ?_⟩
  have hgetLast : (row.cells.take (n + 1)).getLast? = some last := by
    rw [List.getLast?_eq_getElem?, htake]
    exact hlast
  have hcut := paired_cut h (n + 1) hgetLast (single_clear last last.attrs)
  show PairedCells ((row.cells.take (n + 1)).set n _)
  by_cases hw : last.wide = true
  · rw [if_pos hw] at hcut ⊢
    rw [set_eq_take_cons_drop (by omega), List.drop_of_length_le (by omega)]
    rw [List.dropLast_eq_take, htake] at hcut
    exact hcut
  · rw [if_neg hw] at hcut ⊢
    obtain ⟨hlt, rfl⟩ := List.getElem?_eq_some_iff.mp hlast
    rw [List.set_getElem_self hlt]
    exact hcut

theorem rowFits_resize {row : Row} (h : PairedCells row.cells) (len : ℕ) {blank : Cell}
    (hb : Single blank) : RowFits len (row.resize len blank) := by
  have hlength := length_resizeCells row.cells len blank
  unfold Row.resize
  dsimp only
  split
  case h_1 hnone =>
      rw [List.getLast?_eq_none_iff] at hnone
      rw [hnone] at hlength ⊢
      exact ⟨hlength, .nil⟩
  case h_2 last hlast =>
      constructor
      · show (if last.wide then _ else _ : List Cell).length = len
        have hne : resizeCells row.cells len blank ≠ [] := by
          intro hnil
          rw [hnil] at hlast
          cases hlast
        have hpos := List.length_pos_iff.mpr hne
        split_ifs
        · rw [List.length_append, List.length_dropLast, List.length_singleton]
          omega
        · exact hlength
      · show PairedCells (if last.wide then _ else _)
        rcases Nat.le_total row.cells.length len with hle | hle
        · have hp := paired_resizeCells h hle hb
          rw [not_wide_getLast hp hlast, if_neg Bool.false_ne_true]
          exact hp
        · have htake : resizeCells row.cells len blank = row.cells.take len := by
            unfold resizeCells
            rw [Nat.sub_eq_zero_of_le hle, List.replicate_zero, List.append_nil]
          rw [htake] at hlast ⊢
          exact paired_cut h len hlast hb

/-! ## Loops over a row -/

theorem yields_eraseCols {cols : ℕ} {row : Row} (h : RowFits cols row) (start : ℕ) {stop : ℕ}
    (hstop : stop ≤ cols) (attrs : Attrs) :
    Yields (Grid.eraseCols row start stop attrs) (RowFits cols) := by
  unfold Grid.eraseCols
  apply yields_foldlM (RowFits cols) _ _ h
  intro row col hcol hrow
  rw [List.mem_range'_1] at hcol
  exact yields_erase hrow (by omega) attrs

theorem yields_repeat_remove {cols : ℕ} (col : ℕ) (n : ℕ) {row : Row} (h : RowFits cols row)
    (hn : col + n ≤ cols) :
    Yields (repeatM (fun row => row.remove col) n row) (RowFits (cols - n)) := by
  induction n generalizing cols row with
  | zero => exact yields_some h
  | succ n ih =>
      refine (yields_remove h (by omega)).bind fun r hr => ?_
      refine (ih hr (by omega)).mono fun r' hr' => ?_
      rw [Nat.sub_sub, Nat.add_comm 1 n] at hr'
      exact hr'

/-- What `insert_cells` keeps while it puts in blanks at `col`: the parts before and after `col`
are paired, or, if `col` holds a second half, the parts around its pair are. -/
def Insertable (wide : Bool) (col : ℕ) (cells : List Cell) : Prop :=
  if wide then ∃ before a b after, cells = before ++ a :: b :: after ∧ before.length + 1 = col ∧
    First a ∧ Second b ∧ PairedCells before ∧ PairedCells after
  else ∃ before after, cells = before ++ after ∧ before.length = col ∧
    PairedCells before ∧ PairedCells after

theorem Insertable.paired {wide : Bool} {col : ℕ} {cells : List Cell}
    (h : Insertable wide col cells) : PairedCells cells := by
  cases wide with
  | true =>
      obtain ⟨before, a, b, after, rfl, -, ha, hb, hbefore, hafter⟩ := h
      exact hbefore.append (.pair ha hb hafter)
  | false =>
      obtain ⟨before, after, rfl, -, hbefore, hafter⟩ := h
      exact hbefore.append hafter

theorem modify_append {row : Row} {before after : List Cell} {c : Cell} (f : Cell → Cell)
    (h : row.cells = before ++ c :: after) :
    row.modify before.length f = some { row with cells := before ++ f c :: after } := by
  have hget : row.cells[before.length]? = some c := by simp [h]
  rw [modify_eq f hget, h, List.set_append_right _ _ (le_refl _), Nat.sub_self, List.set_cons_zero]

theorem insert_append {row : Row} {before after : List Cell} (c : Cell)
    (h : row.cells = before ++ after) :
    row.insert before.length c = some { row with cells := before ++ c :: after } := by
  unfold Row.insert insertAt
  rw [h, if_pos (by simp)]
  have hins : (before ++ after).insertIdx before.length c = before ++ c :: after := by
    clear h
    induction before with
    | nil => rfl
    | cons b before ih => simpa using ih
  rw [hins]
  rfl

/-- INTERNAL: One blank is put in.
SRC: grid.rs:541-549 -/
theorem yields_insertBlank {wide : Bool} {col : ℕ} {blank : Cell} (hb : Single blank) {row : Row}
    (h : Insertable wide col row.cells) :
    Yields (Grid.insertBlank wide col blank row) fun r =>
      Insertable wide col r.cells ∧ r.cells.length = row.cells.length + 1 := by
  unfold Grid.insertBlank
  cases wide with
  | true =>
      obtain ⟨before, a, b, after, hcells, hlen, ha, hsecond, hbefore, hafter⟩ := h
      have hcol : col = (before ++ [a]).length := by rw [List.length_append]; exact hlen.symm
      have hsplit : row.cells = (before ++ [a]) ++ b :: after := by rw [hcells]; simp
      -- the old second half is a single now, the blank is the second half
      subst hcol
      refine yields_bind_of_eq (modify_append _ hsplit) ?_
      refine yields_bind_of_eq (insert_append blank rfl) ?_
      rw [if_pos rfl, modify_append _ rfl]
      refine yields_some ⟨?_, ?_⟩
      · refine ⟨before, a, { blank with wideContinuation := true },
          { b with wideContinuation := false } :: after, by simp, by simp, ha, ?_, hbefore, ?_⟩
        · exact ⟨hb.1, rfl⟩
        · exact .single ⟨hsecond.1, rfl⟩ hafter
      · rw [hsplit]
        simp only [List.length_append, List.length_cons]
        omega
  | false =>
      obtain ⟨before, after, hcells, rfl, hbefore, hafter⟩ := h
      refine yields_bind_of_eq rfl ?_
      refine yields_bind_of_eq (insert_append blank hcells) ?_
      refine yields_some ⟨⟨before, blank :: after, rfl, rfl, hbefore, .single hb hafter⟩, ?_⟩
      rw [hcells]
      simp only [List.length_append, List.length_cons]
      omega

theorem yields_repeat_insertBlank {wide : Bool} {col : ℕ} {blank : Cell} (hb : Single blank)
    (n : ℕ) {row : Row} (h : Insertable wide col row.cells) :
    Yields (repeatM (Grid.insertBlank wide col blank) n row) fun r =>
      PairedCells r.cells ∧ row.cells.length ≤ r.cells.length := by
  have hI : ∀ r : Row, (Insertable wide col r.cells ∧ row.cells.length ≤ r.cells.length) →
      Yields (Grid.insertBlank wide col blank r) fun r' =>
        Insertable wide col r'.cells ∧ row.cells.length ≤ r'.cells.length := by
    intro r hr
    exact (yields_insertBlank hb hr.1).mono fun r' hr' => ⟨hr'.1, by omega⟩
  exact (yields_repeatM _ hI n ⟨h, le_refl _⟩).mono fun r hr => ⟨hr.1.paired, hr.2⟩

/-- The column at which blanks are put in. -/
theorem insertable_of_paired {cells : List Cell} (h : PairedCells cells) {col : ℕ} {c : Cell}
    (hc : cells[col]? = some c) : Insertable c.wideContinuation col cells := by
  have hlt : col < cells.length := (List.getElem?_eq_some_iff.mp hc).1
  have hsplit := List.take_append_drop col cells
  have hlen : (cells.take col).length = col := by rw [List.length_take]; omega
  have hcons : cells.drop col = c :: cells.drop (col + 1) := by
    obtain ⟨_, rfl⟩ := List.getElem?_eq_some_iff.mp hc
    exact List.drop_eq_getElem_cons hlt
  rcases h.trichotomy hc with ⟨hS, hbefore, hafter⟩ | ⟨hF, b, hb, hC, hbefore, hafter⟩ |
    ⟨hC, j, b, rfl, hb, hF, hbefore, hafter⟩
  · rw [hS.2]
    refine ⟨_, _, hsplit.symm, hlen, hbefore, ?_⟩
    rw [hcons]
    exact .single hS hafter
  · rw [hF.2.1]
    refine ⟨_, _, hsplit.symm, hlen, hbefore, ?_⟩
    obtain ⟨hlt', rfl⟩ := List.getElem?_eq_some_iff.mp hb
    rw [hcons, List.drop_eq_getElem_cons hlt']
    exact .pair hF hC hafter
  · rw [hC.2]
    obtain ⟨hlt', rfl⟩ := List.getElem?_eq_some_iff.mp hb
    refine ⟨cells.take j, _, c, cells.drop (j + 2), ?_, ?_, hF, hC, hbefore, hafter⟩
    · rw [← hcons, ← List.drop_eq_getElem_cons hlt', List.take_append_drop]
    · rw [List.length_take]
      omega

end Tymux.Analysis.Vt
