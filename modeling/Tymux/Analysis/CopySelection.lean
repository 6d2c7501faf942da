import Tymux.Model.CopyText
import Tymux.Analysis.ReadBoundaries
import Mathlib.Data.List.Induction

/-!
# What a copy-mode selection copies

The anchor of a selection is a position on the screen. It stays where it is on the screen when the
history moves under it, and the selection is extracted from the screen as it is at the yank. So the
text copied is the text between the two cells of the history at which `v` and `y` were pressed if
the scrollback offset was the same at both, and for any other offset there is a history for which it
is not (`selection_follows_iff`).
-/

set_option autoImplicit false

namespace Tymux.Analysis.CopySelection

open Tymux.Model ReadBoundaries

/-! ## The text between two cells of the history -/

/-- A cell of the history: a line, counted from the oldest, and a column. -/
structure HistoryCell where
  line : ℕ
  col : ℕ
  deriving DecidableEq, Repr

/-- Reading order. -/
def HistoryCell.before (a b : HistoryCell) : Prop :=
  a.line < b.line ∨ a.line = b.line ∧ a.col ≤ b.col

instance (a b : HistoryCell) : Decidable (a.before b) := by
  unfold HistoryCell.before
  infer_instance

/-- The part of line `i` from `a` to `b`. -/
def partOf (lines : List (List (List UInt8))) (a b : HistoryCell) (i : ℕ) : List UInt8 :=
  let line := lines.getD i []
  let upTo := if i = b.line then line.take (b.col + 1) else line
  (upTo.drop (if i = a.line then a.col else 0)).flatten

/-- The text from `a` to `b`, the rows joined by newlines, for `a` before `b`. -/
def textFrom (lines : List (List (List UInt8))) (a b : HistoryCell) : List UInt8 :=
  List.intercalate [0x0a]
    ((List.range' a.line (b.line + 1 - a.line)).map (partOf lines a b))

/-- The text between two cells in either order. -/
def textBetween (lines : List (List (List UInt8))) (a b : HistoryCell) : List UInt8 :=
  if a.before b then textFrom lines a b else textFrom lines b a

/-! ## Extracting from a screen -/

/-- INTERNAL: the cells of a row between two columns.
SRC: copy_mode.rs:126-131 -/
theorem flatMap_zipIdx_between {α : Type*} (row : List (List α)) (lo hi : ℕ)
    (hlen : row.length ≤ 2 ^ 16) :
    (row.zipIdx.flatMap fun p =>
      if lo ≤ p.2 % 2 ^ 16 ∧ p.2 % 2 ^ 16 ≤ hi then p.1 else []) =
        ((row.take (hi + 1)).drop lo).flatten := by
  induction row using List.reverseRecOn with
  | nil => simp
  | append_singleton row cell ih =>
      have hcell : row.length % 2 ^ 16 = row.length := by
        apply Nat.mod_eq_of_lt
        rw [List.length_append, List.length_singleton] at hlen
        omega
      rw [List.length_append, List.length_singleton] at hlen
      rw [List.zipIdx_append, List.flatMap_append, ih (by omega)]
      simp only [List.zipIdx_singleton, List.flatMap_cons, List.flatMap_nil, List.append_nil,
        Nat.zero_add, hcell]
      by_cases hhi : row.length ≤ hi
      · rw [List.take_of_length_le (by omega), List.take_of_length_le
          (by rw [List.length_append, List.length_singleton]; omega)]
        by_cases hlo : lo ≤ row.length
        · rw [if_pos ⟨hlo, hhi⟩, List.drop_append_of_le_length hlo, List.flatten_append]
          simp
        · rw [if_neg (fun h => hlo h.1), List.drop_of_length_le (by omega),
            List.drop_of_length_le (by rw [List.length_append, List.length_singleton]; omega)]
          rfl
      · rw [if_neg (fun h => hhi h.2), List.take_append_of_le_length (by omega), List.append_nil]

theorem zipIdx_eq_map_range {α : Type*} (l : List (List α)) :
    l.zipIdx = (List.range l.length).map fun i => (l.getD i [], i) := by
  apply List.ext_getElem
  · simp
  · intro i hi hi'
    have hlt : i < l.length := by simpa using hi
    simp [hlt]

theorem intercalate_range' {α : Type*} (sep : List α) (g : ℕ → List α) (start n : ℕ) :
    List.intercalate sep ((List.range' start n).map g) =
      (List.range' start n).flatMap fun i => g i ++ if i + 1 ≠ start + n then sep else [] := by
  induction n generalizing start with
  | zero => rfl
  | succ n ih =>
      cases n with
      | zero => simp [List.intercalate]
      | succ n =>
          rw [List.range'_succ, List.map_cons, List.flatMap_cons, if_pos (by omega)]
          have hrest := ih (start + 1)
          have hend : start + 1 + (n + 1) = start + (n + 1 + 1) := by omega
          rw [hend] at hrest
          rw [← hrest, List.range'_succ, List.map_cons]
          simp [List.intercalate]

/-- INTERNAL: the selection of a screen, its ends in reading order.
SRC: copy_mode.rs:114-136 -/
theorem extractSelection_ordered {grid : List (List (List UInt8))} (hrows : grid.length ≤ 2 ^ 16)
    (hcols : ∀ row ∈ grid, row.length ≤ 2 ^ 16) {a b : CellPos}
    (horder : a.row < b.row ∨ a.row = b.row ∧ a.col ≤ b.col) (hb : b.row < grid.length) :
    extractSelection grid a b = textFrom grid ⟨a.row, a.col⟩ ⟨b.row, b.col⟩ := by
  have hab : a.row ≤ b.row := by omega
  have hsplit : List.range grid.length = List.range' 0 a.row ++
      (List.range' a.row (b.row + 1 - a.row) ++
        List.range' (b.row + 1) (grid.length - (b.row + 1))) := by
    have hlow := List.range'_append_1 (s := 0) (m := a.row) (n := b.row + 1 - a.row)
    have hhigh := List.range'_append_1 (s := 0) (m := b.row + 1) (n := grid.length - (b.row + 1))
    rw [Nat.zero_add] at hlow hhigh
    rw [← List.append_assoc, hlow, List.range_eq_range', Nat.add_sub_cancel' (by omega), hhigh,
      Nat.add_sub_cancel' (by omega)]
  have hmod : ∀ i, i < grid.length → i % 2 ^ 16 = i := fun i hi => Nat.mod_eq_of_lt (by omega)
  unfold extractSelection textFrom
  rw [if_pos horder, intercalate_range', zipIdx_eq_map_range]
  dsimp only
  rw [List.flatMap_map, hsplit, List.flatMap_append, List.flatMap_append]
  have hbelow : ∀ (f : ℕ → List UInt8) (l : List ℕ), (∀ i ∈ l, f i = []) → l.flatMap f = [] :=
    fun f l h => List.flatMap_eq_nil_iff.mpr h
  rw [hbelow _ (List.range' 0 a.row), hbelow _ (List.range' (b.row + 1) _), List.nil_append,
    List.append_nil]
  · apply List.flatMap_congr
    intro i hi
    rw [List.mem_range'_1] at hi
    have hi' : i < grid.length := by omega
    have hrow : (grid.getD i []).length ≤ 2 ^ 16 := by
      rw [List.getD_eq_getElem?_getD, List.getElem?_eq_getElem hi', Option.getD_some]
      exact hcols _ (List.getElem_mem hi')
    rw [hmod i hi', if_neg (by omega)]
    have hpart := fun upper => flatMap_zipIdx_between (grid.getD i [])
      (if i = a.row then a.col else 0) upper hrow
    unfold partOf
    dsimp only
    by_cases hlast : i = b.row
    · have hend : ¬ i + 1 ≠ a.row + (b.row + 1 - a.row) := by omega
      rw [if_pos hlast, if_neg (not_not.mpr hlast), if_neg hend, if_pos hlast]
      rw [List.append_nil, List.append_nil]
      exact hpart b.col
    · have hend : i + 1 ≠ a.row + (b.row + 1 - a.row) := by omega
      rw [if_neg hlast, if_pos hlast, if_pos hend, if_neg hlast]
      congr 1
      refine (hpart _).trans ?_
      rw [Nat.mod_eq_of_lt (by omega), List.take_of_length_le (by omega)]
  · intro i hi
    rw [List.mem_range'_1] at hi
    rw [hmod i (by omega), if_pos (by omega)]
  · intro i hi
    rw [List.mem_range'_1] at hi
    rw [hmod i (by omega), if_pos (by omega)]

/-- INTERNAL: the text on a screen is the text of the lines that it shows. -/
theorem textFrom_window {lines : List (List (List UInt8))} {top rows : ℕ} {a b : HistoryCell}
    (hb : b.line < rows) : textFrom ((lines.drop top).take rows) a b =
      textFrom lines ⟨top + a.line, a.col⟩ ⟨top + b.line, b.col⟩ := by
  have hcount : top + b.line + 1 - (top + a.line) = b.line + 1 - a.line := by omega
  unfold textFrom
  dsimp only
  rw [hcount, ← List.map_add_range', List.map_map]
  congr 1
  apply List.map_congr_left
  intro i hi
  rw [List.mem_range'_1] at hi
  have hget : ((lines.drop top).take rows).getD i [] = lines.getD (top + i) [] := by
    rw [List.getD_eq_getElem?_getD, List.getD_eq_getElem?_getD, List.getElem?_take_of_lt (by omega),
      List.getElem?_drop]
  simp only [partOf, Function.comp_apply, hget, Nat.add_left_cancel_iff]

/-! ## Which cells the text is made of -/

/-- The cell `q` holds the byte `x`. -/
def Holds (lines : List (List (List UInt8))) (q : HistoryCell) (x : UInt8) : Prop :=
  ∃ cell, (lines.getD q.line [])[q.col]? = some cell ∧ x ∈ cell

theorem mem_flatten_drop {α : Type*} {l : List (List α)} {lo : ℕ} {x : α} :
    x ∈ (l.drop lo).flatten ↔ ∃ col cell, lo ≤ col ∧ l[col]? = some cell ∧ x ∈ cell := by
  rw [List.mem_flatten]
  constructor
  · rintro ⟨cell, hcell, hx⟩
    obtain ⟨j, hj⟩ := List.mem_iff_getElem?.mp hcell
    rw [List.getElem?_drop] at hj
    exact ⟨lo + j, cell, Nat.le_add_right lo j, hj, hx⟩
  · rintro ⟨col, cell, hlo, hcell, hx⟩
    refine ⟨cell, List.mem_iff_getElem?.mpr ⟨col - lo, ?_⟩, hx⟩
    rw [List.getElem?_drop, Nat.add_sub_cancel' hlo]
    exact hcell

theorem mem_partOf {lines : List (List (List UInt8))} {a b : HistoryCell} {i : ℕ} {x : UInt8} :
    x ∈ partOf lines a b i ↔ ∃ col, (i = a.line → a.col ≤ col) ∧ (i = b.line → col ≤ b.col) ∧
      Holds lines ⟨i, col⟩ x := by
  have htake : ∀ col, (if i = b.line then (lines.getD i []).take (b.col + 1)
      else lines.getD i [])[col]? =
        if i = b.line ∧ b.col < col then none else (lines.getD i [])[col]? := by
    intro col
    by_cases hlast : i = b.line
    · rw [if_pos hlast]
      by_cases hcol : b.col < col
      · rw [if_pos ⟨hlast, hcol⟩, List.getElem?_take_eq_none (by omega)]
      · rw [if_neg (fun h => hcol h.2), List.getElem?_take_of_lt (by omega)]
    · rw [if_neg hlast, if_neg (fun h => hlast h.1)]
  unfold partOf
  dsimp only
  rw [mem_flatten_drop]
  constructor
  · rintro ⟨col, cell, hlo, hcell, hx⟩
    rw [htake] at hcell
    split_ifs at hcell with hout
    refine ⟨col, fun hfirst => ?_, fun hlast => ?_, cell, hcell, hx⟩
    · rw [if_pos hfirst] at hlo
      exact hlo
    · by_contra hgt
      exact hout ⟨hlast, not_le.mp hgt⟩
  · rintro ⟨col, hfirst, hlast, cell, hcell, hx⟩
    refine ⟨col, cell, ?_, ?_, hx⟩
    · split_ifs with h
      · exact hfirst h
      · exact Nat.zero_le col
    · rw [htake, if_neg]
      · exact hcell
      · rintro ⟨h, hgt⟩
        exact absurd (hlast h) (not_le.mpr hgt)

/-- INTERNAL: the bytes of the text, other than newlines, are those of the cells from `a` to
`b`. -/
theorem mem_textFrom {lines : List (List (List UInt8))} {a b : HistoryCell} {x : UInt8}
    (hx : x ≠ 0x0a) : x ∈ textFrom lines a b ↔
      ∃ q : HistoryCell, a.before q ∧ q.before b ∧ Holds lines q x := by
  unfold textFrom HistoryCell.before
  rw [intercalate_range', List.mem_flatMap]
  constructor
  · rintro ⟨i, hi, hmem⟩
    rw [List.mem_range'_1] at hi
    rcases List.mem_append.mp hmem with hmem | hmem
    · obtain ⟨col, hfirst, hlast, hholds⟩ := mem_partOf.mp hmem
      refine ⟨⟨i, col⟩, ?_, ?_, hholds⟩
      · change a.line < i ∨ a.line = i ∧ a.col ≤ col
        rcases Nat.eq_or_lt_of_le hi.1 with h | h
        · exact Or.inr ⟨h, hfirst h.symm⟩
        · exact Or.inl h
      · change i < b.line ∨ i = b.line ∧ col ≤ b.col
        rcases Nat.eq_or_lt_of_le (show i ≤ b.line by omega) with h | h
        · exact Or.inr ⟨h, hlast h⟩
        · exact Or.inl h
    · split_ifs at hmem
      · exact absurd (List.mem_singleton.mp hmem) hx
      · cases hmem
  · rintro ⟨⟨i, col⟩, hfirst, hlast, hholds⟩
    dsimp only at hfirst hlast
    refine ⟨i, List.mem_range'_1.mpr (by omega), List.mem_append_left _ (mem_partOf.mpr ?_)⟩
    exact ⟨col, by omega, by omega, hholds⟩

theorem mem_textBetween {lines : List (List (List UInt8))} {a b : HistoryCell} {x : UInt8}
    (hx : x ≠ 0x0a) : x ∈ textBetween lines a b ↔ ∃ q : HistoryCell,
      (a.before q ∧ q.before b ∨ b.before q ∧ q.before a) ∧ Holds lines q x := by
  unfold textBetween
  by_cases hab : a.before b
  · rw [if_pos hab, mem_textFrom hx]
    constructor
    · rintro ⟨q, haq, hqb, hq⟩
      exact ⟨q, Or.inl ⟨haq, hqb⟩, hq⟩
    · rintro ⟨q, ⟨haq, hqb⟩ | ⟨hbq, hqa⟩, hq⟩
      · exact ⟨q, haq, hqb, hq⟩
      · refine ⟨q, ?_, ?_, hq⟩
        · unfold HistoryCell.before at *
          omega
        · unfold HistoryCell.before at *
          omega
  · rw [if_neg hab, mem_textFrom hx]
    constructor
    · rintro ⟨q, hbq, hqa, hq⟩
      exact ⟨q, Or.inr ⟨hbq, hqa⟩, hq⟩
    · rintro ⟨q, ⟨haq, hqb⟩ | ⟨hbq, hqa⟩, hq⟩
      · refine absurd ?_ hab
        unfold HistoryCell.before at *
        omega
      · exact ⟨q, hbq, hqa, hq⟩

/-- INTERNAL: the screen at an offset that does not go beyond the history.
SRC: copy_mode.rs:108-137, grid.rs:228-231 -/
theorem extractSelection_capture {rows cols back : ℕ} (h : FixedHistory rows cols back)
    (hrows : rows < 2 ^ 16) (hcols : cols < 2 ^ 16) {offset : ℕ} (hoffset : offset ≤ back)
    {a b : CellPos} (ha : a.row < rows) (hb : b.row < rows) :
    extractSelection (h.capture offset) a b =
      textBetween h.lines ⟨back - offset + a.row, a.col⟩ ⟨back - offset + b.row, b.col⟩ := by
  have hlen : (h.capture offset).length = rows := by
    rw [FixedHistory.capture, List.length_take, List.length_drop, h.length_lines]
    omega
  have hwidth : ∀ row ∈ h.capture offset, row.length ≤ 2 ^ 16 := by
    intro row hrow
    rw [h.length_line row (List.mem_of_mem_drop (List.mem_of_mem_take hrow))]
    exact hcols.le
  have hwindow : h.capture offset = (h.lines.drop (back - offset)).take rows := by
    rw [FixedHistory.capture, Nat.min_eq_left hoffset]
  have hordered : ∀ start stop : CellPos, stop.row < rows →
      (start.row < stop.row ∨ start.row = stop.row ∧ start.col ≤ stop.col) →
      extractSelection (h.capture offset) start stop = textFrom h.lines
        ⟨back - offset + start.row, start.col⟩ ⟨back - offset + stop.row, stop.col⟩ := by
    intro start stop hstop horder
    rw [extractSelection_ordered (by omega) hwidth horder (by omega), hwindow]
    exact textFrom_window hstop
  have hswap : ∀ start stop : CellPos,
      ¬ (start.row < stop.row ∨ start.row = stop.row ∧ start.col ≤ stop.col) →
      extractSelection (h.capture offset) start stop =
        extractSelection (h.capture offset) stop start := by
    intro start stop horder
    have hback : stop.row < start.row ∨ stop.row = start.row ∧ stop.col ≤ start.col := by omega
    simp only [extractSelection, if_neg horder, if_pos hback]
  unfold textBetween
  by_cases horder : a.row < b.row ∨ a.row = b.row ∧ a.col ≤ b.col
  · rw [if_pos (by unfold HistoryCell.before; dsimp only; omega), hordered a b hb horder]
  · rw [if_neg (by unfold HistoryCell.before; dsimp only; omega), hswap a b horder,
      hordered b a ha (by omega)]

/-! ## The state of copy mode -/

/-- The state after these keys, none of which leaves copy mode. -/
def pressed (cs : CopyModeState) (keys : List UInt8) : CopyModeState :=
  keys.foldl (fun cs b => (cs.handleByte b).1) cs

/-- The cursor is on the screen. -/
def OnScreen (rows cols : ℕ) (cs : CopyModeState) : Prop :=
  cs.rows = rows ∧ cs.cols = cols ∧ cs.cursor.row < rows ∧ cs.cursor.col < cols

theorem onScreen_handleByte {rows cols : ℕ} {cs : CopyModeState} (h : OnScreen rows cols cs)
    (b : UInt8) : OnScreen rows cols (cs.handleByte b).1 := by
  obtain ⟨hrows, hcols, hrow, hcol⟩ := h
  unfold CopyModeState.handleByte OnScreen
  split_ifs
  all_goals refine ⟨hrows, hcols, ?_, ?_⟩
  all_goals dsimp only; omega

theorem onScreen_pressed {rows cols : ℕ} {cs : CopyModeState} (h : OnScreen rows cols cs)
    (keys : List UInt8) : OnScreen rows cols (pressed cs keys) := by
  induction keys generalizing cs with
  | nil => exact h
  | cons b keys ih => exact ih (onScreen_handleByte h b)

theorem selectingFrom_handleByte {cs : CopyModeState} {b : UInt8} (hb : b ≠ 0x76) :
    (cs.handleByte b).1.selectingFrom = cs.selectingFrom := by
  unfold CopyModeState.handleByte
  rw [if_neg hb]
  split_ifs <;> rfl

theorem selectingFrom_pressed {cs : CopyModeState} {keys : List UInt8} (hv : 0x76 ∉ keys) :
    (pressed cs keys).selectingFrom = cs.selectingFrom := by
  induction keys generalizing cs with
  | nil => rfl
  | cons b keys ih =>
      rw [List.mem_cons, not_or] at hv
      exact (ih hv.2).trans (selectingFrom_handleByte fun h => hv.1 h.symm)

/-- INTERNAL: keys that do not leave copy mode, and then more.
SRC: main.rs:1152-1166 -/
theorem handleBytes_pressed {cs : CopyModeState} {keys : List UInt8} {redraw : Bool}
    (h : (cs.handleBytes redraw keys).shouldExit = false) (more : List UInt8) :
    ∃ redraw', cs.handleBytes redraw (keys ++ more) =
      (pressed cs keys).handleBytes redraw' more := by
  induction keys generalizing cs redraw with
  | nil => exact ⟨redraw, rfl⟩
  | cons b keys ih =>
      rw [List.cons_append]
      unfold pressed
      rw [List.foldl_cons]
      simp only [CopyModeState.handleBytes] at h ⊢
      cases hb : cs.handleByte b with
      | mk cs' event =>
          rw [hb] at h
          cases event with
          | redraw => exact ih h
          | exit => cases h
          | yanked => cases h
          | consumed => exact ih h

/-! ## The selection -/

/-- The history cell under the cursor. -/
def cellAt (back : ℕ) (cs : CopyModeState) : HistoryCell :=
  ⟨back - cs.scrollbackOffset + cs.cursor.row, cs.cursor.col⟩

/-- A history in which one cell holds an `x` and all others are empty. -/
def marked (rows cols back : ℕ) (q : HistoryCell) : FixedHistory rows cols back where
  lines := (List.range (back + rows)).map fun i =>
    (List.range cols).map fun j => if i = q.line ∧ j = q.col then [0x78] else []
  length_lines := by simp
  length_line := by
    intro line hline
    obtain ⟨i, -, rfl⟩ := List.mem_map.mp hline
    simp

theorem holds_marked {rows cols back : ℕ} {q : HistoryCell} (hline : q.line < back + rows)
    (hcol : q.col < cols) (q' : HistoryCell) :
    Holds (marked rows cols back q).lines q' 0x78 ↔ q' = q := by
  obtain ⟨line, col⟩ := q'
  have hlines : (marked rows cols back q).lines.getD line [] =
      if line < back + rows then
        (List.range cols).map fun j => if line = q.line ∧ j = q.col then [0x78] else []
      else [] := by
    rw [List.getD_eq_getElem?_getD, marked, List.getElem?_map]
    split_ifs with h
    · rw [List.getElem?_range h]
      rfl
    · rw [List.getElem?_eq_none (by simpa using h)]
      rfl
  unfold Holds
  rw [hlines]
  constructor
  · rintro ⟨cell, hcell, hx⟩
    split_ifs at hcell with h
    · rw [List.getElem?_map] at hcell
      obtain ⟨j, hj, rfl⟩ := Option.map_eq_some_iff.mp hcell
      obtain ⟨hlt, hget⟩ := List.getElem?_eq_some_iff.mp hj
      rw [List.getElem_range] at hget
      dsimp only at hget
      split_ifs at hx with hq
      · rw [HistoryCell.mk.injEq]
        omega
      · cases hx
    · cases hcell
  · rintro rfl
    refine ⟨[0x78], ?_, List.mem_singleton_self _⟩
    dsimp only at hline hcol ⊢
    rw [if_pos hline, List.getElem?_map, List.getElem?_range hcol]
    simp

/-- INTERNAL: the text from `p` and that from `p'` to the same cell tell the two apart. -/
theorem eq_of_textBetween (rows cols back : ℕ) {p p' b : HistoryCell}
    (hp : p.line < back + rows ∧ p.col < cols) (hp' : p'.line < back + rows ∧ p'.col < cols)
    (h : ∀ history : FixedHistory rows cols back,
      textBetween history.lines p b = textBetween history.lines p' b) : p = p' := by
  have hx : (0x78 : UInt8) ≠ 0x0a := by decide
  have hself : ∀ q : HistoryCell, q.before q := fun q => Or.inr ⟨rfl, le_refl _⟩
  have htotal : ∀ q q' : HistoryCell, q.before q' ∨ q'.before q := by
    intro q q'
    unfold HistoryCell.before
    omega
  have hmem : ∀ q q' : HistoryCell, q.line < back + rows → q.col < cols →
      0x78 ∈ textBetween (marked rows cols back q).lines q' b →
        q'.before q ∧ q.before b ∨ b.before q ∧ q.before q' := by
    intro q q' hline hcol hin
    obtain ⟨q₁, hbetween, hholds⟩ := (mem_textBetween hx).mp hin
    rw [(holds_marked hline hcol q₁).mp hholds] at hbetween
    exact hbetween
  have hown : ∀ q : HistoryCell, q.line < back + rows → q.col < cols →
      0x78 ∈ textBetween (marked rows cols back q).lines q b := by
    intro q hline hcol
    refine (mem_textBetween hx).mpr ⟨q, ?_, (holds_marked hline hcol q).mpr rfl⟩
    exact (htotal q b).imp (fun hqb => ⟨hself q, hqb⟩) (fun hbq => ⟨hbq, hself q⟩)
  have hpin := hown p hp.1 hp.2
  rw [h] at hpin
  have hpin' := hown p' hp'.1 hp'.2
  rw [← h] at hpin'
  have hbetween := hmem p p' hp.1 hp.2 hpin
  have hbetween' := hmem p' p hp'.1 hp'.2 hpin'
  obtain ⟨line, col⟩ := p
  obtain ⟨line', col'⟩ := p'
  unfold HistoryCell.before at hbetween hbetween'
  dsimp only at hbetween hbetween'
  rw [HistoryCell.mk.injEq]
  omega

/-- **What a selection copies.** Let `v` be pressed after the keys `before` and for the last time,
and `y` after the keys `middle` that follow, with the history not exceeded. The text yanked is the
text between the two cells of the history, for every history, if and only if the scrollback offset
is the same at both keys.
SRC: copy_mode.rs:58-137, main.rs:1148-1184 -/
theorem selection_follows_iff {rows cols back : ℕ} (hrows : 0 < rows ∧ rows < 2 ^ 16)
    (hcols : 0 < cols ∧ cols < 2 ^ 16) {before middle : List UInt8}
    (hstays : ((CopyModeState.new rows cols).handleBytes false
      (before ++ 0x76 :: middle)).shouldExit = false) (hlast : 0x76 ∉ middle)
    (hstart : (pressed (.new rows cols) before).scrollbackOffset ≤ back)
    (hstop : (pressed (.new rows cols) (before ++ 0x76 :: middle)).scrollbackOffset ≤ back) :
    (∀ history : FixedHistory rows cols back,
      ((CopyModeState.new rows cols).handleBytes false
          (before ++ 0x76 :: middle ++ [0x79])).yanked history.capture =
        some (textBetween history.lines (cellAt back (pressed (.new rows cols) before))
          (cellAt back (pressed (.new rows cols) (before ++ 0x76 :: middle))))) ↔
      (pressed (.new rows cols) before).scrollbackOffset =
        (pressed (.new rows cols) (before ++ 0x76 :: middle)).scrollbackOffset := by
  have hnew : OnScreen rows cols (.new rows cols) := by
    have hr := Nat.mod_eq_of_lt hrows.2
    have hc := Nat.mod_eq_of_lt hcols.2
    exact ⟨hr, hc, hrows.1, hcols.1⟩
  have honStart := onScreen_pressed hnew before
  have honStop := onScreen_pressed hnew (before ++ 0x76 :: middle)
  have hanchor : (pressed (.new rows cols) (before ++ 0x76 :: middle)).selectingFrom =
      some (pressed (.new rows cols) before).cursor := by
    have hsplit : pressed (.new rows cols) (before ++ 0x76 :: middle) =
        pressed ((pressed (.new rows cols) before).handleByte 0x76).1 middle := by
      rw [pressed, List.foldl_append]
      rfl
    rw [hsplit, selectingFrom_pressed hlast]
    rfl
  obtain ⟨redraw, hkeys⟩ := handleBytes_pressed hstays [0x79]
  rw [hkeys]
  generalize pressed (.new rows cols) before = start at *
  generalize pressed (.new rows cols) (before ++ 0x76 :: middle) = stop at *
  have hyank : stop.handleBytes redraw [0x79] =
      ⟨stop, redraw, true, some (start.cursor, stop.cursor)⟩ := by
    simp [CopyModeState.handleBytes, CopyModeState.handleByte, hanchor]
  have hyanked : ∀ history : FixedHistory rows cols back,
      (stop.handleBytes redraw [0x79]).yanked history.capture =
        some (textBetween history.lines
          ⟨back - stop.scrollbackOffset + start.cursor.row, start.cursor.col⟩
          (cellAt back stop)) := by
    intro history
    rw [hyank]
    exact congrArg some (extractSelection_capture history hrows.2 hcols.2 hstop
      honStart.2.2.1 honStop.2.2.1)
  have hrow := honStart.2.2.1
  have hcol := honStart.2.2.2
  constructor
  · intro hall
    have hsame : (⟨back - stop.scrollbackOffset + start.cursor.row, start.cursor.col⟩ :
        HistoryCell) = cellAt back start := by
      refine eq_of_textBetween rows cols back (b := cellAt back stop) ⟨?_, hcol⟩ ⟨?_, hcol⟩ ?_
      · dsimp only
        omega
      · unfold cellAt
        dsimp only
        omega
      · intro history
        exact Option.some_inj.mp ((hyanked history).symm.trans (hall history))
    have hline := (HistoryCell.mk.inj hsame).1
    omega
  · intro hsame history
    rw [hyanked]
    unfold cellAt
    rw [hsame]

/-- INTERNAL: on a screen of two lines, `v`, `j` and `y`. -/
theorem selection_follows_iff_down :
    (∀ history : FixedHistory 2 1 1,
      ((CopyModeState.new 2 1).handleBytes false ([] ++ 0x76 :: [0x6a] ++ [0x79])).yanked
          history.capture =
        some (textBetween history.lines (cellAt 1 (pressed (.new 2 1) []))
          (cellAt 1 (pressed (.new 2 1) ([] ++ 0x76 :: [0x6a]))))) ↔
      (pressed (.new 2 1) []).scrollbackOffset =
        (pressed (.new 2 1) ([] ++ 0x76 :: [0x6a])).scrollbackOffset :=
  selection_follows_iff (by decide) (by decide) (by decide) (by decide) (by decide) (by decide)

/-- INTERNAL: `v`, `k` at the top of the screen, `y`: the anchor moves to the upper line with the
history, so that one cell is copied in place of two lines.
SRC: copy_mode.rs:72-78, 86-89 -/
theorem selection_loses_anchor : ∃ history : FixedHistory 1 1 1,
    history.lines = [[[0x61]], [[0x62]]] ∧
      ((CopyModeState.new 1 1).handleBytes false [0x76, 0x6b, 0x79]).yanked history.capture =
        some [0x61] ∧
      cellAt 1 (pressed (.new 1 1) []) = ⟨1, 0⟩ ∧
      cellAt 1 (pressed (.new 1 1) [0x76, 0x6b]) = ⟨0, 0⟩ ∧
      textBetween history.lines ⟨1, 0⟩ ⟨0, 0⟩ = [0x61, 0x0a, 0x62] := by
  refine ⟨⟨[[[0x61]], [[0x62]]], rfl, by simp⟩, rfl, by decide, by decide, by decide, by decide⟩

end Tymux.Analysis.CopySelection
