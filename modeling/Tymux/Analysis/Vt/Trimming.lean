import Tymux.Analysis.Vt.Rows
import Tymux.Model.Vt.Reflow
import Mathlib.Data.List.Induction

/-!
# What a group of rows says

A group of rows that continue one another is one long line. How much of each row belongs to it is
`wrapped_line_trimmed_len`: all of it, all but the last column where a wide character did not fit
there, and of the last row what has content. The pieces are paired (`paired_segments`), so the line
is. All rows of the group have one length; the columns from the old width on are blank.
-/

set_option autoImplicit false

namespace Tymux.Analysis.Vt

open Tymux.Lib Tymux.Model Tymux.Model.Vt

/-! ## The content of a row -/

/-- The cell is a blank, maybe with a background. -/
def Vacant (c : Cell) : Prop := Single c ∧ c.hasContents = false

theorem vacant_new : Vacant Cell.new := ⟨single_new, rfl⟩

theorem trimmedFrom_concat (cells : List Cell) (c : Cell) :
    trimmedFrom (cells ++ [c]).reverse =
      if c.hasContents && !c.wideContinuation then cells.length + if c.wide then 2 else 1
      else trimmedFrom cells.reverse := by
  rw [List.reverse_append, List.reverse_singleton, List.singleton_append]
  conv_lhs => unfold trimmedFrom
  rw [List.length_reverse]

/-- INTERNAL: A paired row is its content and blanks behind it. -/
theorem exists_trimmed {cells : List Cell} (h : PairedCells cells) :
    ∃ content blanks, cells = content ++ blanks ∧ trimmedFrom cells.reverse = content.length ∧
      PairedCells content ∧ ∀ c ∈ blanks, Vacant c := by
  induction cells using List.reverseRecOn with
  | nil => exact ⟨[], [], rfl, rfl, .nil, fun c hc => absurd hc List.not_mem_nil⟩
  | append_singleton cells c ih =>
      rw [trimmedFrom_concat]
      rcases h.split with ⟨hcells, hlast⟩ | ⟨before, a, b, after, hcells, hlast, hF, hC, -, -⟩
      · have hS : Single c := by
          cases hlast with
          | single hS _ => exact hS
        rw [hS.2, hS.1]
        cases hcontents : c.hasContents with
        | true =>
            refine ⟨cells ++ [c], [], (List.append_nil _).symm, ?_, h, ?_⟩
            · simp
            · exact fun c hc => absurd hc List.not_mem_nil
        | false =>
            obtain ⟨content, blanks, hsplit, hlen, hpaired, hvacant⟩ := ih hcells
            refine ⟨content, blanks ++ [c], ?_, ?_, hpaired, ?_⟩
            · rw [hsplit, List.append_assoc]
            · rw [← hlen]
              rfl
            · rw [List.forall_mem_append, List.forall_mem_singleton]
              exact ⟨hvacant, hS, hcontents⟩
      · -- the row ends with a wide character
        obtain ⟨rfl, rfl⟩ := List.cons_eq_cons.mp hlast
        refine ⟨cells ++ [c], [], (List.append_nil _).symm, ?_, h, ?_⟩
        · rw [hC.2, hcells, trimmedFrom_concat, hF.1, hF.2.1, hF.2.2]
          simp
        · exact fun c hc => absurd hc List.not_mem_nil

theorem paired_take_trimmedLen {row : Row} (h : PairedCells row.cells) :
    PairedCells (row.cells.take (trimmedLen row)) := by
  obtain ⟨content, blanks, hsplit, hlen, hpaired, -⟩ := exists_trimmed h
  unfold trimmedLen
  rw [hlen, hsplit, List.take_left]
  exact hpaired

theorem vacant_drop_trimmedLen {row : Row} (h : PairedCells row.cells) :
    ∀ c ∈ row.cells.drop (trimmedLen row), Vacant c := by
  obtain ⟨content, blanks, hsplit, hlen, -, hvacant⟩ := exists_trimmed h
  unfold trimmedLen
  rw [hlen, hsplit, List.drop_left]
  exact hvacant

/-- Blanks at the end do not count. -/
theorem trimmedFrom_append_vacant (cells : List Cell) {blanks : List Cell}
    (h : ∀ c ∈ blanks, Vacant c) :
    trimmedFrom (cells ++ blanks).reverse = trimmedFrom cells.reverse := by
  induction blanks using List.reverseRecOn with
  | nil => rw [List.append_nil]
  | append_singleton blanks c ih =>
      rw [List.forall_mem_append, List.forall_mem_singleton] at h
      rw [← List.append_assoc, trimmedFrom_concat, h.2.2, Bool.false_and, if_neg Bool.false_ne_true]
      exact ih h.1

/-- The first cell only matters where nothing behind it has content. -/
theorem trimmedFrom_cons (c : Cell) (cells : List Cell) :
    trimmedFrom (c :: cells).reverse =
      if trimmedFrom cells.reverse = 0 then trimmedFrom [c] else trimmedFrom cells.reverse + 1 := by
  induction cells using List.reverseRecOn with
  | nil => rfl
  | append_singleton cells d ih =>
      rw [← List.cons_append, trimmedFrom_concat, trimmedFrom_concat]
      split
      · have hpos : cells.length + (if d.wide = true then 2 else 1) ≠ 0 := by
          split <;> omega
        rw [if_neg hpos, List.length_cons]
        omega
      · exact ih

/-- A first half in the place of the first cell keeps a content of two cells and more. -/
theorem trimmedFrom_first {c f : Cell} {cells : List Cell} (hf : First f)
    (hlen : 2 ≤ trimmedFrom (c :: cells).reverse) :
    trimmedFrom (f :: cells).reverse = trimmedFrom (c :: cells).reverse := by
  rw [trimmedFrom_cons] at hlen
  rw [trimmedFrom_cons, trimmedFrom_cons]
  by_cases hzero : trimmedFrom cells.reverse = 0
  · rw [if_pos hzero] at hlen
    rw [if_pos hzero, if_pos hzero]
    have htwo : trimmedFrom [f] = 2 := by
      simp [trimmedFrom, hf.1, hf.2.1, hf.2.2]
    have hle : trimmedFrom [c] ≤ 2 := by
      simp only [trimmedFrom, List.length_nil]
      split
      · split <;> omega
      · omega
    omega
  · rw [if_neg hzero, if_neg hzero]

/-! ## Groups -/

/-- A row of a group: all rows have the length `len`, and the columns from the old width `cols` on
are blank. -/
structure Padded (cols len : ℕ) (row : Row) : Prop where
  length : row.cells.length = len
  paired : PairedCells row.cells
  vacant : ∀ c ∈ row.cells.drop cols, Vacant c

/-- How much of row `i` belongs to the line. -/
def lineLen (cols : ℕ) (group : List Row) (i : ℕ) : ℕ :=
  (wrappedLineTrimmedLen group i cols).getD 0

/-- What belongs to the line, row by row. -/
def segments (cols : ℕ) (group : List Row) : List (List Cell) :=
  (List.range group.length).map fun i =>
    ((group[i]?.map Row.cells).getD []).take (lineLen cols group i)

section

variable {cols len i : ℕ} {row : Row} {group : List Row}

theorem Padded.paired_take (h : Padded cols len row) : PairedCells (row.cells.take cols) := by
  have hsplit := h.paired
  rw [← List.take_append_drop cols row.cells] at hsplit
  refine (hsplit.split_of_not_second fun c hc hsecond => ?_).1
  have hsingle := (h.vacant c (List.mem_of_mem_head? hc)).1.2
  rw [hsecond.2] at hsingle
  cases hsingle

theorem widthAt_cell {c : Cell} (hc : row.cells[i]? = some c) :
    widthAt row i = if c.wideContinuation then 0 else if c.wide then 2 else 1 := by
  unfold widthAt
  rw [if_pos (Int.natCast_nonneg i), Int.toNat_natCast, hc]

/-- A blank last column can be left out. -/
theorem paired_take_of_widthAt (h : PairedCells row.cells) (hi : i < row.cells.length)
    (hwidth : widthAt row i = 1) : PairedCells (row.cells.take i) := by
  have hc := List.getElem?_eq_getElem hi
  rw [widthAt_cell hc] at hwidth
  rcases h.trichotomy hc with ⟨-, hbefore, -⟩ | ⟨hF, -⟩ | ⟨hC, -⟩
  · exact hbefore
  · rw [hF.2.1, hF.1] at hwidth
    cases hwidth
  · rw [hC.2] at hwidth
    cases hwidth

theorem trimmedLen_le_cols (h : Padded cols len row) (hcols : cols ≤ len) :
    trimmedLen row ≤ cols := by
  have hcut := trimmedFrom_append_vacant (row.cells.take cols) h.vacant
  rw [List.take_append_drop] at hcut
  obtain ⟨content, blanks, hsplit, hlen, -, -⟩ := exists_trimmed h.paired_take
  unfold trimmedLen
  rw [hcut, hlen]
  have hlength := congrArg List.length hsplit
  rw [List.length_append, List.length_take, h.length, min_eq_left hcols] at hlength
  omega

/-- INTERNAL: What `wrapped_line_trimmed_len` gives.
SRC: reflow.rs:44-56 -/
theorem wrappedLineTrimmedLen_spec (hpos : 1 ≤ cols) (hcols : cols ≤ len)
    (hgroup : ∀ row ∈ group, Padded cols len row) (hrow : group[i]? = some row) :
    ∃ n, wrappedLineTrimmedLen group i cols = some n ∧ n ≤ cols ∧
      PairedCells (row.cells.take n) ∧ (i + 1 < group.length → cols ≤ n + 1) ∧
      (i + 1 = group.length → n = trimmedLen row) := by
  have hpadded := hgroup row (List.mem_of_getElem? hrow)
  have hi := (List.getElem?_eq_some_iff.mp hrow).1
  unfold wrappedLineTrimmedLen
  by_cases hlast : i + 1 = group.length
  · rw [if_pos hlast, hrow]
    refine ⟨trimmedLen row, rfl, trimmedLen_le_cols hpadded hcols,
      paired_take_trimmedLen hpadded.paired, fun hlt => ?_, fun _ => rfl⟩
    omega
  · have hnext : i + 1 < group.length := by omega
    rw [if_neg hlast, hrow, List.getElem?_eq_getElem hnext]
    have hcast : ((cols : ℤ) - 1) = ((cols - 1 : ℕ) : ℤ) := by omega
    rw [checkedSub_of_le hpos, hcast]
    simp only [Option.bind_eq_bind, Option.bind_some, Option.pure_def]
    split
    · rename_i hnull
      simp only [Bool.and_eq_true, decide_eq_true_eq] at hnull
      refine ⟨cols - 1, rfl, Nat.sub_le _ _, ?_, fun _ => by omega, fun heq => absurd heq hlast⟩
      apply paired_take_of_widthAt hpadded.paired _ hnull.1.2
      rw [hpadded.length]
      omega
    · exact ⟨cols, rfl, le_refl _, hpadded.paired_take, fun _ => by omega,
        fun heq => absurd heq hlast⟩

theorem wrappedLineTrimmedLen_eq (hpos : 1 ≤ cols) (hcols : cols ≤ len)
    (hgroup : ∀ row ∈ group, Padded cols len row) (hi : i < group.length) :
    wrappedLineTrimmedLen group i cols = some (lineLen cols group i) := by
  obtain ⟨n, hn, -⟩ :=
    wrappedLineTrimmedLen_spec hpos hcols hgroup (List.getElem?_eq_getElem hi)
  unfold lineLen
  rw [hn]
  rfl

theorem lineLen_le (hpos : 1 ≤ cols) (hcols : cols ≤ len)
    (hgroup : ∀ row ∈ group, Padded cols len row) (hi : i < group.length) :
    lineLen cols group i ≤ cols := by
  obtain ⟨n, hn, hle, -⟩ :=
    wrappedLineTrimmedLen_spec hpos hcols hgroup (List.getElem?_eq_getElem hi)
  unfold lineLen
  rw [hn]
  exact hle

/-- Rows before the last one are full, or full but for one column. -/
theorem le_lineLen (hpos : 1 ≤ cols) (hcols : cols ≤ len)
    (hgroup : ∀ row ∈ group, Padded cols len row) (hi : i + 1 < group.length) :
    cols ≤ lineLen cols group i + 1 := by
  obtain ⟨n, hn, -, -, hfull, -⟩ :=
    wrappedLineTrimmedLen_spec hpos hcols hgroup (List.getElem?_eq_getElem (Nat.lt_of_succ_lt hi))
  unfold lineLen
  rw [hn]
  exact hfull hi

theorem lineLen_last (hpos : 1 ≤ cols) (hcols : cols ≤ len)
    (hgroup : ∀ row ∈ group, Padded cols len row) (hrow : group[i]? = some row)
    (hlast : i + 1 = group.length) : lineLen cols group i = trimmedLen row := by
  obtain ⟨n, hn, -, -, -, htrimmed⟩ := wrappedLineTrimmedLen_spec hpos hcols hgroup hrow
  unfold lineLen
  rw [hn]
  exact htrimmed hlast

theorem length_segments : (segments cols group).length = group.length := by
  unfold segments
  rw [List.length_map, List.length_range]

theorem segments_getElem? (hrow : group[i]? = some row) :
    (segments cols group)[i]? = some (row.cells.take (lineLen cols group i)) := by
  have hi := (List.getElem?_eq_some_iff.mp hrow).1
  unfold segments
  rw [List.getElem?_map, List.getElem?_range hi, Option.map_some, hrow]
  rfl

theorem paired_segments (hpos : 1 ≤ cols) (hcols : cols ≤ len)
    (hgroup : ∀ row ∈ group, Padded cols len row) :
    ∀ seg ∈ segments cols group, PairedCells seg := by
  intro seg hseg
  obtain ⟨i, hi⟩ := List.getElem?_of_mem hseg
  have hlt := (List.getElem?_eq_some_iff.mp hi).1
  rw [length_segments] at hlt
  have hrow := List.getElem?_eq_getElem hlt
  rw [segments_getElem? hrow, Option.some_inj] at hi
  obtain ⟨n, hn, -, hpaired, -⟩ := wrappedLineTrimmedLen_spec hpos hcols hgroup hrow
  rw [← hi]
  unfold lineLen
  rw [hn]
  exact hpaired

/-- What of row `i` belongs to the line, from a column on. -/
theorem drop_segments (hrow : group[i]? = some row) {j : ℕ}
    (hlen : lineLen cols group i ≤ row.cells.length) (hj : j ≤ lineLen cols group i) :
    ((segments cols group).drop i).flatten.drop j =
      (row.cells.take (lineLen cols group i)).drop j ++
        ((segments cols group).drop (i + 1)).flatten := by
  have hseg : (segments cols group)[i]? = some (row.cells.take (lineLen cols group i)) :=
    segments_getElem? hrow
  have hsplit : (segments cols group).drop i =
      row.cells.take (lineLen cols group i) :: (segments cols group).drop (i + 1) :=
    List.drop_eq_getElem?_toList_append.trans (by rw [hseg]; rfl)
  rw [hsplit, List.flatten_cons, List.drop_append_of_le_length]
  rw [List.length_take, min_eq_left hlen]
  exact hj

end

end Tymux.Analysis.Vt
