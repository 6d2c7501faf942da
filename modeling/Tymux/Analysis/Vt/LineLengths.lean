import Tymux.Analysis.Vt.Widening

/-!
# Where a line breaks

`new_line_lengths` walks over the rows of a group a whole new row at a time. It goes past at most
one row of the group in a step, since the rows are wider than the new width, and one column less
where it would stop inside of a wide character. What it has passed is always the beginning of the
line of the group (`restFrom`), so the lengths cut that line into pieces (`Sliced`). All of this
needs of the rows only that their flags are paired, not that a wide cell holds a character.
-/

set_option autoImplicit false

namespace Tymux.Analysis.Vt

open Tymux.Lib Tymux.Model Tymux.Model.Vt

/-! ## Rows with paired flags -/

/-- The first half of a wide character, whether or not it holds the character. -/
def Half (c : Cell) : Prop := c.wide = true ∧ c.wideContinuation = false

/-- A wide cell is followed by its continuation, and a continuation follows a wide cell. -/
abbrev PairedFlags (cells : List Cell) : Prop := Paired Single Half Second cells

/-- A row of this width with paired flags. -/
structure Flagged (cols : ℕ) (row : Row) : Prop where
  length : row.cells.length = cols
  paired : PairedFlags row.cells

theorem First.half {c : Cell} (h : First c) : Half c := ⟨h.1, h.2.1⟩

theorem flags_of_paired {cells : List Cell} (h : PairedCells cells) : PairedFlags cells := by
  have hmap : PairedFlags (cells.map id) :=
    h.map (fun _ hS => hS) (fun _ hF => hF.half) (fun _ hC => hC)
  rw [List.map_id] at hmap
  exact hmap

theorem Padded.flagged {cols : ℕ} {row : Row} (h : Padded cols cols row) : Flagged cols row :=
  ⟨h.length, flags_of_paired h.paired⟩

/-- INTERNAL: The content of a row is not cut off inside of a wide character. -/
theorem trimmedFrom_flags {cells : List Cell} (h : PairedFlags cells) :
    trimmedFrom cells.reverse ≤ cells.length ∧
      PairedFlags (cells.take (trimmedFrom cells.reverse)) := by
  induction hn : cells.length using Nat.strong_induction_on generalizing cells with
  | _ n ih =>
    rcases List.eq_nil_or_concat cells with rfl | ⟨before, c, hcells⟩
    · exact ⟨Nat.zero_le _, .nil⟩
    rw [List.concat_eq_append] at hcells
    subst hcells
    rw [List.length_append, List.length_singleton] at hn
    rcases h.split with ⟨hbefore, hlast⟩ | ⟨start, a, b, after, hstart, hlast, hF, hC, hpaired, -⟩
    · have hS : Single c := by
        cases hlast with
        | single hS _ => exact hS
      rw [trimmedFrom_concat, hS.2, hS.1]
      cases hcontents : c.hasContents with
      | true =>
          refine ⟨?_, ?_⟩
          · simp [← hn]
          · rw [List.take_of_length_le (by simp)]
            exact h
      | false =>
          obtain ⟨hle, htake⟩ := ih before.length (by omega) hbefore rfl
          refine ⟨by simpa using hle.trans (by omega), ?_⟩
          rw [Bool.false_and, if_neg Bool.false_ne_true, List.take_append_of_le_length hle]
          exact htake
    · -- the row ends with a wide character
      obtain ⟨rfl, rfl⟩ := List.cons_eq_cons.mp hlast
      subst hstart
      rw [List.length_append, List.length_singleton] at hn
      rw [trimmedFrom_concat, hC.2, Bool.not_true, Bool.and_false, if_neg Bool.false_ne_true,
        trimmedFrom_concat, hF.1, hF.2]
      cases hcontents : a.hasContents with
      | true =>
          refine ⟨?_, ?_⟩
          · simp [← hn]
          · rw [List.take_of_length_le (by simp)]
            exact h
      | false =>
          obtain ⟨hle, htake⟩ := ih start.length (by omega) hpaired rfl
          refine ⟨by simpa using hle.trans (by omega), ?_⟩
          rw [Bool.false_and, if_neg Bool.false_ne_true, List.append_assoc,
            List.take_append_of_le_length hle]
          exact htake

/-- A column of width one can be left out. -/
theorem flags_take_of_widthAt {row : Row} {i : ℕ} (h : PairedFlags row.cells)
    (hi : i < row.cells.length) (hwidth : widthAt row i = 1) : PairedFlags (row.cells.take i) := by
  have hc := List.getElem?_eq_getElem hi
  rw [widthAt_cell hc] at hwidth
  rcases h.trichotomy hc with ⟨-, hbefore, -⟩ | ⟨hF, -⟩ | ⟨hC, -⟩
  · exact hbefore
  · rw [hF.2, hF.1] at hwidth
    cases hwidth
  · rw [hC.2] at hwidth
    cases hwidth

/-- The last cell of a row with paired flags is no first half. -/
theorem not_half_getLast {cells : List Cell} (h : PairedFlags cells) :
    ∀ c ∈ cells.getLast?, ¬ Half c := by
  intro c hc hF
  rw [Option.mem_def, List.getLast?_eq_getElem?] at hc
  rcases h.trichotomy hc with ⟨hS, -⟩ | ⟨-, b, hb, -⟩ | ⟨hC, -⟩
  · cases hS.1.symm.trans hF.1
  · have hlt := (List.getElem?_eq_some_iff.mp hb).1
    omega
  · cases hC.1.symm.trans hF.1

section

variable {oldCols newCols : ℕ} {group : List Row}

/-- INTERNAL: What `wrapped_line_trimmed_len` gives.
SRC: reflow.rs:44-56 -/
theorem wrappedLineTrimmedLen_flags (hpos : 1 ≤ oldCols) (hgroup : ∀ row ∈ group, Flagged oldCols row)
    {i : ℕ} {row : Row} (hrow : group[i]? = some row) :
    ∃ n, wrappedLineTrimmedLen group i oldCols = some n ∧ n ≤ oldCols ∧
      PairedFlags (row.cells.take n) ∧ (i + 1 < group.length → oldCols ≤ n + 1) := by
  have hflagged := hgroup row (List.mem_of_getElem? hrow)
  have hi := (List.getElem?_eq_some_iff.mp hrow).1
  unfold wrappedLineTrimmedLen
  by_cases hlast : i + 1 = group.length
  · rw [if_pos hlast, hrow]
    obtain ⟨hle, htake⟩ := trimmedFrom_flags hflagged.paired
    rw [hflagged.length] at hle
    exact ⟨trimmedLen row, rfl, hle, htake, fun hlt => by omega⟩
  · have hnext : i + 1 < group.length := by omega
    rw [if_neg hlast, hrow, List.getElem?_eq_getElem hnext]
    have hcast : ((oldCols : ℤ) - 1) = ((oldCols - 1 : ℕ) : ℤ) := by omega
    rw [checkedSub_of_le hpos, hcast]
    simp only [Option.bind_eq_bind, Option.bind_some, Option.pure_def]
    split
    · rename_i hnull
      simp only [Bool.and_eq_true, decide_eq_true_eq] at hnull
      refine ⟨oldCols - 1, rfl, Nat.sub_le _ _, ?_, fun _ => by omega⟩
      apply flags_take_of_widthAt hflagged.paired _ hnull.1.2
      rw [hflagged.length]
      omega
    · refine ⟨oldCols, rfl, le_refl _, ?_, fun _ => by omega⟩
      rw [List.take_of_length_le hflagged.length.le]
      exact hflagged.paired

/-- Every row has the width, and belongs to the line but for one column at most; the last one may
end before. -/
structure Ruled (cols : ℕ) (group : List Row) : Prop where
  length : ∀ row ∈ group, row.cells.length = cols
  eq : ∀ i, i < group.length → wrappedLineTrimmedLen group i cols = some (lineLen cols group i)
  le : ∀ i, i < group.length → lineLen cols group i ≤ cols
  full : ∀ i, i + 1 < group.length → cols ≤ lineLen cols group i + 1

theorem lineLen_of_eq {i n : ℕ} (h : wrappedLineTrimmedLen group i oldCols = some n) :
    lineLen oldCols group i = n := by
  unfold lineLen
  rw [h]
  rfl

theorem ruled_of_flagged (hpos : 1 ≤ oldCols) (hgroup : ∀ row ∈ group, Flagged oldCols row) :
    Ruled oldCols group := by
  have hspec := fun i (hi : i < group.length) =>
    wrappedLineTrimmedLen_flags hpos hgroup (List.getElem?_eq_getElem hi)
  refine ⟨fun row hrow => (hgroup row hrow).length, fun i hi => ?_, fun i hi => ?_, fun i hi => ?_⟩
  · obtain ⟨n, hn, -⟩ := hspec i hi
    rw [lineLen_of_eq hn, hn]
  · obtain ⟨n, hn, hle, -⟩ := hspec i hi
    rw [lineLen_of_eq hn]
    exact hle
  · obtain ⟨n, hn, -, -, hfull⟩ := hspec i (Nat.lt_of_succ_lt hi)
    rw [lineLen_of_eq hn]
    exact hfull hi

theorem ruled_of_padded (hpos : 1 ≤ oldCols) (hgroup : ∀ row ∈ group, Padded oldCols oldCols row) :
    Ruled oldCols group :=
  ruled_of_flagged hpos fun row hrow => (hgroup row hrow).flagged

theorem flags_segments (hpos : 1 ≤ oldCols) (hgroup : ∀ row ∈ group, Flagged oldCols row) :
    ∀ seg ∈ segments oldCols group, PairedFlags seg := by
  intro seg hseg
  obtain ⟨i, hi⟩ := List.getElem?_of_mem hseg
  have hlt := (List.getElem?_eq_some_iff.mp hi).1
  rw [length_segments] at hlt
  have hrow := List.getElem?_eq_getElem hlt
  rw [segments_getElem? hrow, Option.some_inj] at hi
  obtain ⟨n, hn, -, hpaired, -⟩ := wrappedLineTrimmedLen_flags hpos hgroup hrow
  rw [← hi, lineLen_of_eq hn]
  exact hpaired

/-! ## Walking over the rows -/

theorem length_segment (h : Ruled oldCols group)
    {i : ℕ} {row : Row} (hrow : group[i]? = some row) :
    (row.cells.take (lineLen oldCols group i)).length = lineLen oldCols group i := by
  have hlen := h.length row (List.mem_of_getElem? hrow)
  have hline := h.le _ (List.getElem?_eq_some_iff.mp hrow).1
  rw [List.length_take, hlen, min_eq_left hline]

/-- The rest of the line from a column of row `i` on, in two parts. -/
theorem restFrom_split (h : Ruled oldCols group)
    {i col : ℕ} {row : Row} (hrow : group[i]? = some row) (hcol : col ≤ lineLen oldCols group i) :
    restFrom oldCols group i col =
      (row.cells.take (lineLen oldCols group i)).drop col ++ restFrom oldCols group (i + 1) 0 := by
  have hlen := h.length row (List.mem_of_getElem? hrow)
  have hline := h.le _ (List.getElem?_eq_some_iff.mp hrow).1
  unfold restFrom
  rw [drop_segments hrow (by rw [hlen]; exact hline) hcol, List.drop_zero]

variable (oldCols group) in
theorem restFrom_drop (i col n : ℕ) :
    (restFrom oldCols group i col).drop n = restFrom oldCols group i (col + n) := by
  unfold restFrom
  rw [List.drop_drop]

/-- Behind the end of a row the rest of the line is that of the next row. -/
theorem restFrom_over (h : Ruled oldCols group)
    {i col n : ℕ} (hi : i < group.length) (hcol : col ≤ lineLen oldCols group i)
    (hover : lineLen oldCols group i ≤ col + n) :
    (restFrom oldCols group i col).drop n =
      restFrom oldCols group (i + 1) (col + n - lineLen oldCols group i) := by
  have hrow := List.getElem?_eq_getElem hi
  have hseg := length_segment h hrow
  rw [restFrom_split h hrow hcol, List.drop_append, List.length_drop, hseg,
    List.drop_eq_nil_of_le (by rw [List.length_drop, hseg]; omega), List.nil_append, restFrom_drop]
  congr 1
  omega

/-- The cell before a column of row `i` is the first of the rest from there on. -/
theorem restFrom_getElem? (h : Ruled oldCols group)
    {i col : ℕ} {row : Row} (hrow : group[i]? = some row) (hcol : col < lineLen oldCols group i) :
    (restFrom oldCols group i col)[0]? = row.cells[col]? := by
  have hseg := length_segment h hrow
  rw [restFrom_split h hrow hcol.le,
    List.getElem?_append_left (by rw [List.length_drop, hseg]; omega), List.getElem?_drop,
    Nat.add_zero, List.getElem?_take_of_lt hcol]

/-- The place `newCols` cells further on. -/
def advanceTo (newCols oldTrimmed srcCol srcLine : ℕ) : ℕ × ℕ :=
  if oldTrimmed < srcCol + newCols then (srcCol + newCols - oldTrimmed, srcLine + 1)
  else (srcCol + newCols, srcLine)

theorem length_restFrom_last (h : Ruled oldCols group) {i : ℕ} (hi : i < group.length)
    (hlast : i + 1 = group.length) :
    (restFrom oldCols group i 0).length = lineLen oldCols group i := by
  have hrow := List.getElem?_eq_getElem hi
  have hend : restFrom oldCols group (i + 1) 0 = [] := by
    unfold restFrom
    rw [hlast, List.drop_eq_nil_of_le length_segments.le, List.flatten_nil, List.drop_nil]
  rw [restFrom_split h hrow (Nat.zero_le _), hend, List.append_nil, List.drop_zero,
    length_segment h hrow]

theorem advanceTo_spec (hpos : 1 ≤ newCols) (hlt : newCols < oldCols)
    (h : Ruled oldCols group) {i col : ℕ} (hi : i < group.length)
    (hcol : col ≤ lineLen oldCols group i)
    (hlen : newCols ≤ (restFrom oldCols group i col).length) :
    let r := advanceTo newCols (lineLen oldCols group i) col i
    r.2 < group.length ∧ 1 ≤ r.1 ∧ r.1 ≤ lineLen oldCols group r.2 ∧
      restFrom oldCols group r.2 r.1 = (restFrom oldCols group i col).drop newCols ∧
      restFrom oldCols group r.2 (r.1 - 1) = (restFrom oldCols group i col).drop (newCols - 1) := by
  have hcols : 1 ≤ oldCols := by omega
  unfold advanceTo
  by_cases hover : lineLen oldCols group i < col + newCols
  · rw [if_pos hover]
    dsimp only
    have hdrop := restFrom_over h hi hcol hover.le
    have hdrop' : (restFrom oldCols group i col).drop (newCols - 1) =
        restFrom oldCols group (i + 1) (col + (newCols - 1) - lineLen oldCols group i) :=
      restFrom_over h hi hcol (by omega)
    have hnext : i + 1 < group.length := by
      by_contra hge
      have hall := length_restFrom_last h hi (by omega)
      have hrest := congrArg List.length (restFrom_drop oldCols group i 0 col)
      rw [List.length_drop, hall, Nat.zero_add] at hrest
      omega
    refine ⟨hnext, by omega, ?_, hdrop.symm, ?_⟩
    · rcases Nat.lt_or_ge (i + 2) group.length with hmore | hlast
      · have hfull := h.full _ hmore
        omega
      · have hall := length_restFrom_last h hnext (by omega)
        have hrest := congrArg List.length
          (restFrom_over h hi hcol (n := lineLen oldCols group i - col) (by omega))
        have hzero : col + (lineLen oldCols group i - col) - lineLen oldCols group i = 0 := by omega
        rw [List.length_drop, hzero, hall] at hrest
        omega
    · rw [hdrop']
      congr 1
      omega
  · rw [if_neg hover]
    dsimp only
    refine ⟨hi, by omega, by omega, (restFrom_drop oldCols group i col newCols).symm, ?_⟩
    rw [restFrom_drop]
    congr 1
    omega

/-- Whether a row would cut a wide character is told by its last cell. -/
theorem endsWithWide_iff (h : Ruled oldCols group)
    {i col : ℕ} (hi : i < group.length) (hcol : 1 ≤ col) (hle : col ≤ lineLen oldCols group i) :
    (group[i]?.any fun r => widthAt r ((col : ℤ) - 1) = 2) = true ↔
      ∃ c, (restFrom oldCols group i (col - 1))[0]? = some c ∧ Half c := by
  have hrow := List.getElem?_eq_getElem hi
  have hline := h.le _ hi
  have hlt : col - 1 < group[i].cells.length := by
    rw [h.length _ (List.mem_of_getElem? hrow)]
    omega
  have hcell := List.getElem?_eq_getElem hlt
  have hcast : ((col : ℤ) - 1) = ((col - 1 : ℕ) : ℤ) := by omega
  rw [restFrom_getElem? h hrow (by omega), hrow, hcell, Option.any_some, hcast,
    widthAt_cell hcell, decide_eq_true_iff]
  constructor
  · intro hwide
    refine ⟨_, rfl, ?_⟩
    split at hwide
    · cases hwide
    · rename_i hcont
      split at hwide
      · rename_i hw
        exact ⟨hw, Bool.eq_false_iff.mpr hcont⟩
      · cases hwide
  · rintro ⟨c, hc, hw, hcont⟩
    cases hc
    rw [hcont, hw]
    rfl

/-! ## The pieces -/

/-- The line cut into pieces: each fills a row, or all of it but one column, and the cut behind it is
not in a wide character. Only the last one may be shorter. -/
inductive Sliced (newCols : ℕ) : List Cell → List (List Cell) → Prop
  | nil : Sliced newCols [] []
  | last {piece : List Cell} (hpos : 0 < piece.length) (hlen : piece.length < newCols) :
    Sliced newCols piece [piece]
  | cons {piece rest : List Cell} {pieces : List (List Cell)} (hpos : 0 < piece.length)
      (hfull : newCols ≤ piece.length + 1) (hlen : piece.length ≤ newCols)
      (hwhole : ∀ c ∈ piece.getLast?, ¬ Half c) (hrest : Sliced newCols rest pieces) :
    Sliced newCols (piece ++ rest) (piece :: pieces)

variable {text : List Cell} {pieces : List (List Cell)}

theorem Sliced.flatten (h : Sliced newCols text pieces) : pieces.flatten = text := by
  induction h with
  | nil => rfl
  | last => rw [List.flatten_singleton]
  | cons _ _ _ _ _ ih => rw [List.flatten_cons, ih]

/-- Every length but the last is that of a row, or one less. -/
theorem Sliced.dropLast (h : Sliced newCols text pieces) :
    ∀ n ∈ (pieces.map List.length).dropLast, n = newCols ∨ n = newCols - 1 := by
  induction h with
  | nil => exact fun n hn => absurd hn List.not_mem_nil
  | last => exact fun n hn => absurd hn List.not_mem_nil
  | @cons piece rest pieces hpos hfull hlen hwhole hrest ih =>
      intro n hn
      cases pieces with
      | nil => exact absurd hn List.not_mem_nil
      | cons next pieces =>
          rw [List.map_cons, List.map_cons, List.dropLast_cons_cons] at hn
          obtain rfl | hn := List.mem_cons.mp hn
          · omega
          · exact ih n hn

theorem Sliced.getLast (h : Sliced newCols text pieces) :
    ∀ n ∈ (pieces.map List.length).getLast?, 1 ≤ n ∧ n ≤ newCols := by
  induction h with
  | nil => exact fun n hn => absurd hn (Option.not_mem_none n)
  | last hpos hlen =>
      intro n hn
      cases hn
      exact ⟨hpos, hlen.le⟩
  | @cons piece rest pieces hpos hfull hlen hwhole hrest ih =>
      intro n hn
      cases pieces with
      | nil =>
          cases hn
          exact ⟨hpos, hlen⟩
      | cons next pieces =>
          rw [List.map_cons, List.map_cons, List.getLast?_cons_cons] at hn
          exact ih n hn

/-- INTERNAL: No cut inside of the line is behind a first half. -/
theorem Sliced.cut (h : Sliced newCols text pieces) {n : ℕ} {c : Cell} (hn : 0 < n)
    (hin : ((pieces.map List.length).take n).sum < text.length)
    (hc : text[((pieces.map List.length).take n).sum - 1]? = some c) : ¬ Half c := by
  induction h generalizing n with
  | nil => cases hin
  | @last piece hpos hlen =>
      rw [List.map_singleton, List.take_of_length_le hn, List.sum_singleton] at hin
      omega
  | @cons piece rest pieces hpos hfull hlen hwhole hrest ih =>
      obtain ⟨n, rfl⟩ := Nat.exists_eq_add_one_of_ne_zero hn.ne'
      rw [List.map_cons, List.take_succ_cons, List.sum_cons] at hin hc
      rw [List.length_append] at hin
      rcases Nat.eq_zero_or_pos ((pieces.map List.length).take n).sum with hzero | hmore
      · -- the cut is the one behind the first piece
        rw [hzero, Nat.add_zero, List.getElem?_append_left (by omega)] at hc
        refine hwhole c ?_
        rw [List.getLast?_eq_getElem?]
        exact hc
      · have hpast : piece.length + ((pieces.map List.length).take n).sum - 1 - piece.length =
            ((pieces.map List.length).take n).sum - 1 := by omega
        rw [List.getElem?_append_right (by omega), hpast] at hc
        refine ih ?_ (by omega) hc
        rcases Nat.eq_zero_or_pos n with rfl | hpos'
        · simp at hmore
        · exact hpos'

/-- INTERNAL: The lengths of the lines are those of the pieces.
SRC: reflow.rs:96-124 -/
theorem lineLengths_spec (hnew : 2 ≤ newCols) (hlt : newCols < oldCols)
    (hruled : Ruled oldCols group) {needed fuel : ℕ} :
    ∀ srcCol srcLine available : ℕ, srcLine ≤ group.length →
      (srcLine < group.length → srcCol ≤ lineLen oldCols group srcLine) →
      available + (restFrom oldCols group srcLine srcCol).length = needed →
      (restFrom oldCols group srcLine srcCol).length < fuel →
      PairedFlags (restFrom oldCols group srcLine srcCol) →
      ∃ pieces, lineLengths group oldCols newCols needed fuel srcCol srcLine available =
          some (pieces.map List.length) ∧
        Sliced newCols (restFrom oldCols group srcLine srcCol) pieces := by
  induction fuel with
  | zero =>
      intro srcCol srcLine available _ _ _ hfuel
      omega
  | succ fuel ih =>
      intro srcCol srcLine available hline hcol hneeded hfuel hpaired
      generalize hrest : restFrom oldCols group srcLine srcCol = rest at *
      unfold lineLengths
      by_cases hmore : available < needed
      · rw [if_pos hmore]
        by_cases hshort : needed - available < newCols
        · rw [if_pos hshort]
          refine ⟨[rest], ?_, .last (by omega) (by omega)⟩
          rw [List.map_singleton]
          congr 2
          omega
        · have hi : srcLine < group.length := by
            rcases Nat.eq_or_lt_of_le hline with heq | hi
            · have hnil : rest = [] := by
                rw [← hrest]
                unfold restFrom
                rw [heq, List.drop_eq_nil_of_le length_segments.le, List.flatten_nil, List.drop_nil]
              rw [hnil, List.length_nil] at hneeded
              omega
            · exact hi
          have hlen : newCols ≤ rest.length := by omega
          have hspec := advanceTo_spec (by omega) hlt hruled hi (hcol hi) (by rw [hrest]; exact hlen)
          rw [hrest] at hspec
          rw [if_neg hshort, hruled.eq _ hi]
          simp only [Option.bind_eq_bind, Option.bind_some]
          obtain ⟨hi', hcol1, hcol', hdrop, hdrop'⟩ := hspec
          have hadvance : (if lineLen oldCols group srcLine < srcCol + newCols then
              (srcCol + newCols - lineLen oldCols group srcLine, srcLine + 1)
              else (srcCol + newCols, srcLine)) =
              advanceTo newCols (lineLen oldCols group srcLine) srcCol srcLine := rfl
          rw [hadvance]
          clear hadvance
          generalize advanceTo newCols (lineLen oldCols group srcLine) srcCol srcLine = r at *
          have hwide := endsWithWide_iff hruled hi' hcol1 hcol'
          rw [hdrop', List.getElem?_drop, Nat.add_zero] at hwide
          cases hends : (group[r.2]?.any fun row => widthAt row ((r.1 : ℤ) - 1) = 2) with
          | true =>
              obtain ⟨c, hc, hhalf⟩ := hwide.mp hends
              simp only [if_true]
              rw [checkedSub_of_le hcol1, Option.bind_some, checkedSub_of_le (by omega),
                Option.bind_some]
              have hsplit := hpaired
              rw [← List.take_append_drop (newCols - 1) rest] at hsplit
              obtain ⟨hpiece, hleft⟩ := hsplit.split_of_not_second (by
                intro a ha hsecond
                rw [List.head?_drop, hc, Option.mem_some_iff] at ha
                rw [← ha] at hsecond
                cases hsecond.1.symm.trans hhalf.1)
              have hpieceLen : (rest.take (newCols - 1)).length = newCols - 1 := by
                rw [List.length_take]
                omega
              obtain ⟨pieces, hlens, hsliced⟩ := ih (r.1 - 1) r.2
                (available + (newCols - 1)) hi'.le
                (fun _ => by omega) (by rw [hdrop', List.length_drop]; omega)
                (by rw [hdrop', List.length_drop]; omega) (by rw [hdrop']; exact hleft)
              refine ⟨rest.take (newCols - 1) :: pieces, ?_, ?_⟩
              · rw [hlens, List.map_cons, hpieceLen]
                rfl
              · rw [hdrop'] at hsliced
                conv => arg 2; rw [← List.take_append_drop (newCols - 1) rest]
                exact .cons (by omega) (by omega) (by omega) (not_half_getLast hpiece) hsliced
          | false =>
              simp only [Bool.false_eq_true, if_false, Option.bind_some]
              have hwhole : ∀ a ∈ (rest.take newCols).getLast?, ¬ Half a := by
                intro a ha hhalf
                rw [List.getLast?_take, if_neg (by omega), Option.mem_def] at ha
                have hlast : rest[newCols - 1]? = some a := by
                  rw [List.getElem?_eq_getElem (by omega)] at ha ⊢
                  exact ha
                rw [hwide.mpr ⟨a, hlast, hhalf⟩] at hends
                cases hends
              have hsplit := hpaired
              rw [← List.take_append_drop newCols rest] at hsplit
              obtain ⟨-, hleft⟩ := hsplit.split_of_not_first hwhole
              have hpieceLen : (rest.take newCols).length = newCols := by
                rw [List.length_take]
                omega
              obtain ⟨pieces, hlens, hsliced⟩ := ih r.1 r.2
                (available + newCols) hi'.le
                (fun _ => hcol') (by rw [hdrop, List.length_drop]; omega)
                (by rw [hdrop, List.length_drop]; omega) (by rw [hdrop]; exact hleft)
              refine ⟨rest.take newCols :: pieces, ?_, ?_⟩
              · rw [hlens, List.map_cons, hpieceLen]
                rfl
              · rw [hdrop] at hsliced
                conv => arg 2; rw [← List.take_append_drop newCols rest]
                exact .cons (by omega) (by omega) (by omega) hwhole hsliced
      · have hnil : rest = [] := List.eq_nil_of_length_eq_zero (by omega)
        rw [if_neg hmore, hnil]
        exact ⟨[], rfl, .nil⟩

theorem mapM_wrappedLineTrimmedLen (hruled : Ruled oldCols group) :
    (List.range group.length).mapM (fun i => wrappedLineTrimmedLen group i oldCols) =
      some ((segments oldCols group).map List.length) := by
  have hmapM : ∀ l : List ℕ, (∀ i ∈ l, i < group.length) →
      l.mapM (fun i => wrappedLineTrimmedLen group i oldCols) = some (l.map (lineLen oldCols group)) := by
    intro l
    induction l with
    | nil => exact fun _ => rfl
    | cons i l ih =>
        intro hl
        rw [List.forall_mem_cons] at hl
        rw [List.mapM_cons, hruled.eq i hl.1, ih hl.2]
        rfl
  rw [hmapM _ fun i hi => List.mem_range.mp hi]
  unfold segments
  rw [List.map_map]
  congr 1
  apply List.map_congr_left
  intro i hi
  have hrow := List.getElem?_eq_getElem (List.mem_range.mp hi)
  rw [Function.comp_apply, hrow]
  exact (length_segment hruled hrow).symm

/-- SRC: reflow.rs:91-125 -/
theorem newLineLengths_sliced (hnew : 2 ≤ newCols) (hlt : newCols < oldCols)
    (hgroup : ∀ row ∈ group, Flagged oldCols row) :
    ∃ pieces, newLineLengths group oldCols newCols = some (pieces.map List.length) ∧
      Sliced newCols (segments oldCols group).flatten pieces := by
  have hruled := ruled_of_flagged (by omega) hgroup
  have hwhole : restFrom oldCols group 0 0 = (segments oldCols group).flatten := rfl
  unfold newLineLengths
  rw [mapM_wrappedLineTrimmedLen hruled]
  simp only [Option.bind_eq_bind, Option.bind_some]
  rw [← List.length_flatten, ← hwhole]
  exact lineLengths_spec hnew hlt hruled 0 0 0 (Nat.zero_le _) (fun _ => Nat.zero_le _)
    (Nat.zero_add _) (Nat.lt_succ_self _) (Paired.flatten (flags_segments (by omega) hgroup))

/-- INTERNAL: **Where a line breaks.** For rows of the old width with paired flags, the loop ends
without reading past the group, and the lengths that it returns cut the line into rows of the new
width, none of them inside of a wide character.
SRC: reflow.rs:44-56, 91-125 -/
theorem new_line_lengths_cut (hnew : 2 ≤ newCols) (hlt : newCols < oldCols)
    (hgroup : ∀ row ∈ group, Flagged oldCols row) :
    ∃ lens dest,
      (List.range group.length).mapM (fun i => wrappedLineTrimmedLen group i oldCols) = some lens ∧
      newLineLengths group oldCols newCols = some dest ∧
      dest.sum = lens.sum ∧
      (∀ n ∈ dest.dropLast, n = newCols ∨ n = newCols - 1) ∧
      (∀ n ∈ dest.getLast?, 1 ≤ n ∧ n ≤ newCols) ∧
      ∀ n c d, 0 < n →
        (List.zipWith (fun row len => row.cells.take len) group lens).flatten[(dest.take n).sum - 1]? =
          some c →
        (List.zipWith (fun row len => row.cells.take len) group lens).flatten[(dest.take n).sum]? =
          some d → ¬ (Half c ∧ Second d) := by
  obtain ⟨pieces, hdest, hsliced⟩ := newLineLengths_sliced hnew hlt hgroup
  have hruled := ruled_of_flagged (by omega) hgroup
  have hline : List.zipWith (fun (row : Row) len => row.cells.take len) group
      ((segments oldCols group).map List.length) = segments oldCols group := by
    apply List.ext_getElem?
    intro i
    rw [List.getElem?_zipWith, List.getElem?_map]
    cases hrow : group[i]? with
    | none =>
        rw [List.getElem?_eq_none (length_segments.le.trans (List.getElem?_eq_none_iff.mp hrow))]
    | some row =>
        rw [segments_getElem? hrow, Option.map_some, length_segment hruled hrow]
  refine ⟨_, _, mapM_wrappedLineTrimmedLen hruled, hdest, ?_, hsliced.dropLast, hsliced.getLast, ?_⟩
  · rw [← List.length_flatten, ← List.length_flatten, hsliced.flatten]
  · intro n c d hn hc hd
    rw [hline] at hc hd
    exact fun hhalves => hsliced.cut hn (List.getElem?_eq_some_iff.mp hd).1 hc hhalves.1

end

/-- Three columns narrowed to two: the wide character in the second row does not fit behind the last
letter of the first. -/
theorem new_line_lengths_cut_wide :
    let group : List Row := [⟨[{ contents := ['a'] }, { contents := ['b'] }, { contents := ['c'] }], true⟩,
      ⟨[{ contents := ['世'], wide := true }, { wideContinuation := true }, {}], false⟩]
    newLineLengths group 3 2 = some [2, 1, 2] ∧ ∃ dest, newLineLengths group 3 2 = some dest ∧
      ∀ n ∈ dest.getLast?, 1 ≤ n ∧ n ≤ 2 := by
  intro group
  have hgroup : ∀ row ∈ group, Flagged 3 row := by
    have hfirst : Flagged 3
        ⟨[{ contents := ['a'] }, { contents := ['b'] }, { contents := ['c'] }], true⟩ :=
      ⟨rfl, .single ⟨rfl, rfl⟩ (.single ⟨rfl, rfl⟩ (.single ⟨rfl, rfl⟩ .nil))⟩
    have hsecond : Flagged 3
        ⟨[{ contents := ['世'], wide := true }, { wideContinuation := true }, {}], false⟩ :=
      ⟨rfl, .pair ⟨rfl, rfl⟩ ⟨rfl, rfl⟩ (.single ⟨rfl, rfl⟩ .nil)⟩
    rw [List.forall_mem_cons, List.forall_mem_singleton]
    exact ⟨hfirst, hsecond⟩
  obtain ⟨lens, dest, -, hdest, -, -, hlast, -⟩ :=
    new_line_lengths_cut (le_refl 2) (show 2 < 3 by decide) hgroup
  exact ⟨by decide +kernel, dest, hdest, hlast⟩

end Tymux.Analysis.Vt
