import Tymux.Analysis.Vt.Trimming

/-!
# Rewrapping to a larger width

`reflow_larger` copies the line of a group forwards into the rows of the group itself. The place it
writes to never overtakes the place it reads from (`Behind`), so what is still to be read is as it
was, and a wide character that a row would cut is pulled down to the next row. `Moved` is the state
of this loop: rows that are done, the written front of the row that is being filled, and the rest of
the group untouched; the written front and the rest of the line are paired together.
-/

set_option autoImplicit false

namespace Tymux.Analysis.Vt

open Tymux.Lib Tymux.Model Tymux.Model.Vt

theorem getElem?_middle {α : Type} {before after : List α} {a : α} {i : ℕ}
    (h : before.length = i) : (before ++ a :: after)[i]? = some a := by
  rw [← h, List.getElem?_append_right (le_refl _), Nat.sub_self, List.getElem?_cons_zero]

section

variable {oldCols newCols : ℕ} {group : List Row}

/-! ## The loop -/

/-- The rest of the line, from a row and a column of it on. -/
def restFrom (cols : ℕ) (group : List Row) (idx col : ℕ) : List Cell :=
  ((segments cols group).drop idx).flatten.drop col

/-- Writing is behind reading, counted in rows of the old width. A row that was just begun counts
as having a cell. -/
def Behind (oldCols : ℕ) (st : Rewrap) : Prop :=
  st.destIdx * oldCols + max st.destCol 1 ≤ st.srcIdx * oldCols + st.srcCol

/-- INTERNAL: The state of the loop, over the group as it was. -/
structure Moved (oldCols newCols : ℕ) (group : List Row) (st : Rewrap) (done : List Row)
    (front : List Cell) (row start : Row) : Prop where
  group_eq : st.group = done ++ row :: group.drop (st.destIdx + 1)
  done_len : done.length = st.destIdx
  done_fit : ∀ r ∈ done, RowFits newCols r
  start_eq : group[st.destIdx]? = some start
  row_cells : row.cells = front ++ start.cells.drop st.destCol
  front_len : front.length = st.destCol
  col_lt : st.destCol < newCols
  src_le : st.srcIdx ≤ group.length
  paired : PairedCells (front ++ restFrom oldCols group st.srcIdx st.srcCol)
  behind : Behind oldCols st
  /-- A row that is read from its middle on was not written to, but for a wide character that was
  pulled down to its start. -/
  reading : st.srcCol = 0 ∨ st.srcIdx < group.length ∧
    st.srcCol < lineLen oldCols group st.srcIdx ∧ (front = [] ∨ ∃ f, First f ∧ front = [f])

variable {st : Rewrap} {done : List Row} {front : List Cell} {row start : Row}

theorem Moved.srcCol_le (h : Moved oldCols newCols group st done front row start) (hpos : 1 ≤ oldCols)
    (hle : oldCols ≤ newCols) (hgroup : ∀ row ∈ group, Padded oldCols newCols row) :
    st.srcCol ≤ oldCols := by
  rcases h.reading with hzero | ⟨hlt, hcol, -⟩
  · omega
  · exact hcol.le.trans (lineLen_le hpos hle hgroup hlt)

/-- The row that is written to is not after the one that is read. -/
theorem Moved.destIdx_le (h : Moved oldCols newCols group st done front row start)
    (hcol : st.srcCol ≤ oldCols) : st.destIdx ≤ st.srcIdx := by
  have hbehind := h.behind
  unfold Behind at hbehind
  by_contra hlt
  have hmul := Nat.mul_le_mul_right oldCols (Nat.succ_le_of_lt (Nat.lt_of_not_le hlt))
  rw [Nat.succ_mul] at hmul
  omega

/-- In one row, what is written is before what is read. -/
theorem Moved.destCol_le (h : Moved oldCols newCols group st done front row start)
    (heq : st.destIdx = st.srcIdx) : max st.destCol 1 ≤ st.srcCol := by
  have hbehind := h.behind
  unfold Behind at hbehind
  rw [heq] at hbehind
  omega

/-- What is still to be read of a row is as it was. -/
theorem Moved.source (h : Moved oldCols newCols group st done front row start)
    (hcol : st.srcCol ≤ oldCols) {src : Row} (hsrc : group[st.srcIdx]? = some src) :
    ∃ r, st.group[st.srcIdx]? = some r ∧ r.cells.drop st.srcCol = src.cells.drop st.srcCol ∧
      (st.destIdx < st.srcIdx → r = src) := by
  have hle := h.destIdx_le hcol
  rw [h.group_eq]
  rcases Nat.eq_or_lt_of_le hle with heq | hlt
  · refine ⟨row, ?_, ?_, fun hlt => absurd heq hlt.ne⟩
    · rw [← heq]
      exact getElem?_middle h.done_len
    · have hstart := h.start_eq
      rw [heq, hsrc, Option.some_inj] at hstart
      have hbefore := h.destCol_le heq
      rw [h.row_cells, hstart, List.drop_append, List.drop_drop, h.front_len]
      rw [List.drop_eq_nil_of_le (by rw [h.front_len]; omega), List.nil_append]
      congr 1
      omega
  · refine ⟨src, ?_, rfl, fun _ => rfl⟩
    rw [List.getElem?_append_right (by rw [h.done_len]; exact hle), h.done_len]
    obtain ⟨k, hk⟩ := Nat.exists_eq_add_of_lt hlt
    have hsub : st.srcIdx - st.destIdx = k + 1 := by omega
    rw [hsub, List.getElem?_cons_succ, List.getElem?_drop]
    rw [← hsrc]
    congr 1
    omega

theorem Moved.length (h : Moved oldCols newCols group st done front row start) :
    st.group.length = group.length := by
  have hlt := (List.getElem?_eq_some_iff.mp h.start_eq).1
  rw [h.group_eq, List.length_append, List.length_cons, List.length_drop, h.done_len]
  omega

/-- The row that is read is as it was, or a wide character was pulled down to its start. -/
theorem Moved.source_cells (h : Moved oldCols newCols group st done front row start)
    (hcol : st.srcCol ≤ oldCols) (hgroup : ∀ row ∈ group, Padded oldCols newCols row)
    {src r : Row} (hsrc : group[st.srcIdx]? = some src) (hr : st.group[st.srcIdx]? = some r) :
    r.cells = src.cells ∨ ∃ f c cells, First f ∧ src.cells = c :: cells ∧ r.cells = f :: cells ∧
      2 ≤ lineLen oldCols group st.srcIdx := by
  obtain ⟨r', hr', -, hsame⟩ := h.source hcol hsrc
  rw [hr, Option.some_inj] at hr'
  subst hr'
  rcases Nat.eq_or_lt_of_le (h.destIdx_le hcol) with heq | hlt
  · have hbefore := h.destCol_le heq
    have hrow : (done ++ row :: group.drop (st.destIdx + 1))[st.destIdx]? = some row :=
      getElem?_middle h.done_len
    rw [← h.group_eq, heq, hr, Option.some_inj] at hrow
    have hstart := h.start_eq
    rw [heq, hsrc, Option.some_inj] at hstart
    rcases h.reading with hzero | ⟨-, hlen, hfront⟩
    · omega
    · have hcells := h.row_cells
      rw [← hrow, ← hstart] at hcells
      rcases hfront with rfl | ⟨f, hf, rfl⟩
      · have hzero : st.destCol = 0 := h.front_len.symm
        rw [hzero] at hcells
        exact Or.inl hcells
      · have hone : st.destCol = 1 := h.front_len.symm
        have hlength := (hgroup src (List.mem_of_getElem? hsrc)).length
        have hlt := h.col_lt
        cases hsrcCells : src.cells with
        | nil =>
            rw [hsrcCells, List.length_nil] at hlength
            omega
        | cons c cells =>
            rw [hone, hsrcCells] at hcells
            exact Or.inr ⟨f, c, cells, hf, rfl, hcells, by omega⟩
  · exact Or.inl (by rw [hsame hlt])

/-- INTERNAL: The length of the part to read is not changed by what was written. -/
theorem Moved.srcTrimmed (h : Moved oldCols newCols group st done front row start)
    (hpos : 1 ≤ oldCols) (hle : oldCols ≤ newCols)
    (hgroup : ∀ row ∈ group, Padded oldCols newCols row) (hidx : st.srcIdx < group.length) :
    wrappedLineTrimmedLen st.group st.srcIdx oldCols = some (lineLen oldCols group st.srcIdx) := by
  have hcol := h.srcCol_le hpos hle hgroup
  have hsrc := List.getElem?_eq_getElem hidx
  obtain ⟨r, hr, -, -⟩ := h.source hcol hsrc
  rw [← wrappedLineTrimmedLen_eq hpos hle hgroup hidx]
  have hcells := h.source_cells hcol hgroup hsrc hr
  unfold wrappedLineTrimmedLen
  rw [h.length, hr, hsrc]
  by_cases hlast : st.srcIdx + 1 = group.length
  · rw [if_pos hlast, if_pos hlast]
    have hline := lineLen_last hpos hle hgroup hsrc hlast
    unfold trimmedLen at hline
    simp only [Option.map_some, trimmedLen, Option.some_inj]
    rcases hcells with hsame | ⟨f, c, cells, hf, hsrcCells, hrCells, htwo⟩
    · rw [hsame]
    · rw [hline, hsrcCells] at htwo
      rw [hsrcCells, hrCells]
      exact trimmedFrom_first hf htwo
  · have hnext : st.group[st.srcIdx + 1]? = group[st.srcIdx + 1]? := by
      have hdest := h.destIdx_le hcol
      rw [h.group_eq, List.getElem?_append_right (by rw [h.done_len]; omega), h.done_len]
      have hsub : st.srcIdx + 1 - st.destIdx = st.srcIdx - st.destIdx + 1 := by omega
      rw [hsub, List.getElem?_cons_succ, List.getElem?_drop]
      congr 1
      omega
    have hcell : r.cells[oldCols - 1]? = group[st.srcIdx].cells[oldCols - 1]? := by
      rcases hcells with hsame | ⟨f, c, cells, -, hsrcCells, hrCells, htwo⟩
      · rw [hsame]
      · have htwo' := htwo.trans (lineLen_le hpos hle hgroup hidx)
        obtain ⟨k, hk⟩ : ∃ k, oldCols - 1 = k + 1 := ⟨oldCols - 2, by omega⟩
        rw [hsrcCells, hrCells, hk, List.getElem?_cons_succ, List.getElem?_cons_succ]
    have hcast : ((oldCols : ℤ) - 1) = ((oldCols - 1 : ℕ) : ℤ) := by omega
    have hcontent : hasContent r (oldCols - 1) = hasContent group[st.srcIdx] (oldCols - 1) := by
      unfold hasContent
      rw [hcell]
    have hwidth : widthAt r ((oldCols : ℤ) - 1) = widthAt group[st.srcIdx] ((oldCols : ℤ) - 1) := by
      unfold widthAt
      rw [hcast, if_pos (Int.natCast_nonneg _), if_pos (Int.natCast_nonneg _), Int.toNat_natCast,
        hcell]
    rw [if_neg hlast, if_neg hlast, checkedSub_of_le hpos, hnext]
    simp only [Option.bind_eq_bind, Option.bind_some, hcontent, hwidth]

theorem set_middle {α : Type} {before after : List α} {a b : α} {i : ℕ} (h : before.length = i) :
    (before ++ a :: after).set i b = before ++ b :: after := by
  rw [← h, List.set_append_right _ _ (le_refl _), Nat.sub_self, List.set_cons_zero]

/-- INTERNAL: One copy takes the next cells of the line.
SRC: reflow.rs:58-74 -/
theorem Moved.copy (h : Moved oldCols newCols group st done front row start)
    (hpos : 1 ≤ oldCols) (hle : oldCols ≤ newCols)
    (hgroup : ∀ row ∈ group, Padded oldCols newCols row) (hidx : st.srcIdx < group.length) {n : ℕ}
    (hsrc : st.srcCol + n ≤ lineLen oldCols group st.srcIdx) (hdest : st.destCol + n ≤ newCols) :
    ∃ row' taken, copyCells st.group st.srcIdx st.srcCol st.destIdx st.destCol n =
        some (done ++ row' :: group.drop (st.destIdx + 1)) ∧
      row'.cells = front ++ taken ++ start.cells.drop (st.destCol + n) ∧ taken.length = n ∧
      restFrom oldCols group st.srcIdx st.srcCol =
        taken ++ restFrom oldCols group st.srcIdx (st.srcCol + n) := by
  have hcol := h.srcCol_le hpos hle hgroup
  have hget := List.getElem?_eq_getElem hidx
  have hpadded := hgroup _ (List.mem_of_getElem? hget)
  have hstartLen := (hgroup _ (List.mem_of_getElem? h.start_eq)).length
  have hline := lineLen_le hpos hle hgroup hidx
  obtain ⟨r, hr, hrest, -⟩ := h.source hcol hget
  have hrLen : r.cells.length = newCols := by
    rcases h.source_cells hcol hgroup hget hr with hsame | ⟨f, c, cells, -, hsrcCells, hrCells, -⟩
    · rw [hsame]
      exact hpadded.length
    · have hlength := hpadded.length
      rw [hsrcCells, List.length_cons] at hlength
      rw [hrCells, List.length_cons]
      exact hlength
  have hrowLen : row.cells.length = newCols := by
    rw [h.row_cells, List.length_append, List.length_drop, h.front_len, hstartLen]
    omega
  have hdst : st.group[st.destIdx]? = some row := by
    rw [h.group_eq]
    exact getElem?_middle h.done_len
  refine ⟨{ row with cells := front ++ (r.cells.drop st.srcCol).take n ++
      start.cells.drop (st.destCol + n) }, (r.cells.drop st.srcCol).take n, ?_, rfl, ?_, ?_⟩
  · have hlen : min (min n (newCols - st.srcCol)) (newCols - st.destCol) = n := by omega
    have hcells : row.cells.take st.destCol ++ (r.cells.drop st.srcCol).take n ++
        row.cells.drop (st.destCol + n) =
        front ++ (r.cells.drop st.srcCol).take n ++ start.cells.drop (st.destCol + n) := by
      rw [h.row_cells, ← h.front_len, List.take_left, List.drop_length_add_append, List.drop_drop,
        h.front_len]
    unfold copyCells
    rw [hr, hdst]
    simp only [Option.bind_eq_bind, Option.bind_some, Option.pure_def]
    rw [hrLen, hrowLen, if_neg (by omega), hlen, hcells, h.group_eq, set_middle h.done_len]
  · rw [List.length_take, List.length_drop, hrLen]
    omega
  · unfold restFrom
    have hlen : lineLen oldCols group st.srcIdx ≤ group[st.srcIdx].cells.length := by
      rw [hpadded.length]
      omega
    rw [drop_segments hget hlen (by omega), drop_segments hget hlen hsrc, hrest,
      ← List.append_assoc]
    congr 1
    rw [List.drop_take, List.drop_take, ← List.drop_drop]
    have hsplit := List.take_append_drop n
      ((group[st.srcIdx].cells.drop st.srcCol).take (lineLen oldCols group st.srcIdx - st.srcCol))
    rw [List.take_take, min_eq_left (by omega), List.drop_take] at hsplit
    rw [← hsplit]
    congr 2
    omega

theorem restFrom_next (hpos : 1 ≤ oldCols) (hle : oldCols ≤ newCols)
    (hgroup : ∀ row ∈ group, Padded oldCols newCols row) {i : ℕ} (hi : i < group.length) :
    restFrom oldCols group i (lineLen oldCols group i) = restFrom oldCols group (i + 1) 0 := by
  have hget := List.getElem?_eq_getElem hi
  have hpadded := hgroup _ (List.mem_of_getElem? hget)
  have hline := lineLen_le hpos hle hgroup hi
  unfold restFrom
  rw [drop_segments hget (by rw [hpadded.length]; omega) (le_refl _),
    List.drop_eq_nil_of_le (by rw [List.length_take]; omega), List.nil_append, List.drop_zero]

theorem widthAt_last {r : Row} (h : RowFits newCols r) (hpos : 1 ≤ newCols) :
    widthAt r ((newCols : ℤ) - 1) ≠ 2 := by
  have hcast : ((newCols : ℤ) - 1) = ((newCols - 1 : ℕ) : ℤ) := by omega
  have hlast : r.cells[newCols - 1]? = r.cells.getLast? := by
    rw [List.getLast?_eq_getElem?, h.1]
  have hlt : newCols - 1 < r.cells.length := by
    rw [h.1]
    omega
  have hc := List.getElem?_eq_getElem hlt
  rw [hcast, widthAt_cell hc, not_wide_getLast h.2 (hlast.symm.trans hc)]
  split <;> simp

/-- INTERNAL: The loop stands at `st`. -/
def Rewrapping (oldCols newCols : ℕ) (group : List Row) (st : Rewrap) : Prop :=
  ∃ done front row start, Moved oldCols newCols group st done front row start

/-- A row that ends with a whole character stays.
SRC: reflow.rs:181-189 -/
theorem pullDown_fits {before after : List Row} {r : Row} {destIdx srcIdx srcCol : ℕ}
    (hlen : before.length = destIdx) (h : RowFits newCols r) (hpos : 1 ≤ newCols) :
    pullDown newCols ⟨before ++ r :: after, destIdx + 1, 0, srcIdx, srcCol⟩ =
      some ⟨before ++ r :: after, destIdx + 1, 0, srcIdx, srcCol⟩ := by
  unfold pullDown
  rw [if_pos ⟨rfl, Nat.succ_ne_zero _⟩]
  simp only [Nat.add_sub_cancel]
  rw [getElem?_middle hlen]
  simp only [Option.bind_eq_bind, Option.bind_some]
  rw [if_neg (widthAt_last h hpos)]
  rfl

/-- The first half of a wide character goes from the end of a row to the start of the next.
SRC: reflow.rs:181-189 -/
theorem pullDown_cut {before after : List Row} {r next : Row} {cells : List Cell} {f : Cell}
    {destIdx srcIdx srcCol : ℕ} (hlen : before.length = destIdx) (hcells : r.cells = cells ++ [f])
    (hf : First f) (hrow : r.cells.length = newCols) (hnext : next.cells.length = newCols) :
    pullDown newCols ⟨before ++ r :: next :: after, destIdx + 1, 0, srcIdx, srcCol⟩ =
      some ⟨before ++ [{ r with cells := cells ++ [Cell.new] }] ++
        { next with cells := f :: next.cells.drop 1 } :: after, destIdx + 1, 1, srcIdx, srcCol⟩ := by
  have hcellsLen : cells.length + 1 = newCols := by
    rw [← hrow, hcells, List.length_append, List.length_singleton]
  have hindex : newCols - 1 = cells.length := by omega
  have hlast : r.cells[newCols - 1]? = some f := by
    rw [hcells, hindex]
    exact getElem?_middle rfl
  have hwide : widthAt r ((newCols : ℤ) - 1) = 2 := by
    have hcast : ((newCols : ℤ) - 1) = ((newCols - 1 : ℕ) : ℤ) := by omega
    rw [hcast, widthAt_cell hlast, hf.1, hf.2.1]
    rfl
  have hsrc : (before ++ r :: next :: after)[destIdx]? = some r := getElem?_middle hlen
  have hbefore : (before ++ [r]).length = destIdx + 1 := by
    rw [List.length_append, hlen, List.length_singleton]
  have hshift : before ++ r :: next :: after = before ++ [r] ++ next :: after := by
    rw [List.append_assoc, List.singleton_append]
  have hdst : (before ++ r :: next :: after)[destIdx + 1]? = some next := by
    rw [hshift]
    exact getElem?_middle hbefore
  have hcopy : copyCells (before ++ r :: next :: after) destIdx (newCols - 1) (destIdx + 1) 0 1 =
      some (before ++ [r] ++ { next with cells := f :: next.cells.drop 1 } :: after) := by
    have htaken : (r.cells.drop (newCols - 1)).take 1 = [f] := by
      rw [hcells, hindex, List.drop_left]
      rfl
    have hone : min (min 1 (newCols - (newCols - 1))) (newCols - 0) = 1 := by omega
    unfold copyCells
    rw [hsrc, hdst]
    simp only [Option.bind_eq_bind, Option.bind_some, Option.pure_def]
    rw [hrow, hnext, if_neg (by omega), hone, htaken, hshift, set_middle hbefore]
    rfl
  have hmodify : r.modify (newCols - 1) (fun _ => Cell.new) =
      some { r with cells := cells ++ [Cell.new] } := by
    rw [modify_eq _ hlast, hcells, set_middle hindex.symm]
  have hupdate : updateAt (before ++ [r] ++ { next with cells := f :: next.cells.drop 1 } :: after)
      destIdx (fun row => row.modify (newCols - 1) fun _ => Cell.new) =
      some (before ++ [{ r with cells := cells ++ [Cell.new] }] ++
        { next with cells := f :: next.cells.drop 1 } :: after) := by
    rw [List.append_assoc, List.singleton_append,
      updateAt_eq (getElem?_middle hlen) hmodify, set_middle hlen, List.append_assoc,
      List.singleton_append]
  unfold pullDown
  rw [if_pos ⟨rfl, Nat.succ_ne_zero _⟩]
  simp only [Nat.add_sub_cancel]
  rw [hsrc]
  simp only [Option.bind_eq_bind, Option.bind_some]
  rw [if_pos hwide, checkedSub_of_le (by omega)]
  simp only [Option.bind_some]
  rw [hcopy]
  simp only [Option.bind_some]
  rw [hupdate]
  rfl

/-- INTERNAL: The row was filled, and a wide character that it would cut is pulled down. -/
theorem Moved.fill (h : Moved oldCols newCols group st done front row start)
    (hpos : 1 ≤ oldCols) (hlt : oldCols < newCols)
    (hgroup : ∀ row ∈ group, Padded oldCols newCols row) {row' : Row} {taken : List Cell}
    {srcIdx srcCol : ℕ} (hcells : row'.cells = front ++ taken)
    (hlen : front.length + taken.length = newCols)
    (hrest : restFrom oldCols group st.srcIdx st.srcCol = taken ++ restFrom oldCols group srcIdx srcCol)
    (hbehind : (st.destIdx + 1) * oldCols + 1 ≤ srcIdx * oldCols + srcCol)
    (hsrc : srcIdx ≤ group.length)
    (hreading : srcCol = 0 ∨ srcIdx < group.length ∧ srcCol < lineLen oldCols group srcIdx) :
    Yields (pullDown newCols ⟨done ++ row' :: group.drop (st.destIdx + 1), st.destIdx + 1, 0, srcIdx,
        srcCol⟩)
      fun st' => Rewrapping oldCols newCols group st' ∧ st'.srcIdx = srcIdx ∧
        st'.destIdx = st.destIdx + 1 := by
  have hnext : st.destIdx + 1 < group.length := by
    -- reading is ahead by more than a row, or it is at the end
    by_contra hge
    have hmul := Nat.mul_le_mul_right oldCols (Nat.le_of_not_lt hge)
    rcases hreading with hzero | ⟨hidx, hcol⟩
    · have hmul' := Nat.mul_le_mul_right oldCols hsrc
      omega
    · have hline := lineLen_le hpos hlt.le hgroup hidx
      have hmul' := Nat.mul_le_mul_right oldCols (Nat.succ_le_of_lt hidx)
      rw [Nat.succ_mul] at hmul'
      omega
  have hget := List.getElem?_eq_getElem hnext
  have hrowLen : row'.cells.length = newCols := by
    rw [hcells, List.length_append]
    exact hlen
  have hpaired := h.paired
  rw [hrest, ← List.append_assoc, ← hcells] at hpaired
  rw [List.drop_eq_getElem_cons hnext]
  rcases hpaired.split with ⟨hrow, hleft⟩ | ⟨cells, f, s, after, hcut, hafter, hF, hC, hrow, hleft⟩
  · have hfits : RowFits newCols row' := ⟨hrowLen, hrow⟩
    rw [pullDown_fits h.done_len hfits (by omega)]
    refine yields_some ⟨⟨done ++ [row'], [], group[st.destIdx + 1], group[st.destIdx + 1], ?_⟩,
      rfl, rfl⟩
    constructor
    case group_eq =>
      show _ = done ++ [row'] ++ group[st.destIdx + 1] :: _
      rw [List.append_assoc, List.singleton_append]
    case done_len => rw [List.length_append, h.done_len, List.length_singleton]
    case done_fit =>
      rw [List.forall_mem_append, List.forall_mem_singleton]
      exact ⟨h.done_fit, hfits⟩
    case start_eq => exact hget
    case row_cells => rfl
    case front_len => rfl
    case col_lt =>
      show 0 < newCols
      omega
    case src_le => exact hsrc
    case paired => exact hleft
    case behind => exact hbehind
    case reading =>
      rcases hreading with hzero | ⟨hidx, hcol⟩
      · exact Or.inl hzero
      · exact Or.inr ⟨hidx, hcol, Or.inl rfl⟩
  · have hnextLen := (hgroup _ (List.mem_of_getElem? hget)).length
    rw [pullDown_cut h.done_len hcut hF hrowLen hnextLen]
    refine yields_some ⟨⟨done ++ [{ row' with cells := cells ++ [Cell.new] }], [f],
      { group[st.destIdx + 1] with cells := f :: group[st.destIdx + 1].cells.drop 1 },
      group[st.destIdx + 1], ?_⟩, rfl, rfl⟩
    constructor
    case group_eq => rfl
    case done_len => rw [List.length_append, h.done_len, List.length_singleton]
    case done_fit =>
      rw [List.forall_mem_append, List.forall_mem_singleton]
      refine ⟨h.done_fit, ?_, hrow.append (.single single_new .nil)⟩
      rw [← hrowLen, hcut, List.length_append, List.length_append, List.length_singleton,
        List.length_singleton]
    case start_eq => exact hget
    case row_cells => rfl
    case front_len => rfl
    case col_lt =>
      show 1 < newCols
      omega
    case src_le => exact hsrc
    case paired =>
      show PairedCells ([f] ++ restFrom oldCols group srcIdx srcCol)
      rw [hafter]
      exact .pair hF hC hleft
    case behind => exact hbehind
    case reading =>
      rcases hreading with hzero | ⟨hidx, hcol⟩
      · exact Or.inl hzero
      · exact Or.inr ⟨hidx, hcol, Or.inr ⟨f, hF, rfl⟩⟩

/-- The row has room left, so the row that is read was read to its end. -/
theorem Moved.keep (h : Moved oldCols newCols group st done front row start)
    (hpos : 1 ≤ oldCols) (hlt : oldCols < newCols)
    (hgroup : ∀ row ∈ group, Padded oldCols newCols row) (hidx : st.srcIdx < group.length)
    {row' : Row} {taken : List Cell}
    (hcells : row'.cells = front ++ taken ++ start.cells.drop (st.destCol + taken.length))
    (hread : st.srcCol + taken.length = lineLen oldCols group st.srcIdx)
    (hroom : st.destCol + taken.length < newCols)
    (hrest : restFrom oldCols group st.srcIdx st.srcCol =
      taken ++ restFrom oldCols group st.srcIdx (st.srcCol + taken.length)) :
    Yields (pullDown newCols ⟨done ++ row' :: group.drop (st.destIdx + 1), st.destIdx,
        st.destCol + taken.length, st.srcIdx + 1, 0⟩)
      fun st' => Rewrapping oldCols newCols group st' ∧ st'.srcIdx = st.srcIdx + 1 ∧
        st'.destIdx = st.destIdx := by
  have hmoved : Moved oldCols newCols group ⟨done ++ row' :: group.drop (st.destIdx + 1), st.destIdx,
      st.destCol + taken.length, st.srcIdx + 1, 0⟩ done (front ++ taken) row' start := by
    constructor
    case group_eq => rfl
    case done_len => exact h.done_len
    case done_fit => exact h.done_fit
    case start_eq => exact h.start_eq
    case row_cells => exact hcells
    case front_len => rw [List.length_append, h.front_len]
    case col_lt => exact hroom
    case src_le => exact hidx
    case paired =>
      have hpaired := h.paired
      rw [hrest, ← List.append_assoc, hread, restFrom_next hpos hlt.le hgroup hidx] at hpaired
      exact hpaired
    case behind =>
      have hbehind := h.behind
      have hline := lineLen_le hpos hlt.le hgroup hidx
      unfold Behind at hbehind ⊢
      show st.destIdx * oldCols + max (st.destCol + taken.length) 1 ≤ (st.srcIdx + 1) * oldCols + 0
      rw [Nat.succ_mul]
      omega
    case reading => exact Or.inl rfl
  by_cases hempty : st.destCol + taken.length = 0 ∧ st.destIdx ≠ 0
  · -- nothing was copied to a row just begun: the row before it is done
    obtain ⟨k, hk⟩ := Nat.exists_eq_succ_of_ne_zero hempty.2
    have hne : done ≠ [] := by
      intro hnil
      have hlen := h.done_len
      rw [hnil, List.length_nil] at hlen
      omega
    have hdone : done = done.dropLast ++ [done.getLast hne] :=
      (List.dropLast_concat_getLast hne).symm
    have hfits := h.done_fit _ (List.getLast_mem hne)
    have hlen : done.dropLast.length = k := by
      rw [List.length_dropLast, h.done_len]
      omega
    rw [hempty.1] at hmoved ⊢
    have hskip : pullDown newCols ⟨done ++ row' :: group.drop (st.destIdx + 1), st.destIdx, 0,
        st.srcIdx + 1, 0⟩ = some ⟨done ++ row' :: group.drop (st.destIdx + 1), st.destIdx, 0,
        st.srcIdx + 1, 0⟩ := by
      rw [hk, hdone, List.append_assoc, List.singleton_append]
      exact pullDown_fits hlen hfits (by omega)
    rw [hskip]
    exact yields_some ⟨⟨done, front ++ taken, row', start, hmoved⟩, rfl, rfl⟩
  · unfold pullDown
    rw [if_neg hempty]
    exact yields_some ⟨⟨done, front ++ taken, row', start, hmoved⟩, rfl, rfl⟩

/-- INTERNAL: One round. It reads a row to its end or fills one.
SRC: reflow.rs:166-190 -/
theorem yields_rewrapStep (hpos : 1 ≤ oldCols) (hlt : oldCols < newCols)
    (hgroup : ∀ row ∈ group, Padded oldCols newCols row)
    (h : Rewrapping oldCols newCols group st) (hidx : st.srcIdx < group.length) :
    Yields (rewrapStep oldCols newCols st) fun st' => Rewrapping oldCols newCols group st' ∧
      st.srcIdx ≤ st'.srcIdx ∧ st.destIdx ≤ st'.destIdx ∧
      st.srcIdx + st.destIdx < st'.srcIdx + st'.destIdx := by
  obtain ⟨done, front, row, start, h⟩ := h
  have htrimmed := h.srcTrimmed hpos hlt.le hgroup hidx
  have hline := lineLen_le hpos hlt.le hgroup hidx
  have hcol : st.srcCol ≤ lineLen oldCols group st.srcIdx := by
    rcases h.reading with hzero | ⟨-, hcol, -⟩
    · omega
    · exact hcol.le
  have hdest := h.col_lt
  obtain ⟨row', taken, hcopy, hcells, hlen, hrest⟩ := h.copy hpos hlt.le hgroup hidx
    (n := min (lineLen oldCols group st.srcIdx - st.srcCol) (newCols - st.destCol))
    (by omega) (by omega)
  unfold rewrapStep
  rw [htrimmed]
  simp only [Option.bind_eq_bind, Option.bind_some]
  rw [checkedSub_of_le hcol, checkedSub_of_le hdest.le]
  simp only [Option.bind_some]
  rw [hcopy]
  simp only [Option.bind_some]
  rw [← hlen] at hcells hrest ⊢
  by_cases hfull : st.destCol + taken.length = newCols
  · have hwhole : row'.cells = front ++ taken := by
      have hstartLen := (hgroup _ (List.mem_of_getElem? h.start_eq)).length
      rw [hcells, hfull, List.drop_eq_nil_of_le hstartLen.le, List.append_nil]
    have hbehind := h.behind
    unfold Behind at hbehind
    have hahead : (st.destIdx + 1) * oldCols + 1 ≤ st.srcIdx * oldCols + (st.srcCol + taken.length) := by
      rw [Nat.succ_mul]
      omega
    rw [if_pos hfull]
    by_cases hread : st.srcCol + taken.length = lineLen oldCols group st.srcIdx
    · rw [if_pos hread]
      refine (h.fill hpos hlt hgroup hwhole (by rw [h.front_len]; exact hfull) ?_ ?_ hidx
        (Or.inl rfl)).mono ?_
      · rw [hrest, hread, restFrom_next hpos hlt.le hgroup hidx]
      · rw [Nat.succ_mul st.srcIdx]
        omega
      · rintro st' ⟨hst, hsrc, hdst⟩
        exact ⟨hst, by omega, by omega, by omega⟩
    · rw [if_neg hread]
      refine (h.fill hpos hlt hgroup hwhole (by rw [h.front_len]; exact hfull) hrest hahead hidx.le
        (Or.inr ⟨hidx, by omega⟩)).mono ?_
      rintro st' ⟨hst, hsrc, hdst⟩
      exact ⟨hst, by omega, by omega, by omega⟩
  · have hread : st.srcCol + taken.length = lineLen oldCols group st.srcIdx := by omega
    rw [if_neg hfull, if_pos hread]
    refine (h.keep hpos hlt hgroup hidx hcells hread (by omega) hrest).mono ?_
    rintro st' ⟨hst, hsrc, hdst⟩
    exact ⟨hst, by omega, by omega, by omega⟩

/-- INTERNAL: The loop ends with the line read to its end.
SRC: reflow.rs:165-190 -/
theorem yields_rewrapLoop (hpos : 1 ≤ oldCols) (hlt : oldCols < newCols)
    (hgroup : ∀ row ∈ group, Padded oldCols newCols row) (fuel : ℕ)
    (h : Rewrapping oldCols newCols group st)
    (hfuel : 2 * group.length ≤ fuel + (st.srcIdx + st.destIdx)) :
    Yields (rewrapLoop oldCols newCols group.length fuel st) fun st' =>
      Rewrapping oldCols newCols group st' ∧ st'.srcIdx = group.length := by
  induction fuel generalizing st with
  | zero =>
      obtain ⟨done, front, row, start, h⟩ := h
      have hdest := (List.getElem?_eq_some_iff.mp h.start_eq).1
      have hsrc := h.src_le
      omega
  | succ fuel ih =>
      unfold rewrapLoop
      by_cases hidx : st.srcIdx < group.length
      · rw [if_pos hidx]
        refine (yields_rewrapStep hpos hlt hgroup h hidx).bind ?_
        rintro st' ⟨hst', -, -, hmore⟩
        exact ih hst' (by omega)
      · rw [if_neg hidx]
        obtain ⟨done, front, row, start, hmoved⟩ := id h
        exact yields_some ⟨h, le_antisymm hmoved.src_le (Nat.le_of_not_lt hidx)⟩

/-! ## One group -/

/-- A row before it is rewrapped: not wider than the new width, and blank from the old one on. -/
structure Unwidened (oldCols newCols : ℕ) (row : Row) : Prop where
  length : row.cells.length ≤ newCols
  paired : PairedCells row.cells
  vacant : ∀ c ∈ row.cells.drop oldCols, Vacant c

theorem Unwidened.pad {r : Row} (h : Unwidened oldCols newCols r) :
    Padded oldCols newCols (if r.cells.length < newCols then
      { r with cells := resizeCells r.cells newCols Cell.new } else r) := by
  split
  · constructor
    case length => exact length_resizeCells _ _ _
    case paired => exact paired_resizeCells h.paired h.length single_new
    case vacant =>
      intro c hc
      dsimp only [resizeCells] at hc
      rw [List.take_of_length_le h.length, List.drop_append, List.mem_append] at hc
      rcases hc with hc | hc
      · exact h.vacant c hc
      · rw [List.eq_of_mem_replicate (List.mem_of_mem_drop hc)]
        exact vacant_new
  · exact ⟨le_antisymm h.length (Nat.le_of_not_lt ‹_›), h.paired, h.vacant⟩

/-- What is behind the line in the last row it fills is made blank.
SRC: reflow.rs:76-87 -/
theorem rowFits_replaceCells {r : Row} {front rest : List Cell} (hcells : r.cells = front ++ rest)
    (hlen : r.cells.length = newCols) (hfront : PairedCells front) :
    RowFits newCols (replaceCells r front.length newCols) := by
  have hlast : ¬ (0 < front.length ∧ widthAt r ((front.length : ℤ) - 1) = 2) := by
    rintro ⟨hpos, hwide⟩
    have hcast : ((front.length : ℤ) - 1) = ((front.length - 1 : ℕ) : ℤ) := by omega
    have hlt : front.length - 1 < front.length := by omega
    have hget := List.getElem?_eq_getElem hlt
    have hcell : r.cells[front.length - 1]? = some front[front.length - 1] := by
      rw [hcells, List.getElem?_append_left hlt]
      exact hget
    rw [hcast, widthAt_cell hcell,
      not_wide_getLast hfront (List.getLast?_eq_getElem?.trans hget)] at hwide
    split at hwide <;> simp at hwide
  have hroom : front.length ≤ newCols := by
    rw [← hlen, hcells, List.length_append]
    exact Nat.le_add_right _ _
  have hresult : (replaceCells r front.length newCols).cells =
      front ++ List.replicate (newCols - front.length) Cell.new := by
    unfold replaceCells
    rw [if_neg hlast]
    dsimp only
    rw [if_neg (by rw [hlen]; omega), hlen, min_self, max_eq_right hroom,
      List.drop_eq_nil_of_le hlen.le, List.append_nil, hcells, List.take_left]
  constructor
  · rw [hresult, List.length_append, List.length_replicate]
    omega
  · rw [hresult]
    exact hfront.append (paired_replicate _ single_new)

/-- INTERNAL: A group is rewrapped to rows of the new width.
SRC: reflow.rs:155-200 -/
theorem yields_rewrapLarger (hpos : 1 ≤ oldCols) (hlt : oldCols < newCols) (hne : group ≠ [])
    (hgroup : ∀ row ∈ group, Unwidened oldCols newCols row) :
    Yields (rewrapLarger oldCols newCols group) fun r =>
      r.1.length = group.length ∧ ∀ row ∈ r.1, RowFits newCols row := by
  unfold rewrapLarger
  generalize hpadded : (group.map fun row => if row.cells.length < newCols then
    { row with cells := resizeCells row.cells newCols Cell.new } else row) = rows
  have hrows : ∀ row ∈ rows, Padded oldCols newCols row := by
    intro row hrow
    rw [← hpadded, List.mem_map] at hrow
    obtain ⟨r, hr, rfl⟩ := hrow
    exact (hgroup r hr).pad
  have hlen : rows.length = group.length := by
    rw [← hpadded, List.length_map]
  have hzero : 0 < rows.length := by
    rw [hlen]
    exact List.length_pos_iff.mpr hne
  have hget := List.getElem?_eq_getElem hzero
  have hfirst := hrows _ (List.mem_of_getElem? hget)
  have hline := lineLen_le hpos hlt.le hrows hzero
  dsimp only
  rw [wrappedLineTrimmedLen_eq hpos hlt.le hrows hzero]
  simp only [Option.bind_eq_bind, Option.bind_some]
  have hstart : Rewrapping oldCols newCols rows ⟨rows, 0, lineLen oldCols rows 0, 1, 0⟩ := by
    refine ⟨[], rows[0].cells.take (lineLen oldCols rows 0), rows[0], rows[0], ?_⟩
    constructor
    case group_eq => exact List.drop_eq_getElem_cons hzero
    case done_len => rfl
    case done_fit => exact fun r hr => absurd hr List.not_mem_nil
    case start_eq => exact hget
    case row_cells => exact (List.take_append_drop _ _).symm
    case front_len =>
      rw [List.length_take, hfirst.length]
      exact min_eq_left (hline.trans hlt.le)
    case col_lt => exact hline.trans_lt hlt
    case src_le => exact hzero
    case paired =>
      have hall := Paired.flatten (paired_segments hpos hlt.le hrows)
      have hsplit := drop_segments hget (by rw [hfirst.length]; exact hline.trans hlt.le)
        (Nat.zero_le (lineLen oldCols rows 0))
      rw [List.drop_zero, List.drop_zero, List.drop_zero] at hsplit
      rw [hsplit] at hall
      exact hall
    case behind =>
      unfold Behind
      dsimp only
      omega
    case reading => exact Or.inl rfl
  rw [← hlen]
  refine (yields_rewrapLoop hpos hlt hrows (2 * rows.length + 1) hstart (by omega)).bind ?_
  rintro st ⟨⟨done, front, row, start, h⟩, hend⟩
  have hrowLen : row.cells.length = newCols := by
    have hstartLen := (hrows _ (List.mem_of_getElem? h.start_eq)).length
    have hcol := h.col_lt
    rw [h.row_cells, List.length_append, List.length_drop, h.front_len, hstartLen]
    omega
  have hfront : PairedCells front := by
    have hpaired := h.paired
    have hnothing : restFrom oldCols rows st.srcIdx st.srcCol = [] := by
      unfold restFrom
      rw [hend, List.drop_eq_nil_of_le length_segments.le, List.flatten_nil, List.drop_nil]
    rw [hnothing, List.append_nil] at hpaired
    exact hpaired
  have hreplaced := rowFits_replaceCells h.row_cells hrowLen hfront
  rw [h.front_len] at hreplaced
  have hupdate : updateAt st.group st.destIdx
      (fun row => some (replaceCells row st.destCol newCols)) =
      some (done ++ replaceCells row st.destCol newCols :: rows.drop (st.destIdx + 1)) := by
    have hget : st.group[st.destIdx]? = some row := by
      rw [h.group_eq]
      exact getElem?_middle h.done_len
    rw [updateAt_eq (f := fun row => some (replaceCells row st.destCol newCols)) hget rfl,
      h.group_eq, set_middle h.done_len]
  simp only [hupdate, Option.bind_some]
  refine yields_some ⟨?_, ?_⟩
  · rw [← h.length, h.group_eq]
    simp
  · show ∀ r ∈ done ++ replaceCells row st.destCol newCols :: rows.drop (st.destIdx + 1), _
    rw [List.forall_mem_append, List.forall_mem_cons]
    refine ⟨h.done_fit, hreplaced, fun r hr => ?_⟩
    have hr' := hrows r (List.mem_of_mem_drop hr)
    exact ⟨hr'.length, hr'.paired⟩

/-! ## All lines -/

/-- A line that is ready for the screen: it is cropped nowhere inside of a character. -/
def Cropped (newCols : ℕ) (row : Row) : Prop := row.cells.length ≤ newCols ∧ PairedCells row.cells

theorem Unwidened.cropped {r : Row} (h : Unwidened oldCols newCols r) : Cropped newCols r :=
  ⟨h.length, h.paired⟩

theorem cropped_blankLine (newCols : ℕ) (wrapped : Bool) : Cropped newCols (blankLine newCols wrapped) :=
  ⟨(rowFits_new newCols).1.le, (rowFits_new newCols).2⟩

theorem forall_take_add {P : Row → Prop} {lines : List Row} {y n : ℕ}
    (hbefore : ∀ row ∈ lines.take y, P row) (hnext : ∀ row ∈ (lines.drop y).take n, P row) :
    ∀ row ∈ lines.take (y + n), P row := by
  rw [List.take_add, List.forall_mem_append]
  exact ⟨hbefore, hnext⟩

/-- INTERNAL: The scan over the lines: those before `y` are done.
SRC: reflow.rs:136-205 -/
theorem yields_largerLoop (hpos : 1 ≤ oldCols) (hlt : oldCols < newCols) (absY fuel : ℕ)
    {lines : List Row} {y : ℕ} {remove : List (ℕ × ℕ)} (hy : y ≤ lines.length)
    (hfuel : lines.length < fuel + y) (hdone : ∀ row ∈ lines.take y, Cropped newCols row)
    (hrest : ∀ row ∈ lines.drop y, Unwidened oldCols newCols row) :
    Yields (largerLoop oldCols newCols absY fuel lines y remove) fun r =>
      ∀ row ∈ r.1, Cropped newCols row := by
  induction fuel generalizing lines y remove with
  | zero => omega
  | succ fuel ih =>
      have hskip : ∀ n, (∀ row ∈ lines.take (y + n), Cropped newCols row) ∧
          ∀ row ∈ lines.drop (y + n), Unwidened oldCols newCols row := by
        intro n
        constructor
        · exact forall_take_add hdone fun row hrow => (hrest row (List.mem_of_mem_take hrow)).cropped
        · intro row hrow
          rw [← List.drop_drop] at hrow
          exact hrest row (List.mem_of_mem_drop hrow)
      unfold largerLoop
      by_cases hmore : y + 1 < lines.length
      · rw [if_pos hmore, List.getElem?_eq_getElem hmore]
        simp only [Option.bind_eq_bind, Option.bind_some]
        cases hwrapped : lines[y + 1].wrapped with
        | false => exact ih hmore.le (by omega) (hskip 1).1 (hskip 1).2
        | true =>
            simp only [Bool.not_true, Bool.false_eq_true, if_false]
            generalize hn : ((lines.drop (y + 1)).takeWhile fun row => row.wrapped).length + 1 = n
            have hle : y + n ≤ lines.length := by
              have hshort := (List.takeWhile_sublist (fun row : Row => row.wrapped)
                (l := lines.drop (y + 1))).length_le
              rw [List.length_drop] at hshort
              omega
            split
            · exact ih hle (by omega) (hskip n).1 (hskip n).2
            · have hlen : ((lines.drop y).take n).length = n := by
                rw [List.length_take, List.length_drop]
                omega
              have hne : (lines.drop y).take n ≠ [] := by
                intro hnil
                rw [hnil, List.length_nil] at hlen
                omega
              refine (yields_rewrapLarger hpos hlt hne
                fun row hrow => hrest row (List.mem_of_mem_take hrow)).bind ?_
              rintro ⟨group, count⟩ ⟨hgroupLen, hfits⟩
              dsimp only at hgroupLen hfits ⊢
              rw [hlen] at hgroupLen
              have htake : (lines.take y).length = y := by
                rw [List.length_take]
                omega
              have hfront : (lines.take y ++ group).length = y + n := by
                rw [List.length_append, htake, hgroupLen]
              apply ih
              · rw [List.length_append, hfront]
                omega
              · rw [List.length_append, hfront, List.length_drop]
                omega
              · rw [← hfront, List.take_left, List.forall_mem_append]
                exact ⟨hdone, fun row hrow => ⟨(hfits row hrow).1.le, (hfits row hrow).2⟩⟩
              · rw [← hfront, List.drop_left, hfront]
                exact (hskip n).2
      · rw [if_neg hmore]
        refine yields_some ?_
        rw [← List.take_append_drop y lines, List.forall_mem_append]
        exact ⟨hdone, fun row hrow => (hrest row hrow).cropped⟩

theorem mem_dropRanges (lines : List Row) (idx : ℕ) (remove : List (ℕ × ℕ)) (skip : ℕ) :
    ∀ row ∈ (dropRanges lines idx remove skip).1, row ∈ lines := by
  induction lines generalizing idx remove skip with
  | nil => exact fun row hrow => hrow
  | cons line lines ih =>
      intro row hrow
      have hnext : ∀ q : List (ℕ × ℕ) × ℕ × ℕ, row ∈ (if 0 < q.2.1 then
          ((dropRanges lines (idx + 1) q.1 (q.2.1 - 1)).1,
            (dropRanges lines (idx + 1) q.1 (q.2.1 - 1)).2 + q.2.2)
          else (line :: (dropRanges lines (idx + 1) q.1 q.2.1).1,
            (dropRanges lines (idx + 1) q.1 q.2.1).2 + q.2.2)).1 → row ∈ line :: lines := by
        intro q hq
        split at hq
        · exact List.mem_cons_of_mem _ (ih _ _ _ row hq)
        · rcases List.mem_cons.mp hq with rfl | hq
          · exact List.mem_cons_self
          · exact List.mem_cons_of_mem _ (ih _ _ _ row hq)
      unfold dropRanges at hrow
      exact hnext _ hrow

/-- INTERNAL: The lines after the rewrapping fit, and the screen does not move down.
SRC: reflow.rs:136-240 -/
theorem yields_reflowLarger (hpos : 1 ≤ oldCols) (hlt : oldCols < newCols) {b : Lines}
    (hlines : ∀ row ∈ b.lines, Unwidened oldCols newCols row) (newRows : ℕ) :
    Yields (reflowLarger b oldCols newCols newRows) fun b' =>
      (∀ row ∈ b'.lines, Cropped newCols row) ∧ b'.ybase ≤ b.ybase := by
  unfold reflowLarger
  refine (yields_largerLoop hpos hlt (b.ybase + b.y) (b.lines.length + 1) (Nat.zero_le _)
    (by omega) (fun row hrow => absurd hrow List.not_mem_nil) hlines).bind ?_
  rintro ⟨lines, remove⟩ hcropped
  dsimp only at hcropped ⊢
  split
  · exact yields_some ⟨hcropped, le_refl _⟩
  · have hmoved : ∀ (n : ℕ) (b₀ : Lines),
        ((∀ row ∈ b₀.lines, Cropped newCols row) ∧ b₀.ybase ≤ b.ybase) →
        (∀ row ∈ ((afterRemoved newCols newRows)^[n] b₀).lines, Cropped newCols row) ∧
          ((afterRemoved newCols newRows)^[n] b₀).ybase ≤ b.ybase := by
      intro n
      induction n with
      | zero => exact fun b₀ h => h
      | succ n ih =>
          intro b₀ h
          rw [Function.iterate_succ_apply]
          apply ih
          unfold afterRemoved
          split
          · dsimp only
            split
            · rw [List.forall_mem_append, List.forall_mem_singleton]
              exact ⟨⟨h.1, cropped_blankLine newCols false⟩, h.2⟩
            · exact h
          · exact ⟨h.1, (Nat.sub_le _ _).trans h.2⟩
    exact yields_some (hmoved _ _ ⟨fun row hrow => hcropped row (mem_dropRanges _ _ _ _ row hrow),
      le_refl _⟩)

end

end Tymux.Analysis.Vt
