import Tymux.Analysis.Vt.Representation
import Tymux.Analysis.Vt.ResizeSteps
import Mathlib.Data.List.TakeWhile

/-!
# Counting the lines of a resize

A resize counts the lines it adds and takes away in three ways at once: in the list, in the index of
the first drawn line, and in the row of the cursor. Here the three counts are compared. They agree
in the list and in the index, and the row of the cursor agrees where no line is added or taken away
below it.
-/

set_option autoImplicit false

namespace Tymux.Analysis.Vt

open Tymux.Lib Tymux.Model Tymux.Model.Vt

/-- The drawn lines are the last ones, and those before them are within the limit. -/
structure Counted (cap newRows : ℕ) (b : Lines) : Prop where
  count : b.lines.length = b.ybase + newRows
  base_le : b.ybase ≤ cap
  y_lt : b.y < newRows

/-- The cursor is on `row`. -/
structure Tallied (cap newRows : ℕ) (row : Row) (b : Lines) : Prop extends
    Counted cap newRows b where
  max_eq : b.maxLen = cap + newRows
  cursor : b.lines[b.ybase + b.y]? = some row

/-- A logical line of `n` rows: the row at `y`, which continues no other, and those that continue
it. -/
structure LogicalLine (lines : List Row) (y n : ℕ) : Prop where
  pos : 1 ≤ n
  le : y + n ≤ lines.length
  first : y = 0 ∨ ∀ row, lines[y]? = some row → row.wrapped = false
  rest : ∀ i row, y < i → i < y + n → lines[i]? = some row → row.wrapped = true
  next : ∀ row, lines[y + n]? = some row → row.wrapped = false

/-- The rewrapping leaves the logical line with the number of rows that it has. -/
def KeepsRows (oldCols newCols : ℕ) (group : List Row) : Prop :=
  if oldCols < newCols then ∀ r, rewrapLarger oldCols newCols group = some r → r.2 = 0
  else ∀ r, rewrapSmaller oldCols newCols group = some r → r.2.length ≤ group.length

/-- No logical line that starts below the cursor gains or loses rows. -/
def KeptBelow (oldCols newCols : ℕ) (b : Lines) : Prop :=
  ∀ y n, b.ybase + b.y < y → LogicalLine b.lines y n →
    KeepsRows oldCols newCols ((b.lines.drop y).take n)

section

variable {cap newRows : ℕ} {row : Row}

/-! ## Gathering the lines -/

/-- Each row more is a line that is drawn again or a blank one at the end.
SRC: reflow.rs:429-437 -/
theorem growOne_tally (cols newRows n : ℕ) (r : Lines × ℕ)
    (hlen : r.1.lines.length + n = r.1.ybase + newRows)
    (hcursor : r.1.lines[r.1.ybase + (r.1.y + r.2)]? = some row) :
    ∃ b addToY, (growOne cols newRows)^[n] r = (b, addToY) ∧
      b.lines.length = b.ybase + newRows ∧ b.ybase ≤ r.1.ybase ∧ b.y = r.1.y ∧
      b.maxLen = r.1.maxLen ∧ addToY ≤ r.2 + n ∧ b.lines[b.ybase + (b.y + addToY)]? = some row := by
  induction n generalizing r with
  | zero => exact ⟨r.1, r.2, rfl, hlen, le_refl _, rfl, rfl, le_refl _, hcursor⟩
  | succ n ih =>
      obtain ⟨b, addToY⟩ := r
      dsimp only at hlen hcursor ⊢
      rw [Function.iterate_succ_apply]
      have hshort : b.lines.length < newRows + b.ybase := by omega
      by_cases hback : 0 < b.ybase ∧ b.lines.length ≤ b.ybase + b.y + addToY + 1
      · have hstep : growOne cols newRows (b, addToY) =
            ({ b with ybase := b.ybase - 1 }, addToY + 1) := by
          unfold growOne
          dsimp only
          rw [if_pos hshort, if_pos hback]
        rw [hstep]
        obtain ⟨b', addToY', heq, hcount, hbase, hy, hmax, hadd, hrow⟩ :=
          ih ({ b with ybase := b.ybase - 1 }, addToY + 1)
            (by dsimp only; omega)
            (by
              have hsame : b.ybase - 1 + (b.y + (addToY + 1)) = b.ybase + (b.y + addToY) := by omega
              dsimp only
              rw [hsame]
              exact hcursor)
        dsimp only at hbase hy hmax hadd
        exact ⟨b', addToY', heq, hcount, by omega, hy, hmax, by omega, hrow⟩
      · have hstep : growOne cols newRows (b, addToY) =
            ({ b with lines := b.lines ++ [blankLine cols false] }, addToY) := by
          unfold growOne
          dsimp only
          rw [if_pos hshort, if_neg hback]
        rw [hstep]
        have hlt := (List.getElem?_eq_some_iff.mp hcursor).1
        obtain ⟨b', addToY', heq, hcount, hbase, hy, hmax, hadd, hrow⟩ :=
          ih ({ b with lines := b.lines ++ [blankLine cols false] }, addToY)
            (by
              dsimp only
              rw [List.length_append, List.length_singleton]
              omega)
            (by
              dsimp only
              rw [List.getElem?_append_left hlt]
              exact hcursor)
        exact ⟨b', addToY', heq, hcount, hbase, hy, hmax, by omega, hrow⟩

/-- Each row less is a line below the cursor, or the first drawn one.
SRC: reflow.rs:440-448 -/
theorem shrinkOne_tally (newRows n : ℕ) {c : ℕ} (b : Lines)
    (hlen : b.lines.length = b.ybase + newRows + n) (hcursor : b.lines[c]? = some row)
    (hat : b.ybase + b.y = c ∨ b.lines.length = c + 1 ∧ c ≤ b.ybase + b.y) :
    ∃ b', (shrinkOne newRows)^[n] b = b' ∧ b'.lines.length = b'.ybase + newRows ∧
      b'.y = b.y ∧ b'.maxLen = b.maxLen ∧ b'.lines[c]? = some row ∧
      (b'.ybase + b'.y = c ∨ b'.lines.length = c + 1 ∧ c ≤ b'.ybase + b'.y) := by
  induction n generalizing b with
  | zero => exact ⟨b, rfl, hlen, rfl, rfl, hcursor, hat⟩
  | succ n ih =>
      rw [Function.iterate_succ_apply]
      have hlt := (List.getElem?_eq_some_iff.mp hcursor).1
      have hlong : newRows + b.ybase < b.lines.length := by omega
      unfold shrinkOne
      rw [if_pos hlong]
      split_ifs with hbelow
      · obtain ⟨b', heq, hcount, hy, hmax, hrow, hat'⟩ :=
          ih { b with lines := b.lines.dropLast }
            (by
              dsimp only
              rw [List.length_dropLast]
              omega)
            (by
              dsimp only
              rw [List.getElem?_dropLast, if_pos (by omega)]
              exact hcursor)
            (Or.inl (by dsimp only; omega))
        exact ⟨b', heq, hcount, hy, hmax, hrow, hat'⟩
      · obtain ⟨b', heq, hcount, hy, hmax, hrow, hat'⟩ :=
          ih { b with ybase := b.ybase + 1 } (by dsimp only; omega) hcursor
            (Or.inr ⟨by dsimp only; omega, by dsimp only; omega⟩)
        exact ⟨b', heq, hcount, hy, hmax, hrow, hat'⟩

/-- INTERNAL: The gathered lines are tallied, with the cursor on the row that it was on.
SRC: reflow.rs:400-460 -/
theorem gather_tallied {g : Grid} {size : Size} {r : Lines × ℕ}
    (hrows : g.rows.length = g.size.rows) (hpos : g.pos.row < g.size.rows)
    (hback : g.scrollback.length ≤ g.scrollbackLen) (hgather : g.gather size = some r)
    (hrow : (if g.size.cols < size.cols then
      g.rows.map fun line => { line with cells := resizeCells line.cells size.cols Cell.new }
      else g.rows)[g.pos.row]? = some row) : Tallied g.scrollbackLen size.rows row r.1 := by
  rw [gather_eq] at hgather
  obtain ⟨last, hlast, rfl⟩ := Option.map_eq_some_iff.mp hgather
  obtain ⟨hpositive, rfl⟩ := checkedSub_eq_some hlast
  have hlen : (linesOf g size).lines.length = (linesOf g size).ybase + g.size.rows := by
    unfold linesOf
    rw [List.length_append]
    dsimp only
    split_ifs
    · rw [List.length_map, hrows]
    · rw [hrows]
  have hcursor : (linesOf g size).lines[(linesOf g size).ybase + (linesOf g size).y]? = some row := by
    unfold linesOf
    dsimp only
    rw [List.getElem?_append_right (Nat.le_add_right _ _), Nat.add_sub_cancel_left]
    exact hrow
  have hbase : (linesOf g size).ybase ≤ g.scrollbackLen := hback
  have hy : (linesOf g size).y < g.size.rows := hpos
  have hmax : (linesOf g size).maxLen = g.scrollbackLen + size.rows := rfl
  unfold fitRows
  generalize linesOf g size = b at *
  dsimp only
  by_cases hgrow : g.size.rows < size.rows
  · obtain ⟨b', addToY, heq, hcount, hbase', hy', hmax', hadd, hrow'⟩ :=
      growOne_tally size.cols size.rows (size.rows - g.size.rows) (b, 0)
        (by dsimp only; omega) hcursor
    dsimp only at hbase' hy' hmax' hadd
    rw [if_pos hgrow, heq]
    have htrim : surplus g b' = 0 := if_neg (by omega)
    have hmin : min b'.y (size.rows - 1) = b'.y := min_eq_left (by omega)
    unfold cutTop
    dsimp only
    rw [htrim, hmin]
    exact ⟨⟨hcount, hbase'.trans hbase, by dsimp only; omega⟩, hmax'.trans hmax, hrow'⟩
  · obtain ⟨b', heq, hcount, hy', hmax', hrow', hat⟩ := shrinkOne_tally size.rows
      (g.size.rows - size.rows) b (by omega) hcursor (Or.inl rfl)
    rw [if_neg hgrow, heq]
    have hlt := (List.getElem?_eq_some_iff.mp hrow').1
    have htrim : surplus g b' = b'.ybase - g.scrollbackLen := by
      unfold surplus
      split_ifs with hfewer
      · omega
      · have hsame : g.size.rows - size.rows = 0 := by omega
        rw [hsame] at heq
        have hb : b = b' := heq
        rw [hb] at hbase
        omega
    have hplace : b'.ybase + min b'.y (size.rows - 1) = b.ybase + b.y := by omega
    unfold cutTop
    dsimp only
    rw [htrim]
    refine ⟨⟨?_, ?_, ?_⟩, hmax'.trans hmax, ?_⟩
    · dsimp only
      rw [List.length_drop]
      omega
    · dsimp only
      omega
    · dsimp only
      omega
    · dsimp only
      have hindex : b'.ybase - g.scrollbackLen + (b'.ybase - (b'.ybase - g.scrollbackLen) +
          (min b'.y (size.rows - 1) + 0)) = b.ybase + b.y := by omega
      rw [List.getElem?_drop, hindex]
      exact hrow'

/-! ## To a larger width -/

/-- Ranges one after the other, from `lo` on, of which the last ends at `hi` or before. -/
def RangesIn (hi : ℕ) : ℕ → List (ℕ × ℕ) → Prop
  | lo, [] => lo ≤ hi
  | lo, (start, count) :: rest => lo ≤ start ∧ 0 < count ∧ RangesIn hi (start + count) rest

theorem RangesIn.le {lo hi : ℕ} {ranges : List (ℕ × ℕ)} (h : RangesIn hi lo ranges) : lo ≤ hi := by
  induction ranges generalizing lo with
  | nil => exact h
  | cons range ranges ih =>
      have hrest := ih h.2.2
      have hstart := h.1
      omega

theorem RangesIn.mono {lo hi hi' : ℕ} {ranges : List (ℕ × ℕ)} (h : RangesIn hi lo ranges)
    (hle : hi ≤ hi') : RangesIn hi' lo ranges := by
  induction ranges generalizing lo with
  | nil => exact le_trans h hle
  | cons range ranges ih => exact ⟨h.1, h.2.1, ih h.2.2⟩

theorem RangesIn.concat {lo mid hi start count : ℕ} {ranges : List (ℕ × ℕ)}
    (h : RangesIn mid lo ranges) (hstart : mid ≤ start) (hcount : 0 < count)
    (hend : start + count ≤ hi) : RangesIn hi lo (ranges ++ [(start, count)]) := by
  induction ranges generalizing lo with
  | nil => exact ⟨le_trans h hstart, hcount, hend⟩
  | cons range ranges ih => exact ⟨h.1, h.2.1, ih h.2.2⟩

theorem dropRanges_nil (lines : List Row) (idx : ℕ) : dropRanges lines idx [] 0 = (lines, 0) := by
  induction lines generalizing idx with
  | nil => rfl
  | cons line lines ih =>
      unfold dropRanges
      dsimp only
      rw [if_neg (lt_irrefl 0), ih]

theorem dropRanges_end (lines : List Row) {idx hi skip : ℕ} {remove : List (ℕ × ℕ)}
    (h : RangesIn hi (idx + skip) remove) (hidx : hi ≤ idx) :
    dropRanges lines idx remove skip = (lines, 0) ∧ hi = idx ∧ skip = 0 ∧ remove = [] := by
  have hle := h.le
  have hskip : skip = 0 := by omega
  have hremove : remove = [] := by
    cases remove with
    | nil => rfl
    | cons range rest =>
        have hlast := h.2.2.le
        have hstart := h.1
        have hcount := h.2.1
        omega
  rw [hskip, hremove]
  exact ⟨dropRanges_nil lines idx, by omega, rfl, rfl⟩

/-- INTERNAL: Up to `hi`, where the last range ends, the lines outside the ranges stay, and from
there on all of them do.
SRC: reflow.rs:209-228 -/
theorem dropRanges_spec (lines : List Row) (idx hi skip : ℕ) (remove : List (ℕ × ℕ))
    (h : RangesIn hi (idx + skip) remove) (hhi : hi ≤ idx + lines.length) :
    ∃ front, dropRanges lines idx remove skip =
        (front ++ lines.drop (hi - idx), (remove.map Prod.snd).sum) ∧
      idx + front.length + skip + (remove.map Prod.snd).sum = hi := by
  by_cases hidx : hi ≤ idx
  · obtain ⟨hdrop, rfl, rfl, rfl⟩ := dropRanges_end lines h hidx
    rw [hdrop, Nat.sub_self]
    exact ⟨[], rfl, rfl⟩
  induction lines generalizing idx skip remove with
  | nil =>
      rw [List.length_nil] at hhi
      omega
  | cons line lines ih =>
      have hnext : ∀ skip' rest, RangesIn hi (idx + 1 + skip') rest →
          ∃ front, dropRanges lines (idx + 1) rest skip' =
              (front ++ lines.drop (hi - (idx + 1)), (rest.map Prod.snd).sum) ∧
            idx + 1 + front.length + skip' + (rest.map Prod.snd).sum = hi := by
        intro skip' rest hrest
        rw [List.length_cons] at hhi
        by_cases hend : hi ≤ idx + 1
        · obtain ⟨hdrop, rfl, rfl, rfl⟩ := dropRanges_end lines hrest hend
          rw [hdrop, Nat.sub_self]
          exact ⟨[], rfl, rfl⟩
        · exact ih (idx + 1) skip' rest hrest (by omega) hend
      have hdropped : (line :: lines).drop (hi - idx) = lines.drop (hi - (idx + 1)) := by
        have hsucc : hi - idx = hi - (idx + 1) + 1 := by omega
        rw [hsucc, List.drop_succ_cons]
      rw [hdropped]
      -- the line stays, if it is in no range
      have hkeep : ∀ rest, RangesIn hi (idx + 1) rest →
          ∃ front, (line :: (dropRanges lines (idx + 1) rest 0).1,
              (dropRanges lines (idx + 1) rest 0).2 + 0) =
              (front ++ lines.drop (hi - (idx + 1)), (rest.map Prod.snd).sum) ∧
            idx + front.length + 0 + (rest.map Prod.snd).sum = hi := by
        intro rest hrest
        obtain ⟨front, hdrop, hsum⟩ := hnext 0 rest hrest
        refine ⟨line :: front, ?_, ?_⟩
        · rw [hdrop]
          rfl
        · rw [List.length_cons]
          omega
      unfold dropRanges
      cases remove with
      | nil =>
          dsimp only
          by_cases hskip : 0 < skip
          · rw [if_pos hskip]
            obtain ⟨front, hdrop, hsum⟩ := hnext (skip - 1) []
              (by show idx + 1 + (skip - 1) ≤ hi; have := h.le; omega)
            rw [hdrop]
            exact ⟨front, rfl, by omega⟩
          · obtain rfl : skip = 0 := by omega
            exact hkeep [] (by show idx + 1 ≤ hi; omega)
      | cons range rest =>
          obtain ⟨start, count⟩ := range
          obtain ⟨hstart, hcount, hrest⟩ := h
          dsimp only
          by_cases hat : idx = start
          · subst hat
            obtain rfl : skip = 0 := by omega
            rw [if_pos rfl]
            dsimp only
            rw [if_pos hcount]
            have hsame : idx + count = idx + 1 + (count - 1) := by omega
            rw [hsame] at hrest
            obtain ⟨front, hdrop, hsum⟩ := hnext (count - 1) rest hrest
            rw [hdrop, List.map_cons, List.sum_cons]
            refine ⟨front, Prod.ext rfl (Nat.add_comm _ _), ?_⟩
            dsimp only
            omega
          · rw [if_neg hat]
            dsimp only
            by_cases hskip : 0 < skip
            · rw [if_pos hskip]
              obtain ⟨front, hdrop, hsum⟩ := hnext (skip - 1) ((start, count) :: rest)
                ⟨by omega, hcount, hrest⟩
              rw [hdrop]
              exact ⟨front, rfl, by omega⟩
            · obtain rfl : skip = 0 := by omega
              exact hkeep ((start, count) :: rest) ⟨by omega, hcount, hrest⟩

/-- Each line that was removed is one less above the cursor, or a blank one at the end.
SRC: reflow.rs:229-238 -/
theorem afterRemoved_tally (cols newRows n : ℕ) (b : Lines)
    (hlen : b.lines.length + n = b.ybase + newRows) :
    ∃ b', (afterRemoved cols newRows)^[n] b = b' ∧ b'.lines.length = b'.ybase + newRows ∧
      b'.ybase ≤ b.ybase ∧ b'.y ≤ b.y ∧ b'.maxLen = b.maxLen ∧
      (n ≤ b.ybase + b.y → b'.ybase + b'.y + n = b.ybase + b.y) ∧
      ∀ (i : ℕ) (line : Row), b.lines[i]? = some line → b'.lines[i]? = some line := by
  induction n generalizing b with
  | zero => exact ⟨b, rfl, hlen, le_refl _, le_refl _, rfl, fun _ => rfl, fun _ _ h => h⟩
  | succ n ih =>
      rw [Function.iterate_succ_apply]
      unfold afterRemoved
      by_cases hbase : b.ybase = 0
      · have hshort : b.lines.length < newRows := by omega
        rw [if_pos hbase, if_pos hshort]
        obtain ⟨b', heq, hcount, hbase', hy, hmax, hindex, hlines⟩ :=
          ih { b with y := b.y - 1, lines := b.lines ++ [blankLine cols false] } (by
            dsimp only
            rw [List.length_append, List.length_singleton]
            omega)
        dsimp only at hbase' hy hindex hlines
        refine ⟨b', heq, hcount, hbase', by omega, hmax, fun hle => by omega, ?_⟩
        intro i line hline
        refine hlines i line ?_
        rw [List.getElem?_append_left (List.getElem?_eq_some_iff.mp hline).1]
        exact hline
      · rw [if_neg hbase]
        obtain ⟨b', heq, hcount, hbase', hy, hmax, hindex, hlines⟩ :=
          ih { b with ybase := b.ybase - 1 } (by dsimp only; omega)
        dsimp only at hbase' hy hindex hlines
        exact ⟨b', heq, hcount, by omega, hy, hmax, fun hle => by omega, hlines⟩

theorem unusedRows_le (group : List Row) (destIdx k : ℕ) : unusedRows group destIdx k ≤ k := by
  induction k with
  | zero => exact le_refl 0
  | succ k ih =>
      unfold unusedRows
      split_ifs
      · exact Nat.succ_le_succ ih
      · exact Nat.zero_le _

theorem rewrapLarger_count {oldCols newCols : ℕ} {group : List Row} {r : List Row × ℕ}
    (h : rewrapLarger oldCols newCols group = some r) : r.2 ≤ group.length := by
  unfold rewrapLarger at h
  obtain ⟨destCol, -, h⟩ := Option.bind_eq_some_iff.mp h
  obtain ⟨st, -, h⟩ := Option.bind_eq_some_iff.mp h
  obtain ⟨result, -, h⟩ := Option.bind_eq_some_iff.mp h
  rw [← Option.some_inj.mp h]
  exact unusedRows_le result st.destIdx group.length

/-- The scan over the lines: those from `y` on are as they were, and what is to be removed lies
before `y`, and before the cursor if nothing is removed below it. -/
structure Scanned (lines : List Row) (c : ℕ) (kept : Prop) (y : ℕ) (now : List Row)
    (remove : List (ℕ × ℕ)) : Prop where
  le : y ≤ lines.length
  length : now.length = lines.length
  rest : now.drop y = lines.drop y
  at_start : y = 0 ∨ ∀ row, lines[y]? = some row → row.wrapped = false
  own : now[c]? = lines[c]?
  ranges : RangesIn y 0 remove
  above : kept → RangesIn (min y c) 0 remove

variable {lines now : List Row} {c y n : ℕ} {kept : Prop} {remove : List (ℕ × ℕ)}

/-- Lines may be left as they are, up to the start of a logical line. -/
theorem Scanned.skip (h : Scanned lines c kept y now remove) (hle : y + n ≤ lines.length)
    (hstart : ∀ row, lines[y + n]? = some row → row.wrapped = false) :
    Scanned lines c kept (y + n) now remove := by
  refine { h with
    le := hle, rest := ?_, at_start := Or.inr hstart, ranges := ?_, above := fun hkept => ?_ }
  · rw [← List.drop_drop, ← List.drop_drop, h.rest]
  · exact h.ranges.mono (Nat.le_add_right y n)
  · exact (h.above hkept).mono (by omega)

/-- The rows that continue the one at `y` make a logical line with it. -/
theorem logicalLine_of_takeWhile (hy : y + 1 < lines.length)
    (hfirst : y = 0 ∨ ∀ row, lines[y]? = some row → row.wrapped = false) :
    LogicalLine lines y (((lines.drop (y + 1)).takeWhile fun row => row.wrapped).length + 1) := by
  have hshort := (List.takeWhile_sublist (fun row : Row => row.wrapped)
    (l := lines.drop (y + 1))).length_le
  have hsplit := List.takeWhile_append_dropWhile (p := fun row : Row => row.wrapped)
    (l := lines.drop (y + 1))
  generalize htake : (lines.drop (y + 1)).takeWhile (fun row => row.wrapped) = front at *
  generalize hdrop : (lines.drop (y + 1)).dropWhile (fun row => row.wrapped) = back at *
  rw [List.length_drop] at hshort
  refine ⟨Nat.succ_pos _, by omega, hfirst, ?_, ?_⟩
  · intro i row hlt hend hrow
    have hget : front[i - (y + 1)]? = some row := by
      have hlt' : i - (y + 1) < front.length := by omega
      have hfront : (front ++ back)[i - (y + 1)]? = front[i - (y + 1)]? :=
        List.getElem?_append_left hlt'
      rw [← hfront, hsplit, List.getElem?_drop, Nat.add_sub_cancel' hlt]
      exact hrow
    have hmem := List.mem_of_getElem? hget
    rw [← htake] at hmem
    exact List.mem_takeWhile_imp hmem
  · intro row hrow
    have hget : back[0]? = some row := by
      have hindex : y + (front.length + 1) = y + 1 + front.length := by omega
      rw [hindex, ← List.getElem?_drop, ← hsplit, List.getElem?_append_right (le_refl _),
        Nat.sub_self] at hrow
      exact hrow
    cases back with
    | nil => cases hget
    | cons first back =>
        have hhead := List.head?_dropWhile_not (fun row : Row => row.wrapped) (lines.drop (y + 1))
        rw [hdrop] at hhead
        rw [List.getElem?_cons_zero, Option.some_inj] at hget
        rw [← hget]
        exact hhead

/-- The logical line at `y` is rewrapped, and its last rows are to be removed.
SRC: reflow.rs:155-205 -/
theorem Scanned.rewrap (h : Scanned lines c kept y now remove) (hline : LogicalLine lines y n)
    (hown : c < y ∨ y + n ≤ c) {group : List Row} (hgroup : group.length = n) {count : ℕ}
    (hcount : count ≤ n) (hkept : kept → c < y → count = 0) :
    Scanned lines c kept (y + n) (now.take y ++ group ++ now.drop (y + n))
      (if 0 < count then remove ++ [(y + n - count, count)] else remove) := by
  have hle := hline.le
  have hlen := h.length
  have htake : (now.take y).length = y := by
    rw [List.length_take]
    omega
  have hfront : (now.take y ++ group).length = y + n := by
    rw [List.length_append, htake, hgroup]
  constructor
  case le => exact hle
  case length =>
    rw [List.length_append, hfront, List.length_drop]
    omega
  case rest =>
    rw [← hfront, List.drop_left, hfront, ← List.drop_drop, h.rest, List.drop_drop]
  case at_start => exact Or.inr hline.next
  case own =>
    rw [← h.own]
    rcases hown with hbefore | hafter
    · rw [List.append_assoc, List.getElem?_append_left (by rw [htake]; exact hbefore),
        List.getElem?_take, if_pos hbefore]
    · rw [List.getElem?_append_right (by rw [hfront]; exact hafter), hfront, List.getElem?_drop,
        Nat.add_sub_cancel' hafter]
  case ranges =>
    split_ifs with hpos
    · exact h.ranges.concat (by omega) hpos (by omega)
    · exact h.ranges.mono (Nat.le_add_right y n)
  case above =>
    intro hk
    have habove := h.above hk
    split_ifs with hpos
    · rcases hown with hbefore | hafter
      · have hzero := hkept hk hbefore
        omega
      · exact habove.concat (by omega) hpos (by omega)
    · exact habove.mono (by omega)

/-- INTERNAL: The scan to its end.
SRC: reflow.rs:136-205 -/
theorem largerLoop_scanned {oldCols newCols : ℕ} (hpos : 1 ≤ oldCols) (hlt : oldCols < newCols)
    (hlines : ∀ row ∈ lines, Unwidened oldCols newCols row)
    (hkept : kept → ∀ y n, c < y → LogicalLine lines y n →
      KeepsRows oldCols newCols ((lines.drop y).take n)) (fuel : ℕ)
    (h : Scanned lines c kept y now remove) {r : List Row × List (ℕ × ℕ)}
    (hr : largerLoop oldCols newCols c fuel now y remove = some r) :
    ∃ y', Scanned lines c kept y' r.1 r.2 := by
  induction fuel generalizing y now remove with
  | zero => cases hr
  | succ fuel ih =>
      unfold largerLoop at hr
      rw [h.length] at hr
      by_cases hmore : y + 1 < lines.length
      · have hrest : now.drop (y + 1) = lines.drop (y + 1) := by
          rw [← List.drop_drop, ← List.drop_drop, h.rest]
        have hget : now[y + 1]? = lines[y + 1]? := by
          rw [← List.getElem?_drop (i := y), ← List.getElem?_drop (i := y), h.rest]
        rw [if_pos hmore, hget, List.getElem?_eq_getElem hmore, hrest, h.rest] at hr
        simp only [Option.bind_eq_bind, Option.bind_some] at hr
        cases hwrapped : lines[y + 1].wrapped with
        | false =>
            rw [hwrapped] at hr
            refine ih (h.skip hmore.le fun row hrow => ?_) hr
            rw [List.getElem?_eq_getElem hmore, Option.some_inj] at hrow
            rw [← hrow]
            exact hwrapped
        | true =>
            have hline := logicalLine_of_takeWhile hmore h.at_start
            simp only [hwrapped, Bool.not_true, Bool.false_eq_true, if_false] at hr
            generalize ((lines.drop (y + 1)).takeWhile fun row => row.wrapped).length + 1 = n at *
            split_ifs at hr with hown
            · exact ih (h.skip hline.le hline.next) hr
            · obtain ⟨⟨group, count⟩, hgroup, hr⟩ := Option.bind_eq_some_iff.mp hr
              have hlen : ((lines.drop y).take n).length = n := by
                have hle := hline.le
                rw [List.length_take, List.length_drop]
                omega
              have hne : (lines.drop y).take n ≠ [] := by
                intro hnil
                have hpos := hline.pos
                rw [hnil, List.length_nil] at hlen
                omega
              have hrewrapped := (yields_rewrapLarger hpos hlt hne fun row hrow =>
                hlines row (List.mem_of_mem_drop (List.mem_of_mem_take hrow))).of_eq hgroup
              have hcount : count ≤ n := hlen ▸ rewrapLarger_count hgroup
              refine ih (h.rewrap hline (by omega) (hrewrapped.1.trans hlen) hcount ?_) hr
              intro hk hbelow
              have hkeeps := hkept hk y n hbelow hline
              unfold KeepsRows at hkeeps
              rw [if_pos hlt] at hkeeps
              exact hkeeps _ hgroup
      · rw [if_neg hmore] at hr
        rw [← Option.some_inj.mp hr]
        exact ⟨y, h⟩

/-- INTERNAL: The lines of the larger width are counted, and the cursor is on its row if nothing is
removed below it.
SRC: reflow.rs:136-240 -/
theorem reflowLarger_counted {oldCols newCols : ℕ} (hpos : 1 ≤ oldCols) (hlt : oldCols < newCols)
    {b b' : Lines} (h : Tallied cap newRows row b)
    (hlines : ∀ row ∈ b.lines, Unwidened oldCols newCols row)
    (hb : reflowLarger b oldCols newCols newRows = some b') :
    Counted cap newRows b' ∧
      (KeptBelow oldCols newCols b → b'.lines[b'.ybase + b'.y]? = some row) := by
  unfold reflowLarger at hb
  obtain ⟨⟨lines, remove⟩, hscan, hb⟩ := Option.bind_eq_some_iff.mp hb
  have hstart : Scanned b.lines (b.ybase + b.y) (KeptBelow oldCols newCols b) 0 b.lines [] := by
    refine ⟨Nat.zero_le _, rfl, rfl, Or.inl rfl, rfl, le_refl 0, fun _ => ?_⟩
    exact Nat.zero_le _
  obtain ⟨y, hscanned⟩ := largerLoop_scanned hpos hlt hlines (fun hkept => hkept) _ hstart hscan
  have hown := hscanned.own
  have hlen := hscanned.length
  dsimp only at hb hown hlen
  rw [h.cursor] at hown
  have hcursor := (List.getElem?_eq_some_iff.mp h.cursor).1
  have hbase := h.base_le
  have hy := h.y_lt
  have hcount := h.count
  split_ifs at hb with hnone
  · rw [← Option.some_inj.mp hb]
    exact ⟨⟨hlen.trans hcount, hbase, hy⟩, fun _ => hown⟩
  · obtain ⟨front, hdrop, hsum⟩ := dropRanges_spec lines 0 b.lines.length 0 remove
      (hscanned.ranges.mono hscanned.le) (by omega)
    rw [hdrop] at hb
    have hrest : lines.drop (b.lines.length - 0) = [] :=
      List.drop_eq_nil_of_le (by rw [hlen]; exact le_refl _)
    rw [hrest, List.append_nil] at hb hdrop
    obtain ⟨b'', heq, hcount', hbase', hy', -, hindex, hkeep⟩ := afterRemoved_tally
      newCols newRows (remove.map Prod.snd).sum { b with lines := front }
      (by dsimp only; omega)
    dsimp only at hb hbase' hy' hindex hkeep
    rw [heq] at hb
    rw [← Option.some_inj.mp hb]
    refine ⟨⟨hcount', hbase'.trans hbase, hy'.trans_lt hy⟩, fun hkept => ?_⟩
    -- all that was removed lay above the cursor
    obtain ⟨above, habove, hsum'⟩ := dropRanges_spec lines 0 (b.ybase + b.y) 0 remove
      ((hscanned.above hkept).mono (min_le_right _ _)) (by omega)
    rw [hdrop] at habove
    have hfront : front = above ++ lines.drop (b.ybase + b.y) := congrArg Prod.fst habove
    have hat : b''.ybase + b''.y = above.length := by
      have hmoved := hindex (by omega)
      omega
    show b''.lines[b''.ybase + b''.y]? = some row
    rw [hat]
    refine hkeep _ _ ?_
    rw [hfront, List.getElem?_append_right (le_refl _), Nat.sub_self, List.getElem?_drop]
    exact hown

/-! ## To a smaller width -/

/-- After `m` more steps of `afterAdded` the drawn lines are the last ones of those that there will
be, as far as the limit allows. -/
def Settling (cap newRows countToInsert m : ℕ) (r : Lines × ℕ) : Prop :=
  if r.1.ybase = 0 then
    (m + r.1.y + 1 ≤ newRows → r.2 + countToInsert = newRows + m) ∧
      (newRows < m + r.1.y + 1 → 2 * newRows ≤ r.2 + countToInsert + r.1.y ∧
        min (cap + newRows) (r.2 + countToInsert + r.1.y + 1 - newRows) ≤ m + r.1.y + 1)
  else
    r.1.ybase + newRows ≤ min (cap + newRows) (r.2 + countToInsert) ∧
      min (cap + newRows) (r.2 + countToInsert) ≤ r.1.ybase + newRows + m

/-- SRC: reflow.rs:337-353 -/
theorem afterAdded_tally (hcap : 1 ≤ cap) (countToInsert m : ℕ) (r : Lines × ℕ)
    (hmax : r.1.maxLen = cap + newRows) (hy : r.1.y < newRows) (hlive : newRows ≤ r.2 + r.1.y)
    (h : Settling cap newRows countToInsert m r) :
    ∃ b liveLen, (afterAdded newRows countToInsert)^[m] r = (b, liveLen) ∧
      b.lines = r.1.lines ∧ b.maxLen = r.1.maxLen ∧ b.y < newRows ∧
      liveLen + b.y = r.2 + r.1.y ∧ liveLen ≤ r.2 ∧
      b.ybase + newRows = min (cap + newRows) (liveLen + countToInsert) := by
  induction m generalizing r with
  | zero =>
      refine ⟨r.1, r.2, rfl, rfl, rfl, hy, rfl, le_refl _, ?_⟩
      unfold Settling at h
      split_ifs at h with hbase
      · have hlast := h.1 (by omega)
        omega
      · omega
  | succ m ih =>
      rw [Function.iterate_succ_apply]
      obtain ⟨b, liveLen⟩ := r
      unfold Settling at h
      dsimp only at hmax hy hlive h
      unfold afterAdded
      dsimp only
      by_cases hbase : b.ybase = 0
      · rw [if_pos hbase] at h
        obtain ⟨hfew, hmany⟩ := h
        by_cases hroom : b.y + 1 < newRows
        · -- a blank line at the end makes room
          rw [if_pos hbase, if_pos hroom]
          have hnext : Settling cap newRows countToInsert m
              ({ b with y := b.y + 1 }, liveLen - 1) := by
            unfold Settling
            dsimp only
            rw [if_pos hbase]
            refine ⟨fun hle => ?_, fun hlt => ?_⟩
            · have hnow := hfew (by omega)
              omega
            · have hnow := hmany (by omega)
              omega
          obtain ⟨b', liveLen', heq, hlines, hmax', hy', hsum, hle, hsettled⟩ :=
            ih _ hmax hroom (by dsimp only; omega) hnext
          dsimp only at hlines hmax' hsum hle
          exact ⟨b', liveLen', heq, hlines, hmax', hy', by omega, by omega, hsettled⟩
        · rw [if_pos hbase, if_neg hroom]
          have hnext : Settling cap newRows countToInsert m
              ({ b with ybase := b.ybase + 1 }, liveLen) := by
            have hnow := hmany (by omega)
            unfold Settling
            dsimp only
            rw [if_neg (Nat.succ_ne_zero _)]
            omega
          exact ih _ hmax hy hlive hnext
      · rw [if_neg hbase] at h
        rw [if_neg hbase]
        split_ifs with hbelow
        · have hnext : Settling cap newRows countToInsert m
              ({ b with ybase := b.ybase + 1 }, liveLen) := by
            unfold Settling
            dsimp only
            rw [if_neg (Nat.succ_ne_zero _)]
            omega
          exact ih _ hmax hy hlive hnext
        · have hnext : Settling cap newRows countToInsert m (b, liveLen) := by
            unfold Settling
            dsimp only
            rw [if_neg hbase]
            omega
          exact ih _ hmax hy hlive hnext

/-- The number of steps that the source makes for a group is the right one. -/
theorem settling_start {b : Lines} {liveLen countToInsert : ℕ} (add : ℕ) (toAdd : ℤ) (hcap : 1 ≤ cap)
    (hmax : b.maxLen = cap + newRows) (hlive : liveLen ≤ cap + newRows) {trimmed : ℤ}
    (hadd : add = toAdd.toNat) (htrimmed : trimmed = if b.ybase = 0 ∧ b.y + 1 ≠ liveLen
      then max (b.y - b.maxLen + toAdd) 0 else max (liveLen - b.maxLen + toAdd) 0)
    (h : b.ybase + newRows = min (cap + newRows) (liveLen + countToInsert)) :
    Settling cap newRows (countToInsert + add) (toAdd - trimmed).toNat (b, liveLen) := by
  unfold Settling
  dsimp only
  by_cases hbase : b.ybase = 0
  · rw [if_pos hbase]
    by_cases hlast : b.y + 1 = liveLen
    · rw [if_neg (fun hboth => hboth.2 hlast)] at htrimmed
      omega
    · rw [if_pos ⟨hbase, hlast⟩] at htrimmed
      omega
  · rw [if_neg (fun hboth => hbase hboth.1)] at htrimmed
    rw [if_neg hbase]
    omega

theorem groupStart_spec {y start : ℕ} (h : groupStart lines y = some start) :
    start ≤ y ∧ (start = 0 ∨ ∀ row, lines[start]? = some row → row.wrapped = false) ∧
      ∀ i row, start < i → i ≤ y → lines[i]? = some row → row.wrapped = true := by
  induction y with
  | zero =>
      rw [← Option.some_inj.mp h]
      exact ⟨le_refl 0, Or.inl rfl, fun i row hlt hle => by omega⟩
  | succ y ih =>
      unfold groupStart at h
      obtain ⟨row, hrow, h⟩ := Option.bind_eq_some_iff.mp h
      split_ifs at h with hwrapped
      · obtain ⟨hle, hfirst, hrest⟩ := ih h
        refine ⟨by omega, hfirst, fun i line hlt hi hline => ?_⟩
        rcases Nat.lt_or_eq_of_le hi with hbefore | rfl
        · exact hrest i line hlt (by omega) hline
        · rw [hrow, Option.some_inj] at hline
          rw [← hline]
          exact hwrapped
      · rw [← Option.some_inj.mp h]
        refine ⟨le_refl _, Or.inr fun line hline => ?_, fun i line hlt hle => by omega⟩
        rw [hrow, Option.some_inj] at hline
        rw [← hline]
        exact Bool.eq_false_iff.mpr hwrapped

/-- The scan from the last line up: those before `y` are as they were, the lines to be inserted are
counted, and none of them goes below the cursor if nothing is added there. -/
structure Tally (cap newRows c y₀ ybase₀ : ℕ) (lines : List Row) (kept : Prop) (y : ℕ) (u : Unwrap) :
    Prop where
  le : y ≤ lines.length
  length : u.b.lines.length = lines.length
  before : u.b.lines.take y = lines.take y
  next : ∀ row, lines[y]? = some row → y = 0 ∨ row.wrapped = false
  max_eq : u.b.maxLen = cap + newRows
  y_lt : u.b.y < newRows
  sum : u.liveLen + u.b.y = lines.length + y₀
  live_le : u.liveLen ≤ lines.length
  base : u.b.ybase + newRows = min (cap + newRows) (u.liveLen + u.countToInsert)
  inserts : (u.toInsert.map fun p => p.2.length).sum = u.countToInsert
  own : kept → u.b.lines[c]? = lines[c]?
  below : kept → c < y → u.b.ybase = ybase₀ ∧ u.b.y = y₀ ∧ u.toInsert = []
  above : kept → ∀ p ∈ u.toInsert, 0 < p.1 ∧ p.1 ≤ c

variable {y₀ ybase₀ : ℕ} {u : Unwrap}

theorem Tally.skip (h : Tally cap newRows c y₀ ybase₀ lines kept y u) {y' : ℕ} (hle : y' ≤ y)
    (hnext : ∀ row, lines[y']? = some row → y' = 0 ∨ row.wrapped = false) :
    Tally cap newRows c y₀ ybase₀ lines kept y' u := by
  refine { h with le := hle.trans h.le, before := ?_, next := hnext, below := ?_ }
  · have htake := congrArg (List.take y') h.before
    rw [List.take_take, List.take_take, min_eq_left hle] at htake
    exact htake
  · exact fun hkept hlt => h.below hkept (hlt.trans_le hle)

/-- INTERNAL: One group, rewrapped and put back.
SRC: reflow.rs:264-364 -/
theorem Tally.rewrap {oldCols newCols start : ℕ} {u' : Unwrap} (hnew : 2 ≤ newCols)
    (hlt : newCols < oldCols) (hcap : 1 ≤ cap) (hmany : newRows ≤ lines.length)
    (hfew : lines.length ≤ cap + newRows) (hlines : ∀ row ∈ lines, Cropped oldCols row)
    (h : Tally cap newRows c y₀ ybase₀ lines kept (y + 1) u)
    (hline : LogicalLine lines start (y - start + 1)) (hstart : start ≤ y)
    (hown : kept → c < start ∨ y < c)
    (hkeeps : kept → c < start →
      KeepsRows oldCols newCols ((lines.drop start).take (y - start + 1)))
    (hu : unwrapGroup oldCols newCols newRows u start y = some u') :
    Tally cap newRows c y₀ ybase₀ lines kept start u' := by
  have hle := h.le
  have hsum := h.sum
  have hlive := h.live_le
  have hlength := h.length
  have hend : start + (y - start + 1) = y + 1 := by omega
  have hsame : (u.b.lines.drop start).take (y - start + 1) =
      (lines.drop start).take (y - start + 1) := by
    have hdrop := congrArg (List.drop start) h.before
    rw [List.drop_take, List.drop_take] at hdrop
    have hn : y + 1 - start = y - start + 1 := by omega
    rw [hn] at hdrop
    exact hdrop
  unfold unwrapGroup at hu
  dsimp only at hu
  rw [hsame] at hu
  obtain ⟨⟨group, dest⟩, hgroup, hu⟩ := Option.bind_eq_some_iff.mp hu
  have hlen : ((lines.drop start).take (y - start + 1)).length = y - start + 1 := by
    rw [List.length_take, List.length_drop]
    omega
  have hne : (lines.drop start).take (y - start + 1) ≠ [] := by
    intro hnil
    rw [hnil, List.length_nil] at hlen
    omega
  obtain ⟨hgroupLen, -⟩ := (yields_rewrapSmaller hnew hlt hne fun row hrow =>
    hlines row (List.mem_of_mem_drop (List.mem_of_mem_take hrow))).of_eq hgroup
  rw [hlen] at hgroupLen
  dsimp only at hgroupLen hu
  generalize hn : y - start + 1 = n at *
  generalize htrimmed : (if u.b.ybase = 0 ∧ u.b.y + 1 ≠ u.liveLen then
    max ((u.b.y : ℤ) - u.b.maxLen + (dest.length - n)) 0
    else max ((u.liveLen : ℤ) - u.b.maxLen + (dest.length - n)) 0) = trimmed at hu
  have hsettling := settling_start (dest.length - n) ((dest.length : ℤ) - n) hcap h.max_eq
    (by omega : u.liveLen ≤ cap + newRows) (by omega) htrimmed.symm h.base
  obtain ⟨b, liveLen, heq, hblines, hbmax, hy, hbsum, hblive, hbase⟩ :=
    afterAdded_tally hcap (u.countToInsert + (dest.length - n)) _ (u.b, u.liveLen) h.max_eq h.y_lt
      (by dsimp only; omega) hsettling
  dsimp only at hblines hbmax hbsum hblive
  rw [heq] at hu
  obtain ⟨savedMax, -, hu⟩ := Option.bind_eq_some_iff.mp hu
  have htake : (b.lines.take start).length = start := by
    rw [hblines, List.length_take]
    omega
  have hgroupTake : (group.take n).length = n := by
    rw [List.length_take]
    omega
  have hfront : (b.lines.take start ++ group.take n).length = y + 1 := by
    rw [List.length_append, htake, hgroupTake]
    exact hend
  have hextra : (group.drop n).length = dest.length - n := by
    rw [List.length_drop]
    omega
  -- nothing is added below the cursor
  have hnone : kept → c < start → dest.length - n = 0 := by
    intro hk hbelow
    have hrows := hkeeps hk hbelow
    unfold KeepsRows at hrows
    rw [if_neg (by omega)] at hrows
    have hle := hrows _ hgroup
    rw [hlen] at hle
    exact Nat.sub_eq_zero_of_le hle
  rw [← Option.some_inj.mp hu]
  constructor
  case le => omega
  case length =>
    dsimp only
    rw [List.length_append, hfront, hblines, List.length_drop]
    omega
  case before =>
    dsimp only
    rw [List.append_assoc, List.take_append_of_le_length htake.ge, List.take_take, min_self, hblines]
    have hbefore := congrArg (List.take start) h.before
    rw [List.take_take, List.take_take, min_eq_left (by omega)] at hbefore
    exact hbefore
  case next =>
    intro row hrow
    rcases hline.first with hzero | hfirst
    · exact Or.inl hzero
    · exact Or.inr (hfirst row hrow)
  case max_eq => exact hbmax.trans h.max_eq
  case y_lt => exact hy
  case sum =>
    dsimp only
    omega
  case live_le =>
    dsimp only
    omega
  case base => exact hbase
  case inserts =>
    dsimp only
    have hold := h.inserts
    split_ifs with hempty
    · have hzero := List.length_eq_zero_iff.mpr (List.isEmpty_iff.mp hempty)
      omega
    · rw [List.map_append, List.sum_append, List.map_singleton, List.sum_singleton]
      dsimp only
      omega
  case own =>
    intro hk
    dsimp only
    have hold := h.own hk
    rw [← hold]
    rcases hown hk with hbefore | hafter
    · rw [List.append_assoc, List.getElem?_append_left (by rw [htake]; exact hbefore), hblines,
        List.getElem?_take, if_pos hbefore]
    · have hindex : start + n + (c - (y + 1)) = c := by omega
      rw [List.getElem?_append_right (by rw [hfront]; omega), hfront, hblines, List.getElem?_drop,
        hindex]
  case below =>
    intro hk hbelow
    obtain ⟨hybase, hyeq, hnoinsert⟩ := h.below hk (by omega)
    have hzero := hnone hk hbelow
    have hsteps : ((dest.length : ℤ) - n - trimmed).toNat = 0 := by
      have hpos : 0 ≤ trimmed := by
        rw [← htrimmed]
        split_ifs
        · exact le_max_right _ _
        · exact le_max_right _ _
      omega
    rw [hsteps] at heq
    obtain ⟨rfl, -⟩ := Prod.mk.inj heq
    have hnil : group.drop n = [] := List.length_eq_zero_iff.mp (hextra.trans hzero)
    dsimp only
    rw [hnil, if_pos List.isEmpty_nil]
    exact ⟨hybase, hyeq, hnoinsert⟩
  case above =>
    intro hk
    have hold := h.above hk
    dsimp only
    split_ifs with hempty
    · exact hold
    · rw [List.forall_mem_append, List.forall_mem_singleton]
      refine ⟨hold, Nat.succ_pos y, ?_⟩
      rcases hown hk with hbefore | hafter
      · have hzero := hextra.trans (hnone hk hbefore)
        exact absurd (List.isEmpty_iff.mpr (List.length_eq_zero_iff.mp hzero)) hempty
      · exact hafter

/-- INTERNAL: The scan to the first line.
SRC: reflow.rs:250-365 -/
theorem smallerLoop_tally {oldCols newCols : ℕ} {u' : Unwrap} (hnew : 2 ≤ newCols)
    (hlt : newCols < oldCols) (hcap : 1 ≤ cap) (hmany : newRows ≤ lines.length)
    (hfew : lines.length ≤ cap + newRows) (hlines : ∀ row ∈ lines, Cropped oldCols row)
    (hc : ybase₀ + y₀ = c) (hkept : kept → ∀ y n, c < y → LogicalLine lines y n →
      KeepsRows oldCols newCols ((lines.drop y).take n)) (fuel : ℕ)
    (h : Tally cap newRows c y₀ ybase₀ lines kept y u)
    (hu : smallerLoop oldCols newCols newRows fuel u y = some u') :
    Tally cap newRows c y₀ ybase₀ lines kept 0 u' := by
  induction fuel generalizing y u with
  | zero => cases hu
  | succ fuel ih =>
      unfold smallerLoop at hu
      cases y with
      | zero =>
          rw [← Option.some_inj.mp hu]
          exact h
      | succ y =>
          have hle := h.le
          have hget : ∀ i, i ≤ y → u.b.lines[i]? = lines[i]? := by
            intro i hi
            have hlt := Nat.lt_succ_of_le hi
            rw [← List.getElem?_take_of_lt hlt, h.before, List.getElem?_take_of_lt hlt]
          obtain ⟨row, hrow, hu⟩ := Option.bind_eq_some_iff.mp hu
          rw [hget y (le_refl y)] at hrow
          split_ifs at hu with hshort
          · refine ih (h.skip (Nat.le_succ y) fun line hline => Or.inr ?_) hu
            rw [hrow, Option.some_inj] at hline
            rw [← hline]
            exact Bool.eq_false_iff.mpr (by simpa using hshort.1)
          · obtain ⟨start, hstart, hu⟩ := Option.bind_eq_some_iff.mp hu
            obtain ⟨hstartLe, hfirst, hrest⟩ := groupStart_spec hstart
            have hline : LogicalLine lines start (y - start + 1) := by
              refine ⟨Nat.succ_pos _, by omega, ?_, ?_, ?_⟩
              · rw [← hget start hstartLe]
                exact hfirst
              · intro i line hlt hi hline
                refine hrest i line hlt (by omega) ?_
                rw [hget i (by omega)]
                exact hline
              · intro line hline
                have hend : start + (y - start + 1) = y + 1 := by omega
                rw [hend] at hline
                exact (h.next line hline).resolve_left (Nat.succ_ne_zero y)
            have hnext : ∀ line, lines[start]? = some line → start = 0 ∨ line.wrapped = false := by
              intro line hline'
              rcases hline.first with hzero | hfirst
              · exact Or.inl hzero
              · exact Or.inr (hfirst line hline')
            split_ifs at hu with hown
            · exact ih (h.skip (hstartLe.trans (Nat.le_succ y)) hnext) hu
            · obtain ⟨v, hv, hu⟩ := Option.bind_eq_some_iff.mp hu
              refine ih (h.rewrap hnew hlt hcap hmany hfew hlines hline hstartLe ?_ ?_ hv) hu
              · intro hk
                by_cases hbelow : c < y + 1
                · obtain ⟨hbase, hy, -⟩ := h.below hk hbelow
                  omega
                · omega
              · exact fun hk hbelow => hkept hk start _ hbelow hline

theorem insertLinesAt_nil (lines : List Row) (idx : ℕ) : insertLinesAt lines idx [] = lines := by
  induction lines generalizing idx with
  | nil => rfl
  | cons line lines ih =>
      unfold insertLinesAt
      rw [List.dropWhile_nil, ih]
      rfl

theorem length_insertLinesAt (lines : List Row) (idx : ℕ) (pending : List (ℕ × List Row)) :
    (insertLinesAt lines idx pending).length =
      lines.length + (pending.map fun p => p.2.length).sum := by
  induction lines generalizing idx pending with
  | nil =>
      unfold insertLinesAt
      rw [List.length_flatMap, List.length_nil, Nat.zero_add]
  | cons line lines ih =>
      have hsplit := congrArg (fun l : List (ℕ × List Row) => (l.map fun p => p.2.length).sum)
        (List.takeWhile_append_dropWhile (p := fun p : ℕ × List Row => p.1 = idx + 1)
          (l := pending))
      rw [List.map_append, List.sum_append] at hsplit
      unfold insertLinesAt
      rw [List.length_append, List.length_cons, List.length_flatMap, ih, List.length_cons]
      omega

theorem insertLinesAt_end (lines : List Row) {pending : List (ℕ × List Row)}
    (hlo : ∀ p ∈ pending, c < p.1) (hhi : ∀ p ∈ pending, p.1 ≤ c) :
    insertLinesAt lines c pending = lines := by
  have hnil : pending = [] := by
    rw [List.eq_nil_iff_forall_not_mem]
    intro p hp
    have hlt := hlo p hp
    have hle := hhi p hp
    omega
  rw [hnil, insertLinesAt_nil]

/-- Where all lines are inserted at `c` or before, those from `c` on stay together.
SRC: reflow.rs:374-384 -/
theorem insertLinesAt_suffix (lines : List Row) (idx : ℕ) {pending : List (ℕ × List Row)}
    (hsorted : pending.Pairwise fun p q => p.1 ≤ q.1) (hlo : ∀ p ∈ pending, idx < p.1)
    (hhi : ∀ p ∈ pending, p.1 ≤ c) (hle : idx ≤ c) (hlen : c ≤ idx + lines.length) :
    ∃ front, insertLinesAt lines idx pending = front ++ lines.drop (c - idx) := by
  by_cases hidx : idx = c
  · subst hidx
    rw [insertLinesAt_end lines hlo hhi, Nat.sub_self]
    exact ⟨[], rfl⟩
  induction lines generalizing idx pending with
  | nil =>
      rw [List.length_nil] at hlen
      omega
  | cons line lines ih =>
      have hdrop : (line :: lines).drop (c - idx) = lines.drop (c - (idx + 1)) := by
        have hsucc : c - idx = c - (idx + 1) + 1 := by omega
        rw [hsucc, List.drop_succ_cons]
      rw [List.length_cons] at hlen
      have hsub := List.dropWhile_sublist (fun p : ℕ × List Row => decide (p.1 = idx + 1))
        (l := pending)
      have hlo' : ∀ p ∈ pending.dropWhile (fun p => decide (p.1 = idx + 1)), idx + 1 < p.1 := by
        have hhead := List.head?_dropWhile_not (fun p : ℕ × List Row => decide (p.1 = idx + 1)) pending
        have hpairs := hsorted.sublist hsub
        have hmem : ∀ p ∈ pending.dropWhile (fun p => decide (p.1 = idx + 1)), idx < p.1 :=
          fun p hp => hlo p (hsub.subset hp)
        generalize pending.dropWhile (fun p => decide (p.1 = idx + 1)) = rest at hhead hpairs hmem ⊢
        cases rest with
        | nil => exact fun p hp => absurd hp List.not_mem_nil
        | cons first rest =>
            have hne : first.1 ≠ idx + 1 := of_decide_eq_false hhead
            have hlt := hmem first List.mem_cons_self
            intro p hp
            rcases List.mem_cons.mp hp with rfl | hp
            · omega
            · have hle := (List.pairwise_cons.mp hpairs).1 p hp
              omega
      unfold insertLinesAt
      rw [hdrop]
      have hrest : ∃ front, insertLinesAt lines (idx + 1)
          (pending.dropWhile fun p => decide (p.1 = idx + 1)) =
          front ++ lines.drop (c - (idx + 1)) := by
        have hhi' : ∀ p ∈ pending.dropWhile (fun p => decide (p.1 = idx + 1)), p.1 ≤ c :=
          fun p hp => hhi p (hsub.subset hp)
        by_cases hend : idx + 1 = c
        · subst hend
          rw [insertLinesAt_end lines hlo' hhi', Nat.sub_self]
          exact ⟨[], rfl⟩
        · exact ih (idx + 1) (hsorted.sublist hsub) hlo' hhi' (by omega) (by omega) hend
      obtain ⟨front, hfront⟩ := hrest
      rw [hfront, ← List.append_assoc]
      exact ⟨_, rfl⟩

/-- INTERNAL: The lines of the smaller width are counted, and the cursor is on its row if nothing is
added below it.
SRC: reflow.rs:242-388 -/
theorem reflowSmaller_counted {oldCols newCols : ℕ} (hnew : 2 ≤ newCols) (hlt : newCols < oldCols)
    (hcap : 1 ≤ cap) {b b' : Lines} (h : Tallied cap newRows row b)
    (hlines : ∀ row ∈ b.lines, Cropped oldCols row)
    (hb : reflowSmaller b oldCols newCols newRows = some b') :
    Counted cap newRows b' ∧
      (KeptBelow oldCols newCols b → b'.lines[b'.ybase + b'.y]? = some row) := by
  have hcount := h.count
  have hbase := h.base_le
  have hy := h.y_lt
  have hmax := h.max_eq
  unfold reflowSmaller at hb
  obtain ⟨u, hscan, hb⟩ := Option.bind_eq_some_iff.mp hb
  have hstart : Tally cap newRows (b.ybase + b.y) b.y b.ybase b.lines (KeptBelow oldCols newCols b)
      b.lines.length ⟨b, [], 0, b.lines.length⟩ := by
    constructor
    case le => exact le_refl _
    case length => rfl
    case before => rfl
    case next =>
      intro row hrow
      rw [List.getElem?_eq_none (le_refl _)] at hrow
      cases hrow
    case max_eq => exact hmax
    case y_lt => exact hy
    case sum => rfl
    case live_le => exact le_refl _
    case base =>
      dsimp only
      omega
    case inserts => rfl
    case own => exact fun _ => rfl
    case below => exact fun _ _ => ⟨rfl, rfl, rfl⟩
    case above => exact fun _ p hp => absurd hp List.not_mem_nil
  have htally := smallerLoop_tally hnew hlt hcap (by omega) (by omega) hlines rfl
    (fun hkept => hkept) _ hstart hscan
  have hlive := htally.live_le
  have hlen := htally.length
  have hbase' := htally.base
  have hsum := htally.sum
  have hy' := htally.y_lt
  have htake : (u.b.lines.take u.liveLen).length = u.liveLen := by
    rw [List.length_take]
    omega
  have hown : KeptBelow oldCols newCols b →
      (u.b.lines.take u.liveLen)[b.ybase + b.y]? = some row := by
    intro hkept
    rw [List.getElem?_take_of_lt (by omega), htally.own hkept]
    exact h.cursor
  have hinserts := htally.inserts
  dsimp only at hb
  split_ifs at hb with hnone
  · rw [List.isEmpty_iff.mp hnone, List.map_nil, List.sum_nil] at hinserts
    rw [← Option.some_inj.mp hb]
    refine ⟨⟨?_, ?_, hy'⟩, fun hkept => ?_⟩
    · dsimp only
      omega
    · dsimp only
      omega
    · dsimp only
      have hindex : u.b.ybase + u.b.y = b.ybase + b.y := by omega
      rw [hindex]
      exact hown hkept
  · have hperm := List.perm_insertionSort (fun p q : ℕ × List Row => p.1 ≤ q.1) u.toInsert
    have hout := length_insertLinesAt (u.b.lines.take u.liveLen) 0
      (u.toInsert.insertionSort fun p q => p.1 ≤ q.1)
    rw [(hperm.map _).sum_eq, hinserts, htake] at hout
    have hmax' := htally.max_eq
    rw [← Option.some_inj.mp hb]
    refine ⟨⟨?_, ?_, hy'⟩, fun hkept => ?_⟩
    · dsimp only
      rw [List.length_drop]
      omega
    · dsimp only
      omega
    · dsimp only
      have hplaces : ∀ p ∈ u.toInsert.insertionSort fun p q => p.1 ≤ q.1,
          0 < p.1 ∧ p.1 ≤ b.ybase + b.y :=
        fun p hp => htally.above hkept p (hperm.subset hp)
      obtain ⟨front, hfront⟩ := insertLinesAt_suffix (c := b.ybase + b.y)
        (u.b.lines.take u.liveLen) 0 (List.pairwise_insertionSort _ u.toInsert)
        (fun p hp => (hplaces p hp).1) (fun p hp => (hplaces p hp).2) (Nat.zero_le _) (by omega)
      rw [Nat.sub_zero] at hfront
      rw [hfront, List.length_append, List.length_drop, htake] at hout
      rw [hfront, List.getElem?_drop, List.length_append, List.length_drop, htake]
      have hindex : front.length + (u.liveLen - (b.ybase + b.y)) - u.b.maxLen +
          (u.b.ybase + u.b.y) = front.length := by omega
      rw [hindex, List.getElem?_append_right (le_refl _), Nat.sub_self, List.getElem?_drop]
      exact hown hkept

/-! ## The resize -/

/-- A row at the new width: a wide character that does not fit is blanked, the rest cut or padded. -/
def fitRow (cols : ℕ) (row : Row) : Row :=
  { cropLine cols row with cells := resizeCells (cropLine cols row).cells cols Cell.new }

theorem length_cutLines (cols : ℕ) (b : Lines) : (cutLines cols b).length = b.lines.length := by
  unfold cutLines
  rw [List.length_append, List.length_map, ← List.length_append, List.take_append_drop,
    List.length_map]

theorem cutLines_cursor {cols : ℕ} {b : Lines} (h : b.lines[b.ybase + b.y]? = some row) :
    (cutLines cols b)[b.ybase + b.y]? = some (fitRow cols row) := by
  have hlt := (List.getElem?_eq_some_iff.mp h).1
  have htake : ((b.lines.map (cropLine cols)).take b.ybase).length = b.ybase := by
    rw [List.length_take, List.length_map]
    omega
  unfold cutLines
  rw [List.getElem?_append_right (by rw [htake]; exact Nat.le_add_right _ _), htake,
    Nat.add_sub_cancel_left, List.getElem?_map, List.getElem?_drop, List.getElem?_map, h]
  rfl

/-- A row that is padded to the larger width beforehand is the same afterwards. -/
theorem fitRow_padded {cols : ℕ} {row : Row} (h : row.cells.length ≤ cols) :
    fitRow cols { row with cells := resizeCells row.cells cols Cell.new } = fitRow cols row := by
  have hlen := length_resizeCells row.cells cols Cell.new
  have hcrop : ∀ line : Row, line.cells.length ≤ cols → cropLine cols line = line :=
    fun line hline => if_neg (Nat.not_lt.mpr hline)
  have hagain : resizeCells (resizeCells row.cells cols Cell.new) cols Cell.new =
      resizeCells row.cells cols Cell.new := by
    have hself : ∀ cells : List Cell, cells.length = cols → resizeCells cells cols Cell.new = cells := by
      intro cells hcells
      unfold resizeCells
      rw [List.take_of_length_le hcells.le, hcells, Nat.sub_self, List.replicate_zero,
        List.append_nil]
    exact hself _ hlen
  unfold fitRow
  rw [hcrop _ hlen.le, hcrop row h]
  exact congrArg (fun cells => Row.mk cells row.wrapped) hagain

/-- Lines that are counted are neither padded nor cut off. -/
theorem padLines_counted {cols : ℕ} {b : Lines} (h : b.lines.length = b.ybase + newRows) :
    padLines cols (b.ybase + newRows) (cutLines cols b) = cutLines cols b := by
  have hlen := (length_cutLines cols b).trans h
  unfold padLines
  rw [hlen, Nat.sub_self, List.replicate_zero, List.append_nil, List.take_of_length_le hlen.le]

theorem setSize_rows {g g' : Grid} {size : Size} {reflow : Bool} {r : Lines × ℕ} {b : Lines}
    (hne : size ≠ g.size) (hgather : g.gather size = some r)
    (hrewrapped : rewrapped g.size.cols size reflow r.1 = some b)
    (hset : g.setSize size reflow = some g') (hcount : b.lines.length = b.ybase + size.rows)
    (hy : b.y < size.rows) :
    g'.scrollback.length = b.ybase ∧ g'.scrollbackLen = g.scrollbackLen ∧
      g'.rows[g'.pos.row]? = (cutLines size.cols b)[b.ybase + b.y]? := by
  rw [setSize_eq, if_neg hne, hgather] at hset
  simp only [Option.bind_eq_bind, Option.bind_some] at hset
  rw [hrewrapped, Option.bind_some] at hset
  obtain ⟨lastRow, hlastRow, hset⟩ := Option.bind_eq_some_iff.mp hset
  obtain ⟨lastCol, -, hset⟩ := Option.bind_eq_some_iff.mp hset
  obtain ⟨padded, hpadded, hset⟩ := Option.bind_eq_some_iff.mp hset
  obtain ⟨tabStops, -, hset⟩ := Option.bind_eq_some_iff.mp hset
  obtain ⟨-, hlast⟩ := checkedSub_eq_some hlastRow
  rw [padLines_counted hcount] at hpadded
  have hlen := (length_cutLines size.cols b).trans hcount
  unfold Grid.padScrollbackWindow putLines at hpadded
  obtain ⟨skip, -, hpadded⟩ := Option.bind_eq_some_iff.mp hpadded
  have hmin : min b.y lastRow = b.y := min_eq_left (by omega)
  rw [← Option.some_inj.mp hset, ← Option.some_inj.mp hpadded]
  refine ⟨?_, rfl, ?_⟩
  · simp only [List.length_append, List.length_take, List.length_drop, List.length_map, hlen]
    omega
  · dsimp only
    rw [hmin, List.getElem?_drop]

/-- **The lines of a resize are counted.** When they reach the padding there are as many of them as
there are to be, and the scrollback is within its limit. The cursor stays on its row if no logical
line below it gains or loses rows. A reflow to a smaller width needs room in the scrollback.
SRC: reflow.rs:135-508 -/
theorem resize_counted (size : Size) (reflow : Bool) {frame : Frame} {g : Grid} (h : Fits frame g)
    (hdrawn : g.rows.length = g.size.rows) (hrows : 1 ≤ size.rows) (hcols : 1 ≤ size.cols)
    (hmax : size.cols ≤ u16Max) (hne : size ≠ g.size)
    (hroom : reflow = true → 2 ≤ size.cols → size.cols < g.size.cols → 1 ≤ g.scrollbackLen) :
    ∃ r b g', g.gather size = some r ∧ rewrapped g.size.cols size reflow r.1 = some b ∧
      g.setSize size reflow = some g' ∧ (cutLines size.cols b).length = b.ybase + size.rows ∧
      g'.scrollback.length = b.ybase ∧ g'.scrollback.length ≤ g'.scrollbackLen ∧
      ((reflow = true → g.size.cols ≠ size.cols → 2 ≤ size.cols →
          KeptBelow g.size.cols size.cols r.1) →
        g'.rows[g'.pos.row]? = (g.rows[g.pos.row]?).map (fitRow size.cols)) := by
  have hcapEq := h.cap_eq
  have hcap : reflow = true → 2 ≤ size.cols → size.cols < g.size.cols → 1 ≤ frame.cap := by
    rw [← hcapEq]
    exact hroom
  have hposRow := h.pos_row
  rw [← h.size_eq] at hposRow
  have hback := h.history_len
  rw [← hcapEq] at hback
  have hcolsPos : 1 ≤ g.size.cols := by
    rw [h.size_eq]
    exact h.cols_pos
  obtain ⟨r, hgather, b, hrewrapped, -⟩ := yields_reflowed h hrows hcap
  replace hrewrapped : rewrapped g.size.cols size reflow r.1 = some b := hrewrapped
  obtain ⟨g', hset, -⟩ := yields_setSize h hrows hcols hmax hcap hne
  obtain ⟨row, hrow⟩ : ∃ row, g.rows[g.pos.row]? = some row :=
    ⟨_, List.getElem?_eq_getElem (by omega)⟩
  have hwide : row.cells.length = g.size.cols := by
    rw [h.size_eq]
    exact (h.rows_fit row (List.mem_of_getElem? hrow)).1
  -- the row that the gathered cursor is on, and what becomes of it
  obtain ⟨line, hline, hfit⟩ : ∃ line, (if g.size.cols < size.cols then
      g.rows.map fun line => { line with cells := resizeCells line.cells size.cols Cell.new }
      else g.rows)[g.pos.row]? = some line ∧ fitRow size.cols line = fitRow size.cols row := by
    split_ifs with hlt
    · rw [List.getElem?_map, hrow]
      exact ⟨_, rfl, fitRow_padded (by omega)⟩
    · exact ⟨row, hrow, rfl⟩
  have htallied := gather_tallied hdrawn hposRow hback hgather hline
  obtain ⟨hcounted, hcursor⟩ : Counted g.scrollbackLen size.rows b ∧
      ((reflow = true → g.size.cols ≠ size.cols → 2 ≤ size.cols →
          KeptBelow g.size.cols size.cols r.1) →
        b.lines[b.ybase + b.y]? = some line) := by
    unfold rewrapped at hrewrapped
    split_ifs at hrewrapped with hreflow hlt
    · obtain ⟨hcounted, hcursor⟩ := reflowLarger_counted hcolsPos hlt htallied
        ((yields_gather_larger h hrows hlt).of_eq hgather).1 hrewrapped
      exact ⟨hcounted, fun hkept => hcursor (hkept hreflow.1 hreflow.2.1 hreflow.2.2)⟩
    · have hfewer : size.cols < g.size.cols :=
        lt_of_le_of_ne (Nat.le_of_not_lt hlt) (Ne.symm hreflow.2.1)
      obtain ⟨hcounted, hcursor⟩ := reflowSmaller_counted hreflow.2.2 hfewer
        (hroom hreflow.1 hreflow.2.2 hfewer) htallied
        ((yields_gather_smaller h hrows hfewer.le).of_eq hgather).1 hrewrapped
      exact ⟨hcounted, fun hkept => hcursor (hkept hreflow.1 hreflow.2.1 hreflow.2.2)⟩
    · rw [← Option.some_inj.mp hrewrapped]
      exact ⟨htallied.toCounted, fun _ => htallied.cursor⟩
  obtain ⟨hlen, hlimit, hcut⟩ :=
    setSize_rows hne hgather hrewrapped hset hcounted.count hcounted.y_lt
  refine ⟨r, b, g', hgather, hrewrapped, hset, ?_, hlen, ?_, fun hkept => ?_⟩
  · rw [length_cutLines]
    exact hcounted.count
  · rw [hlen, hlimit]
    exact hcounted.base_le
  · rw [hcut, cutLines_cursor (hcursor hkept), hfit, hrow]
    rfl

end

/-- Two rows of output, made narrower. -/
theorem resize_counted_narrower : ∃ s callbacks r b g',
    ((Screen.new ⟨2, 4⟩ 1).bind fun s => s.performAll asciiWidth
      ("abcdef".toList.map Vt.Action.print)) = some (s, callbacks) ∧
    s.grid.gather ⟨2, 3⟩ = some r ∧ rewrapped s.grid.size.cols ⟨2, 3⟩ true r.1 = some b ∧
    s.grid.setSize ⟨2, 3⟩ true = some g' ∧ (cutLines 3 b).length = b.ybase + 2 ∧
    g'.scrollback.length = b.ybase ∧ g'.scrollback.length ≤ g'.scrollbackLen ∧
    ((true = true → s.grid.size.cols ≠ 3 → 2 ≤ 3 → KeptBelow s.grid.size.cols 3 r.1) →
      g'.rows[g'.pos.row]? = (s.grid.rows[s.grid.pos.row]?).map (fitRow 3)) := by
  have hnew : Yields (Screen.new ⟨2, 4⟩ 1) (ScreenFits False ⟨2, 4⟩ 1) :=
    yields_screenNew (by decide) (by decide) (by decide) 1
  obtain ⟨s₀, hs₀, hfits⟩ := hnew
  obtain ⟨⟨s, callbacks⟩, hs, hkept⟩ := yields_performAll widthLaw_ascii hfits
    ("abcdef".toList.map Vt.Action.print) False.elim
  dsimp only at hkept
  have hsize := hkept.main.size_eq
  have hcap := hkept.main.cap_eq
  have hlen := hkept.main.rows_len
  dsimp only at hsize hcap hlen
  obtain ⟨r, b, g', hresult⟩ := resize_counted ⟨2, 3⟩ true hkept.main
    (hlen.trans (congrArg Size.rows hsize).symm) (by decide) (by decide) (by decide)
    (by rw [hsize]; decide) (fun _ _ _ => hcap.ge)
  refine ⟨s, callbacks, r, b, g', ?_, hresult⟩
  rw [hs₀]
  exact hs

/-- Where the counts do not agree. A logical line below the cursor that needs one row less takes the
cursor one row up, to another line. Without a scrollback, the rows that a line gains make the list
too long, and it is cut and then padded. Rows that were never drawn are padded too. -/
theorem resize_not_counted :
    (∃ s callbacks g', ((Screen.new ⟨4, 4⟩ 1).bind fun s => s.performAll asciiWidth
        [.print 'x', .execute 0x0d, .execute 0x0a, .print 'y', .execute 0x0d, .execute 0x0a,
          .print 'a', .print 'b', .print 'c', .print 'd', .print 'e',
          .csiDispatch [[2]] [] 'A']) = some (s, callbacks) ∧
      s.grid.setSize ⟨4, 8⟩ true = some g' ∧
      g'.rows[g'.pos.row]? ≠ (s.grid.rows[s.grid.pos.row]?).map (fitRow 8) ∧
      g'.rows[g'.pos.row + 1]? = (s.grid.rows[s.grid.pos.row]?).map (fitRow 8)) ∧
    (∃ s callbacks r b g', ((Screen.new ⟨3, 6⟩ 0).bind fun s => s.performAll asciiWidth
        [.print 'a', .print 'b', .print 'c', .print 'd', .print 'e', .print 'f',
          .execute 0x0d, .execute 0x0a, .print 'x']) = some (s, callbacks) ∧
      s.grid.gather ⟨3, 2⟩ = some r ∧ rewrapped 6 ⟨3, 2⟩ true r.1 = some b ∧
      s.grid.setSize ⟨3, 2⟩ true = some g' ∧ (cutLines 2 b).length < b.ybase + 3 ∧
      g'.scrollbackLen < g'.scrollback.length) ∧
    ∃ s r b, Screen.new ⟨2, 2⟩ 0 = some s ∧ s.alternateGrid.gather ⟨3, 2⟩ = some r ∧
      rewrapped 2 ⟨3, 2⟩ false r.1 = some b ∧ (cutLines 2 b).length < b.ybase + 3 := by
  refine ⟨?_, ?_, ?_⟩
  · have hrun : (((Screen.new ⟨4, 4⟩ 1).bind fun s => s.performAll asciiWidth
        [.print 'x', .execute 0x0d, .execute 0x0a, .print 'y', .execute 0x0d, .execute 0x0a,
          .print 'a', .print 'b', .print 'c', .print 'd', .print 'e',
          .csiDispatch [[2]] [] 'A']).bind fun r => (r.1.grid.setSize ⟨4, 8⟩ true).map fun g' =>
        (decide (g'.rows[g'.pos.row]? = (r.1.grid.rows[r.1.grid.pos.row]?).map (fitRow 8)),
          decide (g'.rows[g'.pos.row + 1]? =
            (r.1.grid.rows[r.1.grid.pos.row]?).map (fitRow 8)))) = some (false, true) := by
      decide +kernel
    obtain ⟨⟨s, callbacks⟩, hs, hrun⟩ := Option.bind_eq_some_iff.mp hrun
    obtain ⟨g', hg', heq⟩ := Option.map_eq_some_iff.mp hrun
    obtain ⟨hnot, hbelow⟩ := Prod.mk.inj heq
    exact ⟨s, callbacks, g', hs, hg', of_decide_eq_false hnot, of_decide_eq_true hbelow⟩
  · have hrun : (((Screen.new ⟨3, 6⟩ 0).bind fun s => s.performAll asciiWidth
        [.print 'a', .print 'b', .print 'c', .print 'd', .print 'e', .print 'f',
          .execute 0x0d, .execute 0x0a, .print 'x']).bind fun r =>
        (r.1.grid.gather ⟨3, 2⟩).bind fun l => (rewrapped 6 ⟨3, 2⟩ true l.1).bind fun b =>
          (r.1.grid.setSize ⟨3, 2⟩ true).map fun g' =>
            (decide ((cutLines 2 b).length < b.ybase + 3),
              decide (g'.scrollbackLen < g'.scrollback.length))) = some (true, true) := by
      decide +kernel
    obtain ⟨⟨s, callbacks⟩, hs, hrun⟩ := Option.bind_eq_some_iff.mp hrun
    obtain ⟨r, hr, hrun⟩ := Option.bind_eq_some_iff.mp hrun
    obtain ⟨b, hb, hrun⟩ := Option.bind_eq_some_iff.mp hrun
    obtain ⟨g', hg', heq⟩ := Option.map_eq_some_iff.mp hrun
    obtain ⟨hpadded, hlong⟩ := Prod.mk.inj heq
    exact ⟨s, callbacks, r, b, g', hs, hr, hb, hg', of_decide_eq_true hpadded,
      of_decide_eq_true hlong⟩
  · have hrun : ((Screen.new ⟨2, 2⟩ 0).bind fun s => (s.alternateGrid.gather ⟨3, 2⟩).bind fun r =>
        (rewrapped 2 ⟨3, 2⟩ false r.1).map fun b =>
          decide ((cutLines 2 b).length < b.ybase + 3)) = some true := by decide +kernel
    obtain ⟨s, hs, hrun⟩ := Option.bind_eq_some_iff.mp hrun
    obtain ⟨r, hr, hrun⟩ := Option.bind_eq_some_iff.mp hrun
    obtain ⟨b, hb, hpadded⟩ := Option.map_eq_some_iff.mp hrun
    exact ⟨s, r, b, hs, hr, hb, of_decide_eq_true hpadded⟩

end Tymux.Analysis.Vt
