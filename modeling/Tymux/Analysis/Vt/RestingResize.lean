import Tymux.Analysis.Vt.Padding
import Tymux.Analysis.Vt.ResizeSteps
import Tymux.Analysis.Vt.Trimming
import Tymux.Lib.Renaming
import Tymux.Lib.Respects

/-!
# A resize and the padding of the scrollback

The reflow pads a group of rows before it rewraps it, and of other rows it sees the flag and how much
has content. What is left is the cut to the new width: a row that ends in the first half of a wide
character is cut there where it was padded, and kept where it was not. No row of a scrollback ends
so. `evenRow` pads all rows but those, and every step of the resize respects it.
-/

set_option autoImplicit false

namespace Tymux.Analysis.Vt

open Tymux.Lib Tymux.Model Tymux.Model.Vt

/-! ## Rows -/

/-- The row ends in the first half of a wide character. -/
def EndsWide (row : Row) : Prop := row.cells.getLast?.any (fun c => c.wide) = true

instance (row : Row) : Decidable (EndsWide row) := by
  unfold EndsWide
  infer_instance

/-- The row, padded unless it ends in the first half of a wide character. -/
def evenRow (cols : ℕ) (row : Row) : Row := if EndsWide row then row else fullRow cols row

section

variable {cols : ℕ} {row : Row}

theorem not_endsWide_of_paired (h : PairedCells row.cells) : ¬ EndsWide row := by
  unfold EndsWide
  cases hlast : row.cells.getLast? with
  | none => exact Bool.false_ne_true
  | some c =>
      rw [Option.any_some, not_wide_getLast h hlast]
      exact Bool.false_ne_true

theorem endsWide_fullRow (h : ¬ EndsWide row) (cols : ℕ) : ¬ EndsWide (fullRow cols row) := by
  unfold EndsWide fullRow at *
  dsimp only
  cases hn : cols - row.cells.length with
  | zero =>
      rw [List.replicate_zero, List.append_nil]
      exact h
  | succ n =>
      rw [List.replicate_succ', ← List.append_assoc, List.getLast?_concat]
      exact Bool.false_ne_true

theorem evenRow_of_not_endsWide (h : ¬ EndsWide row) : evenRow cols row = fullRow cols row := if_neg h

theorem fullRow_evenRow (cols : ℕ) (row : Row) : fullRow cols (evenRow cols row) = fullRow cols row := by
  unfold evenRow
  split_ifs
  · rfl
  · exact fullRow_fullRow (le_refl cols) row

theorem evenRow_idem (cols : ℕ) (row : Row) : evenRow cols (evenRow cols row) = evenRow cols row := by
  by_cases hwide : EndsWide row
  · have hsame : evenRow cols row = row := if_pos hwide
    rw [hsame, hsame]
  · rw [evenRow_of_not_endsWide hwide, evenRow_of_not_endsWide (endsWide_fullRow hwide cols),
      fullRow_fullRow (le_refl cols)]

/-- A row of the scrollback, padded to the old width or not. -/
theorem evenRow_fullRow {old : ℕ} (hold : old ≤ cols) (h : ¬ EndsWide row) :
    evenRow cols (fullRow old row) = evenRow cols row := by
  rw [evenRow_of_not_endsWide h, evenRow_of_not_endsWide (endsWide_fullRow h old),
    fullRow_fullRow hold]

@[simp] theorem wrapped_evenRow (cols : ℕ) (row : Row) :
    (evenRow cols row).wrapped = row.wrapped := by
  unfold evenRow
  split_ifs
  · rfl
  · rfl

@[simp] theorem trimmedLen_evenRow (cols : ℕ) (row : Row) :
    trimmedLen (evenRow cols row) = trimmedLen row := by
  unfold evenRow
  split_ifs
  · rfl
  · apply trimmedFrom_append_vacant
    intro c hc
    rw [List.eq_of_mem_replicate hc]
    exact vacant_new

/-- INTERNAL: A row cut to the new width and padded to it, which of all rows only one that ends in
the first half of a wide character tells from the padded row.
SRC: reflow.rs:470-481 -/
theorem fullRow_cropLine (newCols : ℕ) (hcols : newCols ≤ cols) (row : Row) :
    fullRow newCols (cropLine newCols (evenRow cols row)) = fullRow newCols (cropLine newCols row) := by
  unfold evenRow
  split_ifs with hwide
  · rfl
  rcases Nat.lt_or_ge newCols row.cells.length with hlong | hshort
  · -- the cut leaves nothing of the padding
    have htake : (fullRow cols row).cells.take newCols = row.cells.take newCols :=
      List.take_append_of_le_length hlong.le
    have hlonger : newCols < (fullRow cols row).cells.length := by
      unfold fullRow
      rw [List.length_append]
      omega
    unfold cropLine
    rw [if_pos hlong, if_pos hlonger, htake]
    rfl
  have hkept : cropLine newCols row = row := if_neg (by omega)
  have hlen : (fullRow cols row).cells.length = cols := length_fullRow (hshort.trans hcols)
  have htake : (fullRow cols row).cells.take newCols = (fullRow newCols row).cells := by
    unfold fullRow
    rw [List.take_append, List.take_of_length_le hshort, List.take_replicate]
    congr 2
    omega
  rw [hkept]
  rcases Nat.lt_or_ge newCols cols with hlt | hge
  · have hcut : cropLine newCols (fullRow cols row) = fullRow newCols row := by
      have hlast := endsWide_fullRow hwide newCols
      unfold EndsWide at hlast
      unfold cropLine
      rw [if_pos (by omega), htake]
      dsimp only
      cases hget : (fullRow newCols row).cells.getLast? with
      | none => rfl
      | some last =>
          rw [hget, Option.any_some] at hlast
          dsimp only
          rw [if_neg hlast]
          rfl
    rw [hcut, fullRow_fullRow (le_refl newCols)]
  · have hsame : cropLine newCols (fullRow cols row) = fullRow cols row := if_neg (by omega)
    rw [hsame, fullRow_of_le (by omega)]
    exact congrArg (fullRow · row) (Nat.le_antisymm hge hcols)

theorem map_evenRow_idem (cols : ℕ) (rows : List Row) :
    (rows.map (evenRow cols)).map (evenRow cols) = rows.map (evenRow cols) := by
  rw [List.map_map]
  exact List.map_congr_left fun row _ => evenRow_idem cols row

/-- Rows put in place of others. -/
theorem splice_evenRows (cols : ℕ) (rows group : List Row) (first rest : ℕ) :
    ((rows.map (evenRow cols)).take first ++ group ++
        (rows.map (evenRow cols)).drop rest).map (evenRow cols) =
      (rows.take first ++ group ++ rows.drop rest).map (evenRow cols) := by
  rw [List.map_append, List.map_append, List.map_append, List.map_append, ← List.map_take,
    ← List.map_drop, map_evenRow_idem, map_evenRow_idem]

/-- INTERNAL: The reflow pads a group first, so it is the same group.
SRC: reflow.rs:155-164, reflow.rs:264-273 -/
theorem pad_evenRows (cols : ℕ) (rows : List Row) :
    ((rows.map (evenRow cols)).map fun row : Row => if row.cells.length < cols then
        { row with cells := resizeCells row.cells cols Cell.new } else row) =
      rows.map fun row : Row => if row.cells.length < cols then
        { row with cells := resizeCells row.cells cols Cell.new } else row := by
  simp only [padRow_eq]
  rw [List.map_map]
  exact List.map_congr_left fun row _ => fullRow_evenRow cols row

end

/-- The lines with all rows even. -/
def evenLines (cols : ℕ) (b : Lines) : Lines := { b with lines := b.lines.map (evenRow cols) }

theorem evenLines_idem (cols : ℕ) (b : Lines) :
    evenLines cols (evenLines cols b) = evenLines cols b :=
  congrArg (fun lines => { b with lines }) (map_evenRow_idem cols b.lines)

@[simp] theorem lines_evenLines (cols : ℕ) (b : Lines) :
    (evenLines cols b).lines = b.lines.map (evenRow cols) := rfl

@[simp] theorem ybase_evenLines (cols : ℕ) (b : Lines) : (evenLines cols b).ybase = b.ybase := rfl

@[simp] theorem y_evenLines (cols : ℕ) (b : Lines) : (evenLines cols b).y = b.y := rfl

@[simp] theorem maxLen_evenLines (cols : ℕ) (b : Lines) : (evenLines cols b).maxLen = b.maxLen := rfl

/-! ## To a larger width -/

section

variable (oldCols newCols : ℕ)

theorem rewrapLarger_even (group : List Row) :
    rewrapLarger oldCols newCols (group.map (evenRow newCols)) =
      rewrapLarger oldCols newCols group := by
  unfold rewrapLarger
  simp only [pad_evenRows, List.length_map]

theorem length_takeWhile_even (cols : ℕ) (rows : List Row) :
    ((rows.map (evenRow cols)).takeWhile fun row => row.wrapped).length =
      (rows.takeWhile fun row => row.wrapped).length := by
  rw [List.takeWhile_map, List.length_map]
  refine congrArg (fun p => (rows.takeWhile p).length) (funext fun row => ?_)
  exact wrapped_evenRow cols row

/-- The lines and the ranges of a scan, with all rows even. -/
def evenScan (r : List Row × List (ℕ × ℕ)) : List Row × List (ℕ × ℕ) :=
  (r.1.map (evenRow newCols), r.2)

theorem largerLoop_respects (absY fuel y : ℕ) (remove : List (ℕ × ℕ)) :
    Respects (List.map (evenRow newCols)) (evenScan newCols) fun lines =>
      largerLoop oldCols newCols absY fuel lines y remove := by
  induction fuel generalizing y remove with
  | zero => exact fun lines => rfl
  | succ fuel ih =>
      intro lines
      dsimp only
      unfold largerLoop
      rw [List.length_map]
      refine ite_respects Iff.rfl ?_ (congrArg (fun rows => some (rows, remove))
        (map_evenRow_idem newCols lines))
      rw [List.getElem?_map]
      cases hnext : lines[y + 1]? with
      | none => rfl
      | some next =>
          rw [Option.map_some, Option.bind_eq_bind, Option.bind_some, Option.bind_eq_bind,
            Option.bind_some, wrapped_evenRow]
          refine ite_respects Iff.rfl (ih (y + 1) remove lines) ?_
          rw [← List.map_drop, length_takeWhile_even]
          refine ite_respects Iff.rfl (ih _ remove lines) ?_
          rw [← List.map_drop, ← List.map_take, rewrapLarger_even]
          refine bind_same_respects fun r => (ih _ _).congr ?_
          exact splice_evenRows newCols lines r.1 _ _

theorem dropRanges_even (cols : ℕ) (lines : List Row) (idx : ℕ) (remove : List (ℕ × ℕ)) (skip : ℕ) :
    dropRanges (lines.map (evenRow cols)) idx remove skip =
      Prod.map (List.map (evenRow cols)) id (dropRanges lines idx remove skip) := by
  induction lines generalizing idx remove skip with
  | nil => rfl
  | cons line lines ih =>
      unfold dropRanges
      simp only [List.map_cons, ih]
      exact ite_renamed Iff.rfl rfl rfl

theorem evenLines_append (cols : ℕ) (b : Lines) (rows : List Row) :
    evenLines cols { b with lines := b.lines.map (evenRow cols) ++ rows } =
      evenLines cols { b with lines := b.lines ++ rows } := by
  refine congrArg (fun lines => { b with lines }) ?_
  rw [List.map_append, List.map_append, map_evenRow_idem]

theorem afterRemoved_even (cols newRows : ℕ) (b : Lines) :
    evenLines cols (afterRemoved newCols newRows (evenLines cols b)) =
      evenLines cols (afterRemoved newCols newRows b) := by
  have hlen : (evenLines cols b).lines.length = b.lines.length := List.length_map _
  unfold afterRemoved
  rw [hlen]
  refine ite_agree Iff.rfl ?_ (evenLines_idem cols { b with ybase := b.ybase - 1 })
  by_cases hshort : b.lines.length < newRows
  · rw [if_pos hshort, if_pos hshort]
    exact evenLines_append cols { b with y := b.y - 1 } _
  · rw [if_neg hshort, if_neg hshort]
    exact evenLines_idem cols { b with y := b.y - 1 }

theorem reflowLarger_respects (newRows : ℕ) :
    Respects (evenLines newCols) (evenLines newCols) fun b =>
      reflowLarger b oldCols newCols newRows := by
  intro b
  have hlen : (evenLines newCols b).lines.length = b.lines.length := List.length_map _
  unfold reflowLarger
  dsimp only
  rw [hlen]
  refine bind_respects (largerLoop_respects oldCols newCols _ _ 0 [] b.lines) fun r => ?_
  refine ite_respects Iff.rfl (congrArg some (evenLines_idem newCols { b with lines := r.1 })) ?_
  have hiter := iterate_respects (evenLines_idem newCols) (afterRemoved_even newCols newCols newRows)
    (dropRanges r.1 0 r.2 0).2 { b with lines := (dropRanges r.1 0 r.2 0).1 }
  have hdrop := dropRanges_even newCols r.1 0 r.2 0
  refine congrArg some ?_
  simp only [evenScan, hdrop, Prod.map_fst, Prod.map_snd, id_eq]
  exact congrArg (fun b : Lines => { b with savedY := b.savedY - (dropRanges r.1 0 r.2 0).2 }) hiter

end

/-! ## To a smaller width -/

section

variable (oldCols newCols : ℕ)

theorem rewrapSmaller_even (group : List Row) :
    rewrapSmaller oldCols newCols (group.map (evenRow oldCols)) =
      rewrapSmaller oldCols newCols group := by
  unfold rewrapSmaller
  simp only [pad_evenRows, List.length_map]

theorem groupStart_even (cols : ℕ) (lines : List Row) (y : ℕ) :
    groupStart (lines.map (evenRow cols)) y = groupStart lines y := by
  induction y with
  | zero => rfl
  | succ y ih =>
      unfold groupStart
      refine bind_unnamed List.getElem?_map fun row => ?_
      rw [ih, wrapped_evenRow]

theorem afterAdded_even (cols newRows countToInsert : ℕ) (r : Lines × ℕ) :
    afterAdded newRows countToInsert (Prod.map (evenLines cols) id r) =
      Prod.map (evenLines cols) id (afterAdded newRows countToInsert r) := by
  unfold afterAdded
  exact ite_renamed Iff.rfl (ite_renamed Iff.rfl rfl rfl) (ite_renamed Iff.rfl rfl rfl)

/-- The scan, with all rows even. -/
def evenUnwrap (u : Unwrap) : Unwrap := { u with b := evenLines oldCols u.b }

@[simp] theorem b_evenUnwrap (u : Unwrap) : (evenUnwrap oldCols u).b = evenLines oldCols u.b := rfl

@[simp] theorem toInsert_evenUnwrap (u : Unwrap) :
    (evenUnwrap oldCols u).toInsert = u.toInsert := rfl

@[simp] theorem countToInsert_evenUnwrap (u : Unwrap) :
    (evenUnwrap oldCols u).countToInsert = u.countToInsert := rfl

@[simp] theorem liveLen_evenUnwrap (u : Unwrap) : (evenUnwrap oldCols u).liveLen = u.liveLen := rfl

theorem evenUnwrap_idem (u : Unwrap) :
    evenUnwrap oldCols (evenUnwrap oldCols u) = evenUnwrap oldCols u :=
  congrArg (fun b => { u with b }) (evenLines_idem oldCols u.b)

/-- The lines, moved for what a group of `n` rows grows by.
SRC: reflow.rs:337-353 -/
def movedFor (newRows n : ℕ) (dest : List ℕ) (u : Unwrap) : Lines × ℕ :=
  let toAdd : ℤ := dest.length - n
  let trimmed : ℤ := if u.b.ybase = 0 ∧ u.b.y + 1 ≠ u.liveLen then
      max (u.b.y - u.b.maxLen + toAdd) 0
    else max (u.liveLen - u.b.maxLen + toAdd) 0
  (afterAdded newRows (u.countToInsert + (dest.length - n)))^[(toAdd - trimmed).toNat]
    (u.b, u.liveLen)

theorem movedFor_even (newRows n : ℕ) (dest : List ℕ) (u : Unwrap) :
    movedFor newRows n dest (evenUnwrap oldCols u) =
      Prod.map (evenLines oldCols) id (movedFor newRows n dest u) :=
  iterate_renamed (φ := Prod.map (evenLines oldCols) id)
    (afterAdded_even oldCols newRows _) _ (u.b, u.liveLen)

/-- SRC: reflow.rs:264-364 -/
theorem unwrapGroup_eq (newRows : ℕ) (u : Unwrap) (y last n : ℕ) (hn : n = last - y + 1) :
    unwrapGroup oldCols newCols newRows u y last = do
      let r ← rewrapSmaller oldCols newCols ((u.b.lines.drop y).take n)
      let moved := movedFor newRows n r.2 u
      let savedMax ← checkedSub (moved.1.ybase + newRows) 1
      return {
        b := { moved.1 with
          savedY := min (moved.1.savedY + (r.2.length - n)) savedMax
          lines := moved.1.lines.take y ++ r.1.take n ++ moved.1.lines.drop (y + n) }
        toInsert := if (r.1.drop n).isEmpty then u.toInsert
          else u.toInsert ++ [(last + 1, r.1.drop n)]
        countToInsert := u.countToInsert + (r.2.length - n)
        liveLen := moved.2 } := by
  subst hn
  rfl

theorem unwrapGroup_respects (newRows y last : ℕ) :
    Respects (evenUnwrap oldCols) (evenUnwrap oldCols) fun u =>
      unwrapGroup oldCols newCols newRows u y last := by
  intro u
  dsimp only
  rw [unwrapGroup_eq oldCols newCols newRows (evenUnwrap oldCols u) y last _ rfl,
    unwrapGroup_eq oldCols newCols newRows u y last _ rfl, b_evenUnwrap, lines_evenLines,
    ← List.map_drop, ← List.map_take, rewrapSmaller_even]
  refine bind_same_respects fun r => ?_
  rw [movedFor_even]
  refine bind_same_respects fun savedMax => congrArg some ?_
  generalize movedFor newRows _ r.2 u = moved
  unfold evenUnwrap evenLines
  dsimp only [Prod.map_fst]
  rw [splice_evenRows]
  rfl

theorem smallerLoop_respects (newRows fuel y : ℕ) :
    Respects (evenUnwrap oldCols) (evenUnwrap oldCols) fun u =>
      smallerLoop oldCols newCols newRows fuel u y := by
  induction fuel generalizing y with
  | zero => exact fun u => rfl
  | succ fuel ih =>
      intro u
      cases y with
      | zero => exact congrArg some (evenUnwrap_idem oldCols u)
      | succ y =>
          unfold smallerLoop
          dsimp only
          rw [show (evenUnwrap oldCols u).b.lines[y]? = u.b.lines[y]?.map (evenRow oldCols) from
            List.getElem?_map]
          cases u.b.lines[y]? with
          | none => rfl
          | some row =>
              rw [Option.map_some, Option.bind_eq_bind, Option.bind_some, Option.bind_eq_bind,
                Option.bind_some, wrapped_evenRow, trimmedLen_evenRow]
              refine ite_respects Iff.rfl (ih y u) ?_
              rw [show groupStart (evenUnwrap oldCols u).b.lines y = groupStart u.b.lines y from
                groupStart_even oldCols u.b.lines y]
              refine bind_same_respects fun start => ite_respects Iff.rfl (ih start u) ?_
              exact bind_respects (unwrapGroup_respects oldCols newCols newRows start y u) (ih start)

theorem insertLinesAt_even (cols : ℕ) (lines : List Row) (idx : ℕ) (pending : List (ℕ × List Row)) :
    (insertLinesAt (lines.map (evenRow cols)) idx pending).map (evenRow cols) =
      (insertLinesAt lines idx pending).map (evenRow cols) := by
  induction lines generalizing idx pending with
  | nil => rfl
  | cons line lines ih =>
      rw [List.map_cons, insertLinesAt, insertLinesAt, List.map_append, List.map_append, ih,
        List.map_cons, List.map_cons, evenRow_idem]

theorem reflowSmaller_respects (newRows : ℕ) :
    Respects (evenLines oldCols) (evenLines oldCols) fun b =>
      reflowSmaller b oldCols newCols newRows := by
  intro b
  have hlen : (evenLines oldCols b).lines.length = b.lines.length := List.length_map _
  unfold reflowSmaller
  dsimp only
  rw [hlen]
  refine bind_respects (smallerLoop_respects oldCols newCols newRows _ _
    ⟨b, [], 0, b.lines.length⟩) fun u => ?_
  have hinsert := fun lines pending => congrArg List.length (insertLinesAt_even oldCols lines 0 pending)
  simp only [List.length_map] at hinsert
  refine ite_respects Iff.rfl ?_ ?_
  · refine congrArg (fun lines => some { u.b with lines }) ?_
    simp only [b_evenUnwrap, lines_evenLines, liveLen_evenUnwrap, ← List.map_take, map_evenRow_idem]
  · refine congrArg (fun lines => some { u.b with lines }) ?_
    simp only [b_evenUnwrap, lines_evenLines, liveLen_evenUnwrap, toInsert_evenUnwrap,
      maxLen_evenLines, ← List.map_take, hinsert, List.map_drop, insertLinesAt_even]

end

/-! ## The resize -/

section

variable (cols : ℕ)

theorem growOne_even (newCols newRows : ℕ) (r : Lines × ℕ) :
    Prod.map (evenLines cols) id (growOne newCols newRows (Prod.map (evenLines cols) id r)) =
      Prod.map (evenLines cols) id (growOne newCols newRows r) := by
  have hlen : (r.1.lines.map (evenRow cols)).length = r.1.lines.length := List.length_map _
  unfold growOne
  simp only [Prod.map_fst, Prod.map_snd, id_eq, lines_evenLines, ybase_evenLines, y_evenLines, hlen]
  refine ite_agree Iff.rfl (ite_agree Iff.rfl ?_ ?_) ?_
  · exact congrArg (·, r.2 + 1) (evenLines_idem cols { r.1 with ybase := r.1.ybase - 1 })
  · exact congrArg (·, r.2) (evenLines_append cols r.1 _)
  · exact congrArg (·, r.2) (evenLines_idem cols r.1)

theorem shrinkOne_even (newRows : ℕ) (b : Lines) :
    shrinkOne newRows (evenLines cols b) = evenLines cols (shrinkOne newRows b) := by
  unfold shrinkOne
  simp only [lines_evenLines, ybase_evenLines, y_evenLines, List.length_map, ← List.map_dropLast]
  exact ite_renamed Iff.rfl (ite_renamed Iff.rfl rfl rfl) rfl

theorem fitRows_even (oldRows : ℕ) (size : Size) {b b' : Lines}
    (hb : evenLines cols b' = evenLines cols b) :
    Prod.map (evenLines cols) id (fitRows oldRows size b') =
      Prod.map (evenLines cols) id (fitRows oldRows size b) := by
  have hidem : ∀ r : Lines × ℕ, Prod.map (evenLines cols) id (Prod.map (evenLines cols) id r) =
      Prod.map (evenLines cols) id r := fun r => congrArg (·, r.2) (evenLines_idem cols r.1)
  unfold fitRows
  refine ite_agree Iff.rfl ?_ ?_
  · have hiter := iterate_respects hidem (growOne_even cols size.cols size.rows)
      (size.rows - oldRows)
    rw [← hiter (b', 0), ← hiter (b, 0)]
    exact congrArg (fun b => Prod.map (evenLines cols) id
      ((growOne size.cols size.rows)^[size.rows - oldRows] (b, 0))) hb
  · have hiter := iterate_renamed (shrinkOne_even cols size.rows) (oldRows - size.rows)
    refine congrArg (·, 0) ?_
    rw [← hiter, hb, hiter]

end

/-- INTERNAL: The lines of a grid at rest.
SRC: reflow.rs:402-426 -/
theorem linesOf_even {g : Grid} (hends : ∀ row ∈ g.scrollback, ¬ EndsWide row) (size : Size)
    {cols : ℕ} (hcols : g.size.cols ≤ cols) :
    evenLines cols (linesOf (restGrid g) size) = evenLines cols (linesOf g size) := by
  have hback : (g.scrollback.map (fullRow g.size.cols)).map (evenRow cols) =
      g.scrollback.map (evenRow cols) := by
    rw [List.map_map]
    exact List.map_congr_left fun row hrow => evenRow_fullRow hcols (hends row hrow)
  have hlen : (restGrid g).scrollback.length = g.scrollback.length := List.length_map _
  unfold evenLines linesOf
  dsimp only
  rw [hlen, List.map_append, List.map_append]
  show Lines.mk ((g.scrollback.map (fullRow g.size.cols)).map (evenRow cols) ++ _) _ _ _ _ = _
  rw [hback]
  rfl

theorem surplus_even (g : Grid) (cols : ℕ) (b : Lines) :
    surplus g (evenLines cols b) = surplus g b := by
  unfold surplus
  rw [lines_evenLines, List.length_map]
  rfl

theorem cutTop_even (cols last trim : ℕ) (r : Lines × ℕ) :
    cutTop last trim (Prod.map (evenLines cols) id r) = evenLines cols (cutTop last trim r) := by
  unfold cutTop
  simp only [Prod.map_fst, Prod.map_snd, lines_evenLines, ← List.map_drop]
  rfl

/-- Everything up to the reflow. -/
theorem gather_respects {g : Grid} (hends : ∀ row ∈ g.scrollback, ¬ EndsWide row) (size : Size)
    {cols : ℕ} (hcols : g.size.cols ≤ cols) :
    ((restGrid g).gather size).map (Prod.map (evenLines cols) id) =
      (g.gather size).map (Prod.map (evenLines cols) id) := by
  have hfit := fitRows_even cols g.size.rows size (linesOf_even hends size hcols)
  rw [gather_eq, gather_eq, Option.map_map, Option.map_map]
  refine congrArg (fun f => (checkedSub size.rows 1).map f) (funext fun last => ?_)
  show Prod.mk (evenLines cols (cutTop last (surplus g
      (fitRows g.size.rows size (linesOf (restGrid g) size)).1)
    (fitRows g.size.rows size (linesOf (restGrid g) size)))) (surplus g
      (fitRows g.size.rows size (linesOf (restGrid g) size)).1) = Prod.mk (evenLines cols _) _
  generalize fitRows g.size.rows size (linesOf (restGrid g) size) = r' at hfit ⊢
  generalize fitRows g.size.rows size (linesOf g size) = r at hfit ⊢
  have hsurplus : surplus g r'.1 = surplus g r.1 := by
    rw [← surplus_even g cols, ← surplus_even g cols r.1]
    exact congrArg (fun r : Lines × ℕ => surplus g r.1) hfit
  rw [hsurplus, ← cutTop_even, hfit, cutTop_even]
  rfl

theorem rewrapped_respects (old : ℕ) (size : Size) (reflow : Bool) :
    Respects (evenLines (max old size.cols)) (evenLines (max old size.cols)) fun b =>
      rewrapped old size reflow b := by
  intro b
  unfold rewrapped
  refine ite_respects Iff.rfl ?_ (congrArg some (evenLines_idem _ b))
  by_cases hlarger : old < size.cols
  · rw [if_pos hlarger, if_pos hlarger, Nat.max_eq_right hlarger.le]
    exact reflowLarger_respects old size.cols size.rows b
  · rw [if_neg hlarger, if_neg hlarger, Nat.max_eq_left (Nat.le_of_not_lt hlarger)]
    exact reflowSmaller_respects old size.cols size.rows b

/-! ### The lines put back -/

section

variable (cols : ℕ)

/-- A row as it is seen after the resize. -/
def cutRow (row : Row) : Row := fullRow cols (cropLine cols row)

theorem length_cropLine (row : Row) : (cropLine cols row).cells.length ≤ cols := by
  unfold cropLine
  split_ifs with hlong
  · have htake : (row.cells.take cols).length ≤ cols := List.length_take_le _ _
    dsimp only
    cases hlast : (row.cells.take cols).getLast? with
    | none => exact htake
    | some last =>
        dsimp only
        split_ifs
        · have hne : (row.cells.take cols) ≠ [] := by
            intro hnil
            rw [hnil] at hlast
            cases hlast
          have hpos := List.length_pos_iff.mpr hne
          rw [List.length_append, List.length_dropLast, List.length_singleton]
          omega
        · exact htake
  · exact Nat.le_of_not_lt hlong

/-- INTERNAL: All lines end up cut, and padded or to be padded when they are shown.
SRC: reflow.rs:470-484 -/
theorem cutLines_full (b : Lines) :
    (cutLines cols b).map (fullRow cols) = b.lines.map (cutRow cols) := by
  have hdrawn : ∀ row, fullRow cols { cropLine cols row with
      cells := resizeCells (cropLine cols row).cells cols Cell.new } = cutRow cols row := by
    intro row
    rw [resizeCells_of_le (length_cropLine cols row)]
    exact fullRow_fullRow (le_refl cols) (cropLine cols row)
  unfold cutLines
  rw [List.map_append, ← List.map_take, ← List.map_drop, List.map_map, List.map_map, List.map_map]
  refine Eq.trans ?_ (List.take_append_drop b.ybase (b.lines.map (cutRow cols)))
  rw [← List.map_take, ← List.map_drop]
  refine congrArg (List.map (cutRow cols) (b.lines.take b.ybase) ++ ·) ?_
  exact List.map_congr_left fun row _ => hdrawn row

theorem cutLines_even {cols : ℕ} {D : ℕ} (hcols : cols ≤ D) {b b' : Lines}
    (h : evenLines D b' = evenLines D b) :
    (cutLines cols b').map (fullRow cols) = (cutLines cols b).map (fullRow cols) := by
  have heven : ∀ b : Lines, b.lines.map (cutRow cols) = (evenLines D b).lines.map (cutRow cols) := by
    intro b
    rw [lines_evenLines, List.map_map]
    exact List.map_congr_left fun row _ => (fullRow_cropLine cols hcols row).symm
  rw [cutLines_full, cutLines_full, heven b', heven b, h]

theorem fullRow_blankLine (wrapped : Bool) :
    fullRow cols (blankLine cols wrapped) = blankLine cols wrapped :=
  fullRow_of_le (List.length_replicate ..).ge

theorem padLines_full (need : ℕ) (lines : List Row) :
    (padLines cols need lines).map (fullRow cols) =
      padLines cols need (lines.map (fullRow cols)) := by
  unfold padLines
  rw [List.map_take, List.map_append, List.map_replicate, fullRow_blankLine, List.length_map]

/-- The rows of the screen are as wide as it. -/
theorem drawn_full (need : ℕ) (b : Lines) :
    ((padLines cols need (cutLines cols b)).drop b.ybase).map (fullRow cols) =
      (padLines cols need (cutLines cols b)).drop b.ybase := by
  have hwide : ∀ row ∈ (padLines cols need (cutLines cols b)).drop b.ybase,
      row.cells.length = cols := by
    intro row hrow
    unfold padLines cutLines at hrow
    rw [List.drop_take] at hrow
    replace hrow := List.mem_of_mem_take hrow
    rw [List.append_assoc, List.drop_append, List.drop_append, List.drop_take, Nat.sub_self,
      List.take_zero, List.nil_append, List.mem_append] at hrow
    rcases hrow with hcut | hblank
    · obtain ⟨line, -, rfl⟩ := List.mem_map.mp (List.mem_of_mem_drop hcut)
      exact length_resizeCells _ _ _
    · rw [List.eq_of_mem_replicate (List.mem_of_mem_drop hblank)]
      exact List.length_replicate
  calc ((padLines cols need (cutLines cols b)).drop b.ybase).map (fullRow cols)
      = ((padLines cols need (cutLines cols b)).drop b.ybase).map id :=
        List.map_congr_left fun row hrow => fullRow_of_le (hwide row hrow).ge
    _ = (padLines cols need (cutLines cols b)).drop b.ybase := List.map_id _

end

/-- INTERNAL: The grid with its lines put back.
SRC: reflow.rs:486-507 -/
theorem putLines_rest (g : Grid) (size : Size) (lastRow lastCol trim : ℕ) {cols : ℕ}
    (hcols : size.cols ≤ cols) {b b' : Lines} (h : evenLines cols b' = evenLines cols b) :
    restGrid (putLines (restGrid g) size lastRow lastCol trim b'
        (padLines size.cols (b'.ybase + size.rows) (cutLines size.cols b'))) =
      restGrid (putLines g size lastRow lastCol trim b
        (padLines size.cols (b.ybase + size.rows) (cutLines size.cols b))) := by
  obtain ⟨-, hbase, hy, hsaved, -⟩ := (Lines.mk.injEq ..).mp h
  have hlines : ∀ need, (padLines size.cols need (cutLines size.cols b')).map (fullRow size.cols) =
      (padLines size.cols need (cutLines size.cols b)).map (fullRow size.cols) := by
    intro need
    rw [padLines_full, padLines_full, cutLines_even hcols h]
  have hrows := drawn_full size.cols (b.ybase + size.rows) b
  have hrows' := drawn_full size.cols (b.ybase + size.rows) b'
  rw [List.map_drop, hbase, hlines, ← List.map_drop, hrows] at hrows'
  unfold restGrid putLines
  dsimp only
  rw [hbase, hy, hsaved, ← hrows', List.map_take, List.map_take, hlines]

theorem padTabs_respects (cols : ℕ) : Respects restGrid restGrid fun g => (do
    let g ← g.padScrollbackWindow
    let tabStops ← resizeTabStops g.tabStops cols
    return { g with tabStops }) := by
  intro g
  obtain ⟨g', hg', hrest', -⟩ := padScrollbackWindow_rest (restGrid g)
  obtain ⟨g'', hg'', hrest'', -⟩ := padScrollbackWindow_rest g
  refine bind_respects (φ := restGrid) ?_ fun g => bind_same_respects fun tabStops => ?_
  · rw [hg', hg'', Option.map_some, Option.map_some, hrest', hrest'', restGrid_idem]
  · exact congrArg some (restGrid_idem { g with tabStops })

/-- INTERNAL: A resize does not depend on how the scrollback is padded.
SRC: reflow.rs:394-520 -/
theorem setSize_respects {g : Grid} (hends : ∀ row ∈ g.scrollback, ¬ EndsWide row) (size : Size)
    (reflow : Bool) :
    ((restGrid g).setSize size reflow).map restGrid = (g.setSize size reflow).map restGrid := by
  rw [setSize_eq, setSize_eq]
  refine ite_respects Iff.rfl (congrArg some (restGrid_idem g)) ?_
  have hgather := gather_respects hends size (Nat.le_max_left g.size.cols size.cols)
  refine bind_agree hgather fun r r' hr => ?_
  obtain ⟨hlines, htrim⟩ := (Prod.mk.injEq ..).mp hr
  have hwrapped := (rewrapped_respects g.size.cols size reflow).congr hlines
  refine bind_agree hwrapped fun b b' hb => ?_
  refine bind_same_respects fun lastRow => bind_same_respects fun lastCol => ?_
  rw [show r'.2 = r.2 from htrim]
  apply (padTabs_respects size.cols).congr
  exact putLines_rest g size lastRow lastCol r.2 (Nat.le_max_right _ _) hb

end Tymux.Analysis.Vt
