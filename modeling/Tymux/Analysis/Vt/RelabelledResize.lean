import Tymux.Analysis.Vt.Relabelling
import Tymux.Analysis.Vt.ResizeSteps

/-!
# A resize does not look at link indices

The reflow asks of a cell whether it has content and whether it is half of a wide character, and
moves it as it is.
-/

set_option autoImplicit false

namespace Tymux.Analysis.Vt

open Tymux.Lib Tymux.Model.Vt

section

variable (φ : Relabelling)

/-! ## Reading rows -/

theorem blankLine_relabel (cols : ℕ) (wrapped : Bool) :
    relabelRow φ (blankLine cols wrapped) = blankLine cols wrapped := by
  unfold blankLine
  rw [← wrap_relabel, relabelRow_new]

theorem widthAt_relabel (row : Row) (col : ℤ) : widthAt (relabelRow φ row) col = widthAt row col := by
  have hcell : (if 0 ≤ col then (relabelRow φ row).cells[col.toNat]? else none) =
      (if 0 ≤ col then row.cells[col.toNat]? else none).map (relabelCell φ) :=
    ite_renamed (ψ := Option.map (relabelCell φ)) Iff.rfl List.getElem?_map rfl
  unfold widthAt
  rw [hcell]
  cases (if 0 ≤ col then row.cells[col.toNat]? else none) with
  | none => rfl
  | some c => rfl

theorem hasContent_relabel (row : Row) (col : ℕ) :
    hasContent (relabelRow φ row) col = hasContent row col := by
  unfold hasContent
  rw [show (relabelRow φ row).cells[col]? = row.cells[col]?.map (relabelCell φ) from
    List.getElem?_map, Option.any_map]
  rfl

theorem trimmedFrom_relabel (cells : List Cell) :
    trimmedFrom (cells.map (relabelCell φ)) = trimmedFrom cells := by
  induction cells with
  | nil => rfl
  | cons c cells ih =>
      rw [List.map_cons, trimmedFrom, trimmedFrom, ih, List.length_map]
      rfl

theorem trimmedLen_relabel (row : Row) : trimmedLen (relabelRow φ row) = trimmedLen row := by
  unfold trimmedLen
  rw [show (relabelRow φ row).cells.reverse = row.cells.reverse.map (relabelCell φ) from
    List.map_reverse.symm, trimmedFrom_relabel]

theorem getElem?_relabel (rows : List Row) (i : ℕ) :
    (rows.map (relabelRow φ))[i]? = rows[i]?.map (relabelRow φ) := List.getElem?_map

theorem wrappedLineTrimmedLen_relabel (group : List Row) (i cols : ℕ) :
    wrappedLineTrimmedLen (group.map (relabelRow φ)) i cols = wrappedLineTrimmedLen group i cols := by
  unfold wrappedLineTrimmedLen
  rw [List.length_map]
  refine ite_renamed (ψ := id) Iff.rfl ?_ ?_
  · rw [getElem?_relabel, Option.map_map]
    exact congrArg (fun f => group[i]?.map f) (funext fun row => trimmedLen_relabel φ row)
  · refine bind_unnamed (getElem?_relabel φ group i) fun row => ?_
    congr 1
    funext last
    refine bind_unnamed (getElem?_relabel φ group (i + 1)) fun next => ?_
    rw [hasContent_relabel, widthAt_relabel, widthAt_relabel]

theorem copyCells_relabel (group : List Row) (src srcCol dst dstCol len : ℕ) :
    copyCells (group.map (relabelRow φ)) src srcCol dst dstCol len =
      (copyCells group src srcCol dst dstCol len).map (List.map (relabelRow φ)) := by
  unfold copyCells
  refine bind_renamed (getElem?_relabel φ group src) fun srcRow => ?_
  refine bind_renamed (getElem?_relabel φ group dst) fun dstRow => ?_
  have hsrc : (relabelRow φ srcRow).cells.length = srcRow.cells.length := List.length_map _
  have hdst : (relabelRow φ dstRow).cells.length = dstRow.cells.length := List.length_map _
  simp only [hsrc, hdst]
  refine ite_renamed Iff.rfl rfl (congrArg some ?_)
  rw [List.map_set]
  refine congrArg (fun cells => (group.map (relabelRow φ)).set dst (Row.mk cells dstRow.wrapped)) ?_
  rw [List.map_append, List.map_append, List.map_take, List.map_take, List.map_drop, List.map_drop]
  rfl

theorem replaceCells_relabel (row : Row) (start stop : ℕ) :
    replaceCells (relabelRow φ row) start stop = relabelRow φ (replaceCells row start stop) := by
  have hfirst : (if 0 < start ∧ widthAt (relabelRow φ row) ((start : ℤ) - 1) = 2 then
        (relabelRow φ row).cells.set (start - 1) Cell.new else (relabelRow φ row).cells) =
      (if 0 < start ∧ widthAt row ((start : ℤ) - 1) = 2 then
        row.cells.set (start - 1) Cell.new else row.cells).map (relabelCell φ) := by
    rw [widthAt_relabel]
    refine ite_renamed (ψ := List.map (relabelCell φ)) Iff.rfl ?_ rfl
    rw [List.map_set, relabelCell_new]
    rfl
  unfold replaceCells
  simp only [hfirst]
  generalize (if 0 < start ∧ widthAt row ((start : ℤ) - 1) = 2 then
    row.cells.set (start - 1) Cell.new else row.cells) = cells
  have hlast : (if stop < (cells.map (relabelCell φ)).length ∧ 0 < stop ∧
        widthAt (relabelRow φ { row with cells }) ((stop : ℤ) - 1) = 2 then
        (cells.map (relabelCell φ)).set stop Cell.new else cells.map (relabelCell φ)) =
      (if stop < cells.length ∧ 0 < stop ∧ widthAt { row with cells } ((stop : ℤ) - 1) = 2 then
        cells.set stop Cell.new else cells).map (relabelCell φ) := by
    rw [widthAt_relabel, List.length_map]
    refine ite_renamed (ψ := List.map (relabelCell φ)) Iff.rfl ?_ rfl
    rw [List.map_set, relabelCell_new]
  rw [show (Row.mk (cells.map (relabelCell φ)) (relabelRow φ row).wrapped) =
    relabelRow φ { row with cells } from rfl, hlast]
  generalize (if stop < cells.length ∧ 0 < stop ∧ widthAt { row with cells } ((stop : ℤ) - 1) = 2
    then cells.set stop Cell.new else cells) = cut
  refine congrArg (fun cells => Row.mk cells row.wrapped) ?_
  rw [List.map_append, List.map_append, List.map_take, List.map_drop, List.map_replicate,
    relabelCell_new, List.length_map]

theorem lineLengths_relabel (group : List Row) (oldCols newCols needed fuel srcCol srcLine
    available : ℕ) :
    lineLengths (group.map (relabelRow φ)) oldCols newCols needed fuel srcCol srcLine available =
      lineLengths group oldCols newCols needed fuel srcCol srcLine available := by
  induction fuel generalizing srcCol srcLine available with
  | zero => rfl
  | succ fuel ih =>
      have hwide : ∀ (i : ℕ) (col : ℤ),
          (group.map (relabelRow φ))[i]?.any (fun r => widthAt r col = 2) =
            group[i]?.any fun r => widthAt r col = 2 := by
        intro i col
        rw [getElem?_relabel, Option.any_map]
        simp only [widthAt_relabel]
      unfold lineLengths
      simp only [wrappedLineTrimmedLen_relabel, hwide, ih]

theorem newLineLengths_relabel (group : List Row) (oldCols newCols : ℕ) :
    newLineLengths (group.map (relabelRow φ)) oldCols newCols =
      newLineLengths group oldCols newCols := by
  unfold newLineLengths
  rw [List.length_map]
  simp only [wrappedLineTrimmedLen_relabel, lineLengths_relabel]

/-! ## To a larger width -/

/-- The place of a rewrapping, with other link indices in its rows. -/
def relabelRewrap (st : Rewrap) : Rewrap := { st with group := st.group.map (relabelRow φ) }

theorem pullDown_relabel (newCols : ℕ) (st : Rewrap) :
    pullDown newCols (relabelRewrap φ st) = (pullDown newCols st).map (relabelRewrap φ) := by
  unfold pullDown
  refine ite_renamed Iff.rfl (bind_renamed (getElem?_relabel φ st.group _) fun before => ?_) rfl
  rw [widthAt_relabel]
  refine ite_renamed Iff.rfl (bind_same fun last => ?_) rfl
  refine bind_renamed (copyCells_relabel φ st.group _ _ _ _ _) fun group => ?_
  refine bind_renamed (updateAt_renamed (fun row => ?_) group _) fun group => rfl
  exact modify_relabel φ row last fun _ => (relabelCell_new φ).symm

theorem rewrapStep_relabel (oldCols newCols : ℕ) (st : Rewrap) :
    rewrapStep oldCols newCols (relabelRewrap φ st) =
      (rewrapStep oldCols newCols st).map (relabelRewrap φ) := by
  unfold rewrapStep
  rw [show (relabelRewrap φ st).group = st.group.map (relabelRow φ) from rfl,
    wrappedLineTrimmedLen_relabel]
  refine bind_same fun srcTrimmed => bind_same fun srcRemaining => bind_same fun destRemaining => ?_
  refine bind_renamed (copyCells_relabel φ st.group _ _ _ _ _) fun group => ?_
  exact pullDown_relabel φ newCols ⟨group, _, _, _, _⟩

theorem rewrapLoop_relabel (oldCols newCols n fuel : ℕ) (st : Rewrap) :
    rewrapLoop oldCols newCols n fuel (relabelRewrap φ st) =
      (rewrapLoop oldCols newCols n fuel st).map (relabelRewrap φ) := by
  induction fuel generalizing st with
  | zero => rfl
  | succ fuel ih =>
      unfold rewrapLoop
      exact ite_renamed Iff.rfl (bind_renamed (rewrapStep_relabel φ oldCols newCols st) ih) rfl

theorem unusedRows_relabel (group : List Row) (destIdx k : ℕ) :
    unusedRows (group.map (relabelRow φ)) destIdx k = unusedRows group destIdx k := by
  induction k with
  | zero => rfl
  | succ k ih =>
      have htrimmed : (group.map (relabelRow φ))[k]?.map trimmedLen = group[k]?.map trimmedLen := by
        rw [getElem?_relabel, Option.map_map]
        exact congrArg (fun f => group[k]?.map f) (funext fun row => trimmedLen_relabel φ row)
      rw [unusedRows, unusedRows, htrimmed, ih]

theorem rewrapLarger_relabel (oldCols newCols : ℕ) (group : List Row) :
    rewrapLarger oldCols newCols (group.map (relabelRow φ)) =
      (rewrapLarger oldCols newCols group).map (Prod.map (List.map (relabelRow φ)) id) := by
  unfold rewrapLarger
  simp only [padRows_relabel, wrappedLineTrimmedLen_relabel, List.length_map]
  refine bind_same fun destCol => ?_
  refine bind_renamed (rewrapLoop_relabel φ oldCols newCols _ _ ⟨_, 0, destCol, 1, 0⟩) fun st => ?_
  refine bind_renamed (updateAt_renamed (fun row => ?_) st.group st.destIdx) fun group => ?_
  · exact congrArg some (replaceCells_relabel φ row st.destCol newCols)
  · rw [unusedRows_relabel]
    rfl

theorem takeWhile_wrapped_relabel (rows : List Row) :
    ((rows.map (relabelRow φ)).takeWhile fun row => row.wrapped) =
      (rows.takeWhile fun row => row.wrapped).map (relabelRow φ) := by
  rw [List.takeWhile_map]
  rfl

theorem largerLoop_relabel (oldCols newCols absY fuel : ℕ) (lines : List Row) (y : ℕ)
    (remove : List (ℕ × ℕ)) :
    largerLoop oldCols newCols absY fuel (lines.map (relabelRow φ)) y remove =
      (largerLoop oldCols newCols absY fuel lines y remove).map
        (Prod.map (List.map (relabelRow φ)) id) := by
  induction fuel generalizing lines y remove with
  | zero => rfl
  | succ fuel ih =>
      unfold largerLoop
      rw [List.length_map]
      refine ite_renamed Iff.rfl ?_ rfl
      refine bind_renamed (getElem?_relabel φ lines (y + 1)) fun next => ?_
      refine ite_renamed Iff.rfl (ih lines (y + 1) remove) ?_
      rw [← List.map_drop, takeWhile_wrapped_relabel, List.length_map]
      refine ite_renamed Iff.rfl (ih lines _ remove) ?_
      rw [← List.map_drop, ← List.map_take]
      refine bind_renamed (rewrapLarger_relabel φ oldCols newCols _) fun r => ?_
      rw [← ih, List.map_append, List.map_append, List.map_take, List.map_drop]
      rfl

theorem dropRanges_relabel (lines : List Row) (idx : ℕ) (remove : List (ℕ × ℕ)) (skip : ℕ) :
    dropRanges (lines.map (relabelRow φ)) idx remove skip =
      Prod.map (List.map (relabelRow φ)) id (dropRanges lines idx remove skip) := by
  induction lines generalizing idx remove skip with
  | nil => rfl
  | cons line lines ih =>
      unfold dropRanges
      simp only [List.map_cons, ih]
      exact ite_renamed Iff.rfl rfl rfl

/-- Lines with other link indices in their cells. -/
def relabelLines (b : Lines) : Lines := { b with lines := b.lines.map (relabelRow φ) }

@[simp] theorem relabelLines_lines (b : Lines) :
    (relabelLines φ b).lines = b.lines.map (relabelRow φ) := rfl

@[simp] theorem relabelLines_ybase (b : Lines) : (relabelLines φ b).ybase = b.ybase := rfl

@[simp] theorem relabelLines_y (b : Lines) : (relabelLines φ b).y = b.y := rfl

@[simp] theorem relabelLines_maxLen (b : Lines) : (relabelLines φ b).maxLen = b.maxLen := rfl

theorem afterRemoved_relabel (newCols newRows : ℕ) (b : Lines) :
    afterRemoved newCols newRows (relabelLines φ b) =
      relabelLines φ (afterRemoved newCols newRows b) := by
  unfold afterRemoved
  refine ite_renamed Iff.rfl ?_ rfl
  refine congrArg (fun lines => Lines.mk lines b.ybase (b.y - 1) b.savedY b.maxLen) ?_
  rw [relabelLines_lines, List.length_map]
  refine ite_renamed (ψ := List.map (relabelRow φ)) Iff.rfl ?_ rfl
  rw [List.map_append, List.map_singleton, blankLine_relabel]

theorem reflowLarger_relabel (b : Lines) (oldCols newCols newRows : ℕ) :
    reflowLarger (relabelLines φ b) oldCols newCols newRows =
      (reflowLarger b oldCols newCols newRows).map (relabelLines φ) := by
  unfold reflowLarger
  rw [relabelLines_lines, List.length_map]
  refine bind_renamed (largerLoop_relabel φ oldCols newCols _ _ b.lines 0 []) fun r => ?_
  refine ite_renamed Iff.rfl rfl (congrArg some ?_)
  have hiter := iterate_renamed (φ := relabelLines φ) (afterRemoved_relabel φ newCols newRows)
    (dropRanges r.1 0 r.2 0).2 { b with lines := (dropRanges r.1 0 r.2 0).1 }
  have hdrop := dropRanges_relabel φ r.1 0 r.2 0
  simp only [Prod.map_fst, Prod.map_snd, id_eq, hdrop]
  exact congrArg (fun b : Lines => { b with savedY := b.savedY - (dropRanges r.1 0 r.2 0).2 }) hiter

/-! ## To a smaller width -/

theorem unwrapLoop_relabel (oldCols : ℕ) (dest : List ℕ) (fuel : ℕ) (group : List Row) (destIdx : ℤ)
    (destCol : ℕ) (srcIdx : ℤ) (srcCol : ℕ) :
    unwrapLoop oldCols dest fuel (group.map (relabelRow φ)) destIdx destCol srcIdx srcCol =
      (unwrapLoop oldCols dest fuel group destIdx destCol srcIdx srcCol).map
        (List.map (relabelRow φ)) := by
  induction fuel generalizing group destIdx destCol srcIdx srcCol with
  | zero => rfl
  | succ fuel ih =>
      unfold unwrapLoop
      rw [List.length_map]
      refine ite_renamed Iff.rfl (ite_renamed Iff.rfl ?_ rfl) rfl
      refine bind_same fun srcFrom => bind_same fun destFrom => ?_
      refine bind_renamed (copyCells_relabel φ group _ _ _ _ _) fun group => ?_
      simp only [wrappedLineTrimmedLen_relabel]
      exact bind_same fun src => ite_renamed Iff.rfl rfl (ih group _ _ _ _)

theorem blankAfter_relabel (newCols : ℕ) (rows : List Row) (lens : List ℕ) :
    blankAfter newCols (rows.map (relabelRow φ)) lens =
      (blankAfter newCols rows lens).map (List.map (relabelRow φ)) := by
  induction rows generalizing lens with
  | nil => cases lens <;> rfl
  | cons row rows ih =>
      cases lens with
      | nil => rfl
      | cons len lens =>
          rw [List.map_cons, blankAfter, blankAfter]
          refine bind_renamed (φ := relabelRow φ) ?_ fun row => ?_
          · refine ite_renamed Iff.rfl ?_ rfl
            exact modify_relabel φ row len fun _ => (relabelCell_new φ).symm
          · exact bind_renamed (ih lens) fun rows => rfl

theorem appendBlank_relabel (rows : List Row) (n cols : ℕ) (wrapped : Bool) :
    rows.map (relabelRow φ) ++ List.replicate n (blankLine cols wrapped) =
      (rows ++ List.replicate n (blankLine cols wrapped)).map (relabelRow φ) := by
  rw [List.map_append, List.map_replicate, blankLine_relabel]

theorem rewrapSmaller_relabel (oldCols newCols : ℕ) (group : List Row) :
    rewrapSmaller oldCols newCols (group.map (relabelRow φ)) =
      (rewrapSmaller oldCols newCols group).map (Prod.map (List.map (relabelRow φ)) id) := by
  unfold rewrapSmaller
  simp only [padRows_relabel, List.length_map]
  refine bind_same fun last => ?_
  refine bind_renamed (getElem?_relabel φ _ last) fun lastRow => ?_
  rw [newLineLengths_relabel, trimmedLen_relabel]
  refine bind_same fun dest => ?_
  simp only [appendBlank_relabel, List.length_map]
  refine bind_renamed (unwrapLoop_relabel φ oldCols dest _ _ _ _ _ _) fun group => ?_
  exact bind_renamed (blankAfter_relabel φ newCols group dest) fun group => rfl

/-- The scan, with other link indices in the lines and in what is inserted later. -/
def relabelUnwrap (u : Unwrap) : Unwrap :=
  { u with
    b := relabelLines φ u.b
    toInsert := u.toInsert.map (Prod.map id (List.map (relabelRow φ))) }

@[simp] theorem relabelUnwrap_b (u : Unwrap) : (relabelUnwrap φ u).b = relabelLines φ u.b := rfl

@[simp] theorem relabelUnwrap_toInsert (u : Unwrap) : (relabelUnwrap φ u).toInsert =
    u.toInsert.map (Prod.map id (List.map (relabelRow φ))) := rfl

@[simp] theorem relabelUnwrap_countToInsert (u : Unwrap) :
    (relabelUnwrap φ u).countToInsert = u.countToInsert := rfl

@[simp] theorem relabelUnwrap_liveLen (u : Unwrap) : (relabelUnwrap φ u).liveLen = u.liveLen := rfl

theorem afterAdded_relabel (newRows countToInsert : ℕ) (r : Lines × ℕ) :
    afterAdded newRows countToInsert (Prod.map (relabelLines φ) id r) =
      Prod.map (relabelLines φ) id (afterAdded newRows countToInsert r) := by
  unfold afterAdded
  refine ite_renamed Iff.rfl (ite_renamed Iff.rfl rfl rfl) (ite_renamed Iff.rfl rfl rfl)

theorem groupStart_relabel (lines : List Row) (y : ℕ) :
    groupStart (lines.map (relabelRow φ)) y = groupStart lines y := by
  induction y with
  | zero => rfl
  | succ y ih =>
      unfold groupStart
      refine bind_unnamed (getElem?_relabel φ lines (y + 1)) fun row => ?_
      rw [ih]
      rfl

theorem afterAdded_iterate_relabel (newRows countToInsert n liveLen : ℕ) (b : Lines) :
    (afterAdded newRows countToInsert)^[n] (relabelLines φ b, liveLen) =
      Prod.map (relabelLines φ) id ((afterAdded newRows countToInsert)^[n] (b, liveLen)) :=
  iterate_renamed (φ := Prod.map (relabelLines φ) id)
    (afterAdded_relabel φ newRows countToInsert) n (b, liveLen)

/-- What is put back for a rewrapped group. -/
theorem putBack_relabel (u : Unwrap) (moved : Lines × ℕ) (group : List Row)
    (newRows y n at' add count : ℕ) :
    (do
      let savedMax ← Model.checkedSub ((Prod.map (relabelLines φ) id moved).1.ybase + newRows) 1
      some ({
        b := { (Prod.map (relabelLines φ) id moved).1 with
          savedY := min ((Prod.map (relabelLines φ) id moved).1.savedY + add) savedMax
          lines := (Prod.map (relabelLines φ) id moved).1.lines.take y ++
            (group.map (relabelRow φ)).take n ++
            (Prod.map (relabelLines φ) id moved).1.lines.drop (y + n) }
        toInsert := if ((group.map (relabelRow φ)).drop n).isEmpty then
            (relabelUnwrap φ u).toInsert
          else (relabelUnwrap φ u).toInsert ++ [(at', (group.map (relabelRow φ)).drop n)]
        countToInsert := count
        liveLen := (Prod.map (relabelLines φ) id moved).2 } : Unwrap)) =
      (do
        let savedMax ← Model.checkedSub (moved.1.ybase + newRows) 1
        some ({
          b := { moved.1 with
            savedY := min (moved.1.savedY + add) savedMax
            lines := moved.1.lines.take y ++ group.take n ++ moved.1.lines.drop (y + n) }
          toInsert := if (group.drop n).isEmpty then u.toInsert
            else u.toInsert ++ [(at', group.drop n)]
          countToInsert := count
          liveLen := moved.2 } : Unwrap)).map (relabelUnwrap φ) := by
  refine bind_same fun savedMax => congrArg some ?_
  have hlines : (moved.1.lines.map (relabelRow φ)).take y ++ (group.map (relabelRow φ)).take n ++
        (moved.1.lines.map (relabelRow φ)).drop (y + n) =
      (moved.1.lines.take y ++ group.take n ++ moved.1.lines.drop (y + n)).map
        (relabelRow φ) := by
    rw [List.map_append, List.map_append, List.map_take, List.map_take, List.map_drop]
  have hinsert : (if ((group.map (relabelRow φ)).drop n).isEmpty then
        u.toInsert.map (Prod.map id (List.map (relabelRow φ)))
      else u.toInsert.map (Prod.map id (List.map (relabelRow φ))) ++
        [(at', (group.map (relabelRow φ)).drop n)]) =
      (if (group.drop n).isEmpty then u.toInsert else u.toInsert ++ [(at', group.drop n)]).map
        (Prod.map id (List.map (relabelRow φ))) := by
    rw [← List.map_drop, List.isEmpty_map]
    refine ite_renamed (ψ := List.map (Prod.map id (List.map (relabelRow φ)))) Iff.rfl rfl ?_
    rw [List.map_append]
    rfl
  simp only [Prod.map_fst, relabelLines_lines, relabelUnwrap_toInsert, hlines, hinsert]
  rfl

theorem unwrapGroup_relabel (oldCols newCols newRows : ℕ) (u : Unwrap) (y last : ℕ) :
    unwrapGroup oldCols newCols newRows (relabelUnwrap φ u) y last =
      (unwrapGroup oldCols newCols newRows u y last).map (relabelUnwrap φ) := by
  have hsource : ((relabelUnwrap φ u).b.lines.drop y).take (last - y + 1) =
      ((u.b.lines.drop y).take (last - y + 1)).map (relabelRow φ) := by
    rw [List.map_take, List.map_drop]
    rfl
  unfold unwrapGroup
  simp only [hsource]
  refine bind_renamed (rewrapSmaller_relabel φ oldCols newCols _) fun r => ?_
  obtain ⟨group, dest⟩ := r
  simp only [Prod.map_apply, id_eq, relabelUnwrap_b, afterAdded_iterate_relabel]
  exact putBack_relabel φ u _ group newRows y _ _ _ _

theorem smallerLoop_relabel (oldCols newCols newRows fuel : ℕ) (u : Unwrap) (y : ℕ) :
    smallerLoop oldCols newCols newRows fuel (relabelUnwrap φ u) y =
      (smallerLoop oldCols newCols newRows fuel u y).map (relabelUnwrap φ) := by
  induction fuel generalizing u y with
  | zero => rfl
  | succ fuel ih =>
      cases y with
      | zero => rfl
      | succ y =>
          unfold smallerLoop
          rw [show (relabelUnwrap φ u).b.lines = u.b.lines.map (relabelRow φ) from rfl]
          refine bind_renamed (getElem?_relabel φ u.b.lines y) fun row => ?_
          rw [trimmedLen_relabel, groupStart_relabel]
          refine ite_renamed Iff.rfl (ih u y) (bind_same fun start => ?_)
          refine ite_renamed Iff.rfl (ih u start) ?_
          exact bind_renamed (unwrapGroup_relabel φ oldCols newCols newRows u start y) fun u =>
            ih u start

theorem insertLinesAt_relabel (lines : List Row) (idx : ℕ) (pending : List (ℕ × List Row)) :
    insertLinesAt (lines.map (relabelRow φ)) idx
        (pending.map (Prod.map id (List.map (relabelRow φ)))) =
      (insertLinesAt lines idx pending).map (relabelRow φ) := by
  induction lines generalizing idx pending with
  | nil =>
      rw [List.map_nil, insertLinesAt, insertLinesAt, List.flatMap_map, List.map_flatMap]
      rfl
  | cons line lines ih =>
      rw [List.map_cons, insertLinesAt, insertLinesAt, List.takeWhile_map, List.dropWhile_map, ih,
        List.flatMap_map, List.map_append, List.map_cons, List.map_flatMap]
      rfl

theorem insertionSort_relabel (pending : List (ℕ × List Row)) :
    (pending.map (Prod.map id (List.map (relabelRow φ)))).insertionSort (fun p q => p.1 ≤ q.1) =
      (pending.insertionSort fun p q => p.1 ≤ q.1).map (Prod.map id (List.map (relabelRow φ))) :=
  (List.map_insertionSort (fun p q : ℕ × List Row => p.1 ≤ q.1)
    (fun p q : ℕ × List Row => p.1 ≤ q.1) (Prod.map id (List.map (relabelRow φ))) pending
    fun _ _ _ _ => Iff.rfl).symm

theorem reflowSmaller_relabel (b : Lines) (oldCols newCols newRows : ℕ) :
    reflowSmaller (relabelLines φ b) oldCols newCols newRows =
      (reflowSmaller b oldCols newCols newRows).map (relabelLines φ) := by
  unfold reflowSmaller
  rw [relabelLines_lines, List.length_map]
  refine bind_renamed (smallerLoop_relabel φ oldCols newCols newRows _ ⟨b, [], 0, b.lines.length⟩ _)
    fun u => ?_
  simp only [relabelUnwrap_b, relabelLines_lines, relabelLines_maxLen, relabelUnwrap_liveLen,
    relabelUnwrap_toInsert, List.isEmpty_map, insertionSort_relabel, ← List.map_take,
    insertLinesAt_relabel, List.length_map, ← List.map_drop]
  exact ite_renamed Iff.rfl rfl rfl

/-! ## The resize -/

theorem growOne_relabel (cols newRows : ℕ) (r : Lines × ℕ) :
    growOne cols newRows (Prod.map (relabelLines φ) id r) =
      Prod.map (relabelLines φ) id (growOne cols newRows r) := by
  have hblank : r.1.lines.map (relabelRow φ) ++ [blankLine cols false] =
      (r.1.lines ++ [blankLine cols false]).map (relabelRow φ) := appendBlank_relabel φ _ 1 cols false
  unfold growOne
  simp only [Prod.map_fst, Prod.map_snd, id_eq, relabelLines_lines, relabelLines_ybase,
    relabelLines_y, List.length_map, hblank]
  exact ite_renamed Iff.rfl (ite_renamed Iff.rfl rfl rfl) rfl

theorem shrinkOne_relabel (newRows : ℕ) (b : Lines) :
    shrinkOne newRows (relabelLines φ b) = relabelLines φ (shrinkOne newRows b) := by
  unfold shrinkOne
  simp only [relabelLines_lines, relabelLines_ybase, relabelLines_y, List.length_map,
    ← List.map_dropLast]
  exact ite_renamed Iff.rfl (ite_renamed Iff.rfl rfl rfl) rfl

theorem cropLine_relabel (newCols : ℕ) (line : Row) :
    cropLine newCols (relabelRow φ line) = relabelRow φ (cropLine newCols line) := by
  have hcells : (relabelRow φ line).cells = line.cells.map (relabelCell φ) := rfl
  unfold cropLine
  rw [hcells, List.length_map]
  refine ite_renamed Iff.rfl ?_ rfl
  simp only [← List.map_take, List.getLast?_map]
  cases (line.cells.take newCols).getLast? with
  | none => rfl
  | some last =>
      refine congrArg (fun cells => Row.mk cells line.wrapped) ?_
      refine ite_renamed (ψ := List.map (relabelCell φ)) Iff.rfl ?_ rfl
      rw [List.map_append, List.map_dropLast, List.map_singleton, relabelCell_new]

theorem widenRows_relabel (cols : ℕ) (rows : List Row) :
    (rows.map (relabelRow φ)).map (fun line =>
        { line with cells := resizeCells line.cells cols Cell.new }) =
      (rows.map fun line => { line with cells := resizeCells line.cells cols Cell.new }).map
        (relabelRow φ) := by
  rw [List.map_map, List.map_map]
  refine List.map_congr_left fun row _ => congrArg (fun cells => Row.mk cells row.wrapped) ?_
  exact resizeCells_relabel φ row.cells cols (relabelCell_new φ).symm

theorem linesOf_relabel (k : ℕ) (g : Grid) (size : Size) :
    linesOf (relabelGrid φ k g) size = relabelLines φ (linesOf g size) := by
  have hrows : (if g.size.cols < size.cols then
        (g.rows.map (relabelRow φ)).map fun line =>
          { line with cells := resizeCells line.cells size.cols Cell.new }
      else g.rows.map (relabelRow φ)) =
      (if g.size.cols < size.cols then
        g.rows.map fun line => { line with cells := resizeCells line.cells size.cols Cell.new }
      else g.rows).map (relabelRow φ) :=
    ite_renamed (ψ := List.map (relabelRow φ)) Iff.rfl (widenRows_relabel φ size.cols g.rows) rfl
  have hlines : (linesOf (relabelGrid φ k g) size).lines =
      (linesOf g size).lines.map (relabelRow φ) := by
    unfold linesOf
    rw [List.map_append, ← hrows]
    rfl
  have hbase : (linesOf (relabelGrid φ k g) size).ybase = (linesOf g size).ybase :=
    List.length_map _
  have hsaved : (linesOf (relabelGrid φ k g) size).savedY = (linesOf g size).savedY :=
    congrArg (fun n => if g.savedSet then n + g.savedPos.row else 0) hbase
  exact (Lines.mk.injEq ..).mpr ⟨hlines, hbase, rfl, hsaved, rfl⟩

theorem fitRows_relabel (oldRows : ℕ) (size : Size) (b : Lines) :
    fitRows oldRows size (relabelLines φ b) =
      Prod.map (relabelLines φ) id (fitRows oldRows size b) := by
  unfold fitRows
  refine ite_renamed Iff.rfl ?_ ?_
  · exact iterate_renamed (φ := Prod.map (relabelLines φ) id) (growOne_relabel φ _ _) _ (b, 0)
  · exact congrArg (·, 0) (iterate_renamed (shrinkOne_relabel φ size.rows) _ b)

theorem surplus_relabel (k : ℕ) (g : Grid) (b : Lines) :
    surplus (relabelGrid φ k g) (relabelLines φ b) = surplus g b := by
  unfold surplus
  rw [relabelLines_lines, List.length_map]
  rfl

theorem cutTop_relabel (last trim : ℕ) (r : Lines × ℕ) :
    cutTop last trim (Prod.map (relabelLines φ) id r) = relabelLines φ (cutTop last trim r) := by
  unfold cutTop
  simp only [Prod.map_fst, Prod.map_snd, relabelLines_lines, ← List.map_drop]
  rfl

theorem gather_relabel (k : ℕ) (g : Grid) (size : Size) :
    (relabelGrid φ k g).gather size = (g.gather size).map (Prod.map (relabelLines φ) id) := by
  rw [gather_eq, gather_eq, Option.map_map, linesOf_relabel]
  congr 1
  funext last
  rw [show (relabelGrid φ k g).size = g.size from rfl, fitRows_relabel, cutTop_relabel,
    Prod.map_fst, surplus_relabel]
  rfl

theorem rewrapped_relabel (oldCols : ℕ) (size : Size) (reflow : Bool) (b : Lines) :
    rewrapped oldCols size reflow (relabelLines φ b) =
      (rewrapped oldCols size reflow b).map (relabelLines φ) := by
  unfold rewrapped
  refine ite_renamed Iff.rfl (ite_renamed Iff.rfl ?_ ?_) rfl
  · exact reflowLarger_relabel φ b _ _ _
  · exact reflowSmaller_relabel φ b _ _ _

theorem cutLines_relabel (cols : ℕ) (b : Lines) :
    cutLines cols (relabelLines φ b) = (cutLines cols b).map (relabelRow φ) := by
  have hcrop : (b.lines.map (relabelRow φ)).map (cropLine cols) =
      (b.lines.map (cropLine cols)).map (relabelRow φ) := by
    rw [List.map_map, List.map_map]
    exact List.map_congr_left fun row _ => cropLine_relabel φ cols row
  unfold cutLines
  simp only [relabelLines_lines, relabelLines_ybase, hcrop, List.map_append, ← widenRows_relabel,
    List.map_take, List.map_drop]

theorem padLines_relabel (cols need : ℕ) (lines : List Row) :
    padLines cols need (lines.map (relabelRow φ)) =
      (padLines cols need lines).map (relabelRow φ) := by
  unfold padLines
  rw [List.length_map, appendBlank_relabel, List.map_take]

theorem putLines_relabel (k : ℕ) (g : Grid) (size : Size) (lastRow lastCol trim : ℕ) (b : Lines)
    (lines : List Row) :
    putLines (relabelGrid φ k g) size lastRow lastCol trim (relabelLines φ b)
        (lines.map (relabelRow φ)) =
      relabelGrid φ k (putLines g size lastRow lastCol trim b lines) := by
  unfold putLines
  simp only [relabelGrid, relabelLines_ybase, ← List.map_take, ← List.map_drop, List.length_map]
  rw [Nat.add_right_comm]
  rfl

theorem setSize_relabel (k : ℕ) (g : Grid) (size : Size) (reflow : Bool) :
    (relabelGrid φ k g).setSize size reflow = (g.setSize size reflow).map (relabelGrid φ k) := by
  rw [setSize_eq, setSize_eq]
  refine ite_renamed Iff.rfl rfl ?_
  refine bind_renamed (gather_relabel φ k g size) fun r => ?_
  refine bind_renamed (rewrapped_relabel φ g.size.cols size reflow r.1) fun b => ?_
  refine bind_same fun lastRow => bind_same fun lastCol => ?_
  refine bind_renamed (φ := relabelGrid φ k) ?_ fun g => bind_same fun tabStops => rfl
  rw [cutLines_relabel, padLines_relabel, putLines_relabel]
  exact padScrollbackWindow_relabel φ k _

end

end Tymux.Analysis.Vt
