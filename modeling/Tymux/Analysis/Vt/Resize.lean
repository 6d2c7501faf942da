import Tymux.Analysis.Vt.Narrowing
import Tymux.Analysis.Vt.Screens

/-!
# Resizing keeps the invariant

`set_size` puts scrollback and drawn rows into one list of lines (`gather`), rewraps it, crops it to
the new width and cuts it in two again. The lines are paired at each stage, and the index of the first
drawn one stays within the limit of the scrollback: a row that is pushed out of the screen at the top
is trimmed from the list where the scrollback is full. The rows in view are padded at the end.
-/

set_option autoImplicit false

namespace Tymux.Analysis.Vt

open Tymux.Lib Tymux.Model Tymux.Model.Vt

/-! ## Gathering the lines -/

section

variable {P : Row → Prop} {cap cols : ℕ}

/-- SRC: reflow.rs:429-437 -/
theorem growOne_iterate (newRows : ℕ) (hblank : P (blankLine cols false)) (n : ℕ) (r : Lines × ℕ)
    (hlines : ∀ row ∈ r.1.lines, P row) (hbase : r.1.ybase ≤ cap) :
    let r' := (growOne cols newRows)^[n] r
    (∀ row ∈ r'.1.lines, P row) ∧ r'.1.ybase ≤ cap ∧ r'.1.maxLen = r.1.maxLen := by
  induction n generalizing r with
  | zero => exact ⟨hlines, hbase, rfl⟩
  | succ n ih =>
      have hstep : (∀ row ∈ (growOne cols newRows r).1.lines, P row) ∧
          (growOne cols newRows r).1.ybase ≤ cap ∧
          (growOne cols newRows r).1.maxLen = r.1.maxLen := by
        unfold growOne
        dsimp only
        split
        · split
          · exact ⟨hlines, (Nat.sub_le _ _).trans hbase, rfl⟩
          · dsimp only
            rw [List.forall_mem_append, List.forall_mem_singleton]
            exact ⟨⟨hlines, hblank⟩, hbase, rfl⟩
        · exact ⟨hlines, hbase, rfl⟩
      obtain ⟨hlines', hbase', hmax⟩ := ih _ hstep.1 hstep.2.1
      dsimp only
      rw [Function.iterate_succ_apply]
      exact ⟨hlines', hbase', hmax.trans hstep.2.2⟩

/-- The screen moves down only as long as there are lines enough below its top.
SRC: reflow.rs:440-448 -/
theorem shrinkOne_iterate (newRows n : ℕ) (b : Lines) (hlines : ∀ row ∈ b.lines, P row)
    (hbase : b.ybase ≤ cap ∨ b.ybase + newRows ≤ b.lines.length) :
    let b' := (shrinkOne newRows)^[n] b
    (∀ row ∈ b'.lines, P row) ∧ (b'.ybase ≤ cap ∨ b'.ybase + newRows ≤ b'.lines.length) ∧
      b'.maxLen = b.maxLen := by
  induction n generalizing b with
  | zero => exact ⟨hlines, hbase, rfl⟩
  | succ n ih =>
      have hstep : (∀ row ∈ (shrinkOne newRows b).lines, P row) ∧
          ((shrinkOne newRows b).ybase ≤ cap ∨
            (shrinkOne newRows b).ybase + newRows ≤ (shrinkOne newRows b).lines.length) ∧
          (shrinkOne newRows b).maxLen = b.maxLen := by
        unfold shrinkOne
        split
        · split
          · refine ⟨fun row hrow => hlines row (List.dropLast_subset _ hrow), Or.inr ?_, rfl⟩
            dsimp only
            rw [List.length_dropLast]
            omega
          · refine ⟨hlines, Or.inr ?_, rfl⟩
            dsimp only
            omega
        · exact ⟨hlines, hbase, rfl⟩
      obtain ⟨hlines', hbase', hmax⟩ := ih _ hstep.1 hstep.2.1
      dsimp only
      rw [Function.iterate_succ_apply]
      exact ⟨hlines', hbase', hmax.trans hstep.2.2⟩

variable {b : Frame} {g : Grid} {size : Size}

/-- INTERNAL: The lines that go into the reflow, and where the screen starts in them.
SRC: reflow.rs:400-460 -/
theorem yields_gather (h : Fits b g) (hrows : 1 ≤ size.rows) (hhistory : ∀ row ∈ g.scrollback, P row)
    (hdrawn : ∀ row ∈ (if g.size.cols < size.cols then
      g.rows.map fun line => { line with cells := resizeCells line.cells size.cols Cell.new }
      else g.rows), P row) (hblank : P (blankLine size.cols false)) :
    Yields (g.gather size) fun r => (∀ row ∈ r.1.lines, P row) ∧ r.1.ybase ≤ b.cap ∧
      r.1.maxLen = b.cap + size.rows := by
  have hlen := h.history_len
  have hcap := h.cap_eq
  unfold Grid.gather
  dsimp only
  generalize hrest : (if g.size.cols < size.cols then
    g.rows.map fun line => { line with cells := resizeCells line.cells size.cols Cell.new }
    else g.rows) = rows at *
  have hlines : ∀ row ∈ g.scrollback ++ rows, P row := by
    rw [List.forall_mem_append]
    exact ⟨hhistory, hdrawn⟩
  rw [checkedSub_of_le hrows]
  simp only [Option.bind_eq_bind, Option.bind_some, Option.pure_def]
  refine yields_some ?_
  generalize hstart : (⟨g.scrollback ++ rows, g.scrollback.length, g.pos.row,
    if g.savedSet then g.scrollback.length + g.savedPos.row else 0,
    g.scrollbackLen + size.rows⟩ : Lines) = b₀
  have hlines₀ : ∀ row ∈ b₀.lines, P row := by
    rw [← hstart]
    exact hlines
  have hbase₀ : b₀.ybase ≤ b.cap := by
    rw [← hstart]
    exact hlen
  have hmax₀ : b₀.maxLen = b.cap + size.rows := by
    rw [← hstart, ← hcap]
  by_cases hgrow : g.size.rows < size.rows
  · obtain ⟨hlines', hbase', hmax'⟩ := growOne_iterate size.rows hblank
      (size.rows - g.size.rows) (b₀, 0) hlines₀ hbase₀
    rw [if_pos hgrow]
    refine ⟨fun row hrow => hlines' row (List.mem_of_mem_drop hrow), ?_, ?_⟩
    · exact (Nat.sub_le _ _).trans hbase'
    · exact hmax'.trans hmax₀
  · obtain ⟨hlines', hbase', hmax'⟩ := shrinkOne_iterate size.rows
      (g.size.rows - size.rows) b₀ hlines₀ (Or.inl hbase₀)
    rw [if_neg hgrow]
    dsimp only
    refine ⟨fun row hrow => hlines' row (List.mem_of_mem_drop hrow), ?_, hmax'.trans hmax₀⟩
    rw [hmax', hmax₀, hcap]
    by_cases htrim : b.cap + size.rows < b.cap + g.size.rows
    · rw [if_pos htrim]
      omega
    · -- no row less, so nothing has moved
      have hsame : g.size.rows - size.rows = 0 := by omega
      rw [if_neg htrim, hsame]
      exact (Nat.sub_le _ _).trans hbase₀

/-! ## The tab stops -/

theorem yields_lastStop (stops : List Bool) {c : ℕ} (hc : c < stops.length) :
    Yields (lastStop stops c) fun c' => c' ≤ c := by
  induction c with
  | zero => exact yields_some (le_refl 0)
  | succ c ih =>
      unfold lastStop
      rw [List.getElem?_eq_getElem hc]
      simp only [Option.bind_eq_bind, Option.bind_some]
      split
      · exact yields_some (le_refl _)
      · exact (ih (Nat.lt_of_succ_lt hc)).mono fun c' hle => hle.trans (Nat.le_succ c)

/-- SRC: reflow.rs:510-519 -/
theorem yields_resizeTabStops (stops : List Bool) {newCols : ℕ} (hcols : 1 ≤ newCols) :
    Yields (resizeTabStops stops newCols) fun stops' => stops'.length = newCols := by
  unfold resizeTabStops
  have hlen : (stops.take newCols ++ List.replicate (newCols - stops.length) false).length =
      newCols := by
    rw [List.length_append, List.length_take, List.length_replicate]
    omega
  dsimp only
  generalize stops.take newCols ++ List.replicate (newCols - stops.length) false = padded at *
  rw [checkedSub_of_le hcols]
  simp only [Option.bind_eq_bind, Option.bind_some]
  refine (yields_lastStop padded (by omega)).bind fun c hc => ?_
  refine yields_foldlM (fun stops : List Bool => stops.length = newCols) _ (fun stops' i hi hstops => ?_) hlen
  obtain ⟨n, hn, rfl⟩ := List.mem_range'.mp hi
  have hupdate : Yields (updateAt stops' (c + 8 * n) fun _ => some (decide (c + 8 * n ≠ 0)))
      fun stops'' => ∃ a a', stops'[c + 8 * n]? = some a ∧ True ∧ stops'' = stops'.set (c + 8 * n) a' :=
    yields_updateAt (by omega) fun a _ => yields_some trivial
  refine hupdate.mono ?_
  rintro stops'' ⟨a, a', -, -, rfl⟩
  rw [List.length_set]
  exact hstops

/-! ## Cutting the lines in two -/

/-- INTERNAL: The lines of the new size: the scrollback, as long as it is, and the rows.
SRC: reflow.rs:470-499 -/
theorem cut_lines {lines : List Row} (ybase : ℕ) (hlines : ∀ row ∈ lines, Croppable size.cols row) :
    let cropped := lines.map (cropLine size.cols)
    let drawn := cropped.take ybase ++ (cropped.drop ybase).map fun line =>
      { line with cells := resizeCells line.cells size.cols Cell.new }
    let all := (drawn ++ List.replicate (ybase + size.rows - drawn.length)
      (blankLine size.cols false)).take (ybase + size.rows)
    (all.take ybase).length = ybase ∧ (all.drop ybase).length = size.rows ∧
      (∀ row ∈ all.take ybase, Cropped size.cols row) ∧
      ∀ row ∈ all.drop ybase, RowFits size.cols row := by
  have hcropped : ∀ row ∈ lines.map (cropLine size.cols), Cropped size.cols row := by
    intro row hrow
    obtain ⟨line, hline, rfl⟩ := List.mem_map.mp hrow
    exact hlines line hline
  generalize lines.map (cropLine size.cols) = cropped at *
  dsimp only
  generalize hdrawn : cropped.take ybase ++ (cropped.drop ybase).map (fun line : Row =>
    { line with cells := resizeCells line.cells size.cols Cell.new }) = drawn
  generalize hall : (drawn ++ List.replicate (ybase + size.rows - drawn.length)
    (blankLine size.cols false)) = all
  have hlen : ybase + size.rows ≤ all.length := by
    rw [← hall, List.length_append, List.length_replicate]
    omega
  refine ⟨?_, ?_, ?_, ?_⟩
  · rw [List.length_take, List.length_take]
    omega
  · rw [List.length_drop, List.length_take]
    omega
  · intro row hrow
    have hmem : row ∈ drawn ++ List.replicate (ybase + size.rows - drawn.length)
        (blankLine size.cols false) := by
      rw [hall]
      exact List.mem_of_mem_take (List.mem_of_mem_take hrow)
    rw [← hdrawn, List.append_assoc, List.mem_append, List.mem_append] at hmem
    rcases hmem with hmem | hmem | hmem
    · exact hcropped row (List.mem_of_mem_take hmem)
    · obtain ⟨line, hline, rfl⟩ := List.mem_map.mp hmem
      have hfit := hcropped line (List.mem_of_mem_drop hline)
      exact ⟨(length_resizeCells _ _ _).le, paired_resizeCells hfit.2 hfit.1 single_new⟩
    · rw [List.eq_of_mem_replicate hmem]
      exact cropped_blankLine size.cols false
  · intro row hrow
    rw [List.drop_take, ← hall, ← hdrawn] at hrow
    have hmem := List.mem_of_mem_take hrow
    have hbehind : row ∈ (cropped.drop ybase).map (fun line : Row =>
        { line with cells := resizeCells line.cells size.cols Cell.new }) ∨
        row ∈ List.replicate (ybase + size.rows - drawn.length) (blankLine size.cols false) := by
      rw [List.append_assoc, List.drop_append, List.mem_append, List.length_take] at hmem
      rcases hmem with hmem | hmem
      · rw [List.drop_eq_nil_of_le (by rw [List.length_take]; omega)] at hmem
        exact absurd hmem List.not_mem_nil
      · rw [← hdrawn]
        exact List.mem_append.mp (List.mem_of_mem_drop hmem)
    rcases hbehind with hmem | hmem
    · obtain ⟨line, hline, rfl⟩ := List.mem_map.mp hmem
      have hfit := hcropped line (List.mem_of_mem_drop hline)
      exact ⟨length_resizeCells _ _ _, paired_resizeCells hfit.2 hfit.1 single_new⟩
    · rw [List.eq_of_mem_replicate hmem]
      exact rowFits_wrap (rowFits_new size.cols) false

/-! ## The resize -/

/-- The lines that go into the reflow to a larger width. -/
theorem yields_gather_larger (h : Fits b g) (hrows : 1 ≤ size.rows) (hlt : g.size.cols < size.cols) :
    Yields (g.gather size) fun r => (∀ row ∈ r.1.lines, Unwidened g.size.cols size.cols row) ∧
      r.1.ybase ≤ b.cap ∧ r.1.maxLen = b.cap + size.rows := by
  apply yields_gather h hrows
  · intro row hrow
    obtain ⟨hlen, hpaired⟩ := h.history_fit row hrow
    rw [← h.cols_eq] at hlen
    refine ⟨hlen.trans hlt.le, hpaired, ?_⟩
    rw [List.drop_eq_nil_of_le hlen]
    exact fun c hc => absurd hc List.not_mem_nil
  · rw [if_pos hlt]
    intro row hrow
    obtain ⟨line, hline, rfl⟩ := List.mem_map.mp hrow
    obtain ⟨hlen, hpaired⟩ := h.rows_fit line hline
    rw [← h.cols_eq] at hlen
    have hle : line.cells.length ≤ size.cols := by omega
    refine ⟨(length_resizeCells _ _ _).le, paired_resizeCells hpaired hle single_new, ?_⟩
    intro c hc
    dsimp only [resizeCells] at hc
    rw [List.take_of_length_le hle, List.drop_append, List.drop_eq_nil_of_le hlen.le,
      List.nil_append] at hc
    rw [List.eq_of_mem_replicate (List.mem_of_mem_drop hc)]
    exact vacant_new
  · refine ⟨(rowFits_new size.cols).1.le, (rowFits_new size.cols).2, ?_⟩
    intro c hc
    have hnew : c = Cell.new := List.eq_of_mem_replicate (List.mem_of_mem_drop hc)
    rw [hnew]
    exact vacant_new

/-- The lines that go into the reflow to a smaller width, or into none. -/
theorem yields_gather_smaller (h : Fits b g) (hrows : 1 ≤ size.rows) (hle : size.cols ≤ g.size.cols) :
    Yields (g.gather size) fun r => (∀ row ∈ r.1.lines, Cropped g.size.cols row) ∧
      r.1.ybase ≤ b.cap ∧ r.1.maxLen = b.cap + size.rows := by
  apply yields_gather h hrows
  · rw [h.cols_eq]
    exact h.history_fit
  · rw [if_neg (Nat.not_lt.mpr hle), h.cols_eq]
    intro row hrow
    exact ⟨(h.rows_fit row hrow).1.le, (h.rows_fit row hrow).2⟩
  · exact ⟨(rowFits_new size.cols).1.le.trans hle, (rowFits_new size.cols).2⟩

/-- INTERNAL: Gathered and rewrapped, every line can be cropped.
SRC: reflow.rs:400-469 -/
theorem yields_reflowed (h : Fits b g) (hrows : 1 ≤ size.rows) {reflow : Bool}
    (hcap : reflow = true → 2 ≤ size.cols → size.cols < g.size.cols → 1 ≤ b.cap) :
    Yields (g.gather size) fun r => Yields (if reflow ∧ g.size.cols ≠ size.cols ∧ 2 ≤ size.cols then
        if g.size.cols < size.cols then reflowLarger r.1 g.size.cols size.cols size.rows
        else reflowSmaller r.1 g.size.cols size.cols size.rows
      else some r.1) fun lines =>
        (∀ row ∈ lines.lines, Croppable size.cols row) ∧ lines.ybase ≤ b.cap := by
  have hcols : 1 ≤ g.size.cols := by
    rw [h.cols_eq]
    exact h.cols_pos
  by_cases hlt : g.size.cols < size.cols
  · refine (yields_gather_larger h hrows hlt).mono ?_
    rintro ⟨lines, trim⟩ ⟨hlines, hbase, hmax⟩
    dsimp only at hlines hbase hmax ⊢
    rw [if_pos hlt]
    split
    · refine (yields_reflowLarger hcols hlt hlines size.rows).mono ?_
      rintro lines' ⟨hcropped, hbase'⟩
      exact ⟨fun row hrow => croppable_of_paired (hcropped row hrow).2, hbase'.trans hbase⟩
    · exact yields_some ⟨fun row hrow => croppable_of_paired (hlines row hrow).paired, hbase⟩
  · refine (yields_gather_smaller h hrows (Nat.le_of_not_lt hlt)).mono ?_
    rintro ⟨lines, trim⟩ ⟨hlines, hbase, hmax⟩
    dsimp only at hlines hbase hmax ⊢
    rw [if_neg hlt]
    split
    · rename_i hreflow
      have hfewer : size.cols < g.size.cols :=
        lt_of_le_of_ne (Nat.le_of_not_lt hlt) (Ne.symm hreflow.2.1)
      have hpos := hcap hreflow.1 hreflow.2.2 hfewer
      refine (yields_reflowSmaller hreflow.2.2 hfewer hrows (by omega) (by omega) hlines).mono ?_
      rintro lines' ⟨hcroppable, hbase'⟩
      exact ⟨hcroppable, by omega⟩
    · exact yields_some ⟨fun row hrow => croppable_of_paired (hlines row hrow).2, hbase⟩

/-- Padding does not look at the tab stops, which are resized after it. -/
theorem padScrollbackWindow_tabStops (g : Grid) (tabStops : List Bool) :
    { g with tabStops }.padScrollbackWindow =
      g.padScrollbackWindow.map fun g' => { g' with tabStops } := by
  unfold Grid.padScrollbackWindow
  dsimp only
  rw [checkedSub_of_le (min_le_right _ _)]
  rfl

theorem yields_padAndTabs (h : ∀ tabStops : List Bool, tabStops.length = b.size.cols →
      Fits { b with view := False } { g with tabStops }) :
    Yields (g.padScrollbackWindow >>= fun g' => do
      let tabStops ← resizeTabStops g'.tabStops b.size.cols
      return { g' with tabStops }) (Fits b) := by
  have hblank := h _ (List.length_replicate (n := b.size.cols) (a := false))
  obtain ⟨padded, hpadded, hfits⟩ := yields_padScrollbackWindow hblank
  rw [padScrollbackWindow_tabStops] at hpadded
  obtain ⟨g', hg', rfl⟩ := Option.map_eq_some_iff.mp hpadded
  refine yields_bind_of_eq hg' ?_
  refine (yields_resizeTabStops g'.tabStops hblank.cols_pos).bind fun tabStops hlen => ?_
  apply yields_some
  exact hfits.putTabs (hlen.trans List.length_replicate.symm)

/-- INTERNAL: A grid that is resized satisfies the invariant of the new size, with all its rows
allocated and the rows in view padded.
SRC: reflow.rs:394-520 -/
theorem yields_setSize (h : Fits b g) (hrows : 1 ≤ size.rows) (hcols : 1 ≤ size.cols)
    (hmax : size.cols ≤ u16Max) {reflow : Bool}
    (hcap : reflow = true → 2 ≤ size.cols → size.cols < g.size.cols → 1 ≤ b.cap)
    (hne : size ≠ g.size) :
    Yields (g.setSize size reflow)
      (Fits { size, cap := b.cap, freed := b.freed, drawn := size.rows, view := b.view }) := by
  unfold Grid.setSize
  rw [if_neg hne]
  refine (yields_reflowed h hrows hcap).bind ?_
  rintro ⟨lines, trim⟩ hreflow
  refine hreflow.bind ?_
  rintro lines' ⟨hlines, hbase⟩
  obtain ⟨hhistoryLen, hdrawnLen, hhistory, hdrawn⟩ := cut_lines lines'.ybase hlines
  dsimp only at hhistoryLen hdrawnLen hhistory hdrawn ⊢
  refine yields_bind_of_eq (checkedSub_of_le hrows) ?_
  refine yields_bind_of_eq (checkedSub_of_le hcols) ?_
  generalize ((lines'.lines.map (cropLine size.cols)).take lines'.ybase ++
    ((lines'.lines.map (cropLine size.cols)).drop lines'.ybase).map fun line : Row =>
      { line with cells := resizeCells line.cells size.cols Cell.new }) = drawn at *
  generalize (drawn ++ List.replicate (lines'.ybase + size.rows - drawn.length)
    (blankLine size.cols false)).take (lines'.ybase + size.rows) = all at *
  refine yields_padAndTabs (b := ⟨size, b.cap, b.freed, size.rows, b.view⟩) fun tabStops htabs => ?_
  constructor
  case size_eq => rfl
  case cap_eq => exact h.cap_eq
  case freed_le => exact h.freed_le.trans (Nat.le_add_right _ _)
  case rows_pos => exact hrows
  case cols_pos => exact hcols
  case cols_le => exact hmax
  case rows_len => exact hdrawnLen
  case rows_fit => exact hdrawn
  case history_fit => exact hhistory
  case pos_row =>
    dsimp only
    omega
  case pos_col =>
    dsimp only
    omega
  case saved_row =>
    dsimp only
    omega
  case region_le => exact Nat.zero_le _
  case region_lt =>
    dsimp only
    omega
  case history_len => exact hhistoryLen.le.trans hbase
  case offset_le => exact min_le_right _ _
  case view_full => exact fun hfalse => hfalse.elim
  case tabs_len => exact htabs

/-- INTERNAL: The resize of both grids, of which only the first is rewrapped.
SRC: screen.rs:220-224 -/
theorem yields_screenSetSize {V : Prop} {old : Size} {s : Screen} (h : ScreenFits V old cap s)
    (hcap : 1 ≤ cap) {rows cols : ℕ} (hrows : 1 ≤ rows) (hcols : 1 ≤ cols) (hmax : cols ≤ u16Max) :
    Yields (s.setSize rows cols) (ScreenFits V ⟨rows, cols⟩ cap) := by
  unfold Screen.setSize
  by_cases hsame : (⟨rows, cols⟩ : Size) = old
  · have hmain : s.grid.setSize ⟨rows, cols⟩ true = some s.grid := by
      unfold Grid.setSize
      rw [if_pos (hsame.trans h.main.size_eq.symm)]
    have halt : s.alternateGrid.setSize ⟨rows, cols⟩ false = some s.alternateGrid := by
      unfold Grid.setSize
      rw [if_pos (hsame.trans h.alternate.size_eq.symm)]
    rw [hmain, halt, hsame]
    exact yields_some h
  · have hmain : Yields (s.grid.setSize ⟨rows, cols⟩ true) _ :=
      yields_setSize h.main hrows hcols hmax (fun _ _ _ => hcap)
        (fun heq => hsame (heq.trans h.main.size_eq))
    have halt : Yields (s.alternateGrid.setSize ⟨rows, cols⟩ false) _ :=
      yields_setSize h.alternate hrows hcols hmax (fun hfalse => absurd hfalse Bool.false_ne_true)
        (fun heq => hsame (heq.trans h.alternate.size_eq))
    refine hmain.bind fun grid hgrid => ?_
    refine halt.bind fun alternateGrid halternate => yields_some ?_
    have hlen : alternateGrid.rows.length = rows := halternate.rows_len
    constructor
    case main => exact hgrid.rebase
    case alternate =>
      dsimp only
      rw [hlen]
      exact halternate.rebase
    case drawn => exact Or.inr hlen
    case shown => exact fun _ => hlen
    case mark =>
      have hfreed := hgrid.freed_le
      have hfreed' := halternate.freed_le
      have hmark := h.mark
      unfold Screen.freedRows at hmark ⊢
      dsimp only at hfreed hfreed' ⊢
      omega

end

end Tymux.Analysis.Vt
