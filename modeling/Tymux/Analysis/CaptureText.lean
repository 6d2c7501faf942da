import Tymux.Model.Snapshot
import Tymux.Analysis.Vt.Representation
import Tymux.Analysis.Vte
import Tymux.Lib.TrimEnd

/-!
# The text of a capture and the text of the screen

A snapshot has an empty text for a blank cell and for the second half of a wide character, and the
`capture` command prints a space for both. The emulator's writer of a row prints nothing for a second
half. A row in which visible text follows a wide character is therefore longer in the capture, and
every other row is the same.
-/

set_option autoImplicit false

namespace Tymux.Analysis

open Tymux.Lib Tymux.Model Tymux.Model.Vt Tymux.Analysis.Vt

/-! ## The texts of a row -/

/-- What the capture prints for a cell. -/
def shownCell (c : Cell) : List Char := if c.contents.isEmpty then [' '] else c.contents

/-- What the row writer prints for a cell, if it comes as far. -/
def drawnCell (c : Cell) : List Char := if c.wideContinuation then [] else shownCell c

/-- No visible text stands behind a wide character. -/
def NothingBehindWide (cells : List Cell) : Prop :=
  cells.Pairwise fun c d => c.wide = true → ∀ x ∈ d.contents, isWhitespace x = true

instance (cells : List Cell) : Decidable (NothingBehindWide cells) :=
  decidable_of_iff (cells.Pairwise fun c d => (!c.wide || d.contents.all isWhitespace) = true) (by
    simp only [NothingBehindWide, Bool.or_eq_true, Bool.not_eq_true', List.all_eq_true,
      ← Bool.not_eq_true, ← imp_iff_not_or])

theorem shownCell_ne_nil (c : Cell) : shownCell c ≠ [] := by
  unfold shownCell
  split_ifs with hempty
  · exact List.cons_ne_nil _ _
  · exact fun hnil => hempty (List.isEmpty_iff.mpr hnil)

theorem mem_shownCell {c : Cell} {x : Char} (hx : x ∈ shownCell c) : x = ' ' ∨ x ∈ c.contents := by
  unfold shownCell at hx
  split_ifs at hx with hempty
  · exact Or.inl (List.mem_singleton.mp hx)
  · exact Or.inr hx

theorem contents_subset_shownCell (c : Cell) : c.contents ⊆ shownCell c := by
  unfold shownCell
  split_ifs with hempty
  · rw [List.isEmpty_iff.mp hempty]
    exact List.nil_subset _
  · exact List.Subset.refl _

theorem shownCell_blank {c : Cell} (h : ∀ x ∈ c.contents, isWhitespace x = true) :
    ∀ x ∈ shownCell c, isWhitespace x = true := by
  intro x hx
  rcases mem_shownCell hx with rfl | hx
  · decide
  · exact h x hx

theorem drawnCell_single {c : Cell} (h : Single c) : drawnCell c = shownCell c := by
  unfold drawnCell
  rw [h.2]
  rfl

theorem drawnCell_first {c : Cell} (h : First c) : drawnCell c = shownCell c := by
  unfold drawnCell
  rw [h.2.1]
  rfl

theorem drawnCell_second {c : Cell} (h : Second c) : drawnCell c = [] := by
  unfold drawnCell
  rw [h.2]
  rfl

theorem drawnCell_subset (c : Cell) : drawnCell c ⊆ shownCell c := by
  unfold drawnCell
  split_ifs
  · exact List.nil_subset _
  · exact List.Subset.refl _

/-! ## A row of the snapshot -/

theorem map_range_cells {β : Type} (f : Cell → β) (blank : β) (cells : List Cell) {cols : ℕ}
    (h : cells.length ≤ cols) :
    (List.range cols).map (fun col => (cells[col]?.map f).getD blank) =
      cells.map f ++ List.replicate (cols - cells.length) blank := by
  induction cells generalizing cols with
  | nil =>
      have hblank : (List.range cols).map (fun _ => blank) = List.replicate cols blank := by
        rw [List.map_const', List.length_range]
      simpa using hblank
  | cons c cells ih =>
      rw [List.length_cons] at h
      obtain ⟨k, rfl⟩ := Nat.exists_eq_add_of_le' h
      have hrest := @ih (k + cells.length) (Nat.le_add_left ..)
      rw [Nat.add_sub_cancel] at hrest
      rw [← Nat.add_assoc, List.range_succ_eq_map, List.map_cons, List.map_map, List.map_cons,
        List.cons_append, List.length_cons]
      simp only [Function.comp_def, List.getElem?_cons_zero, List.getElem?_cons_succ,
        Option.map_some, Option.getD_some]
      rw [hrest, Nat.add_assoc, Nat.add_sub_cancel]

/-- The text that the capture makes of one cell. -/
def printCell (c : CellSnapshot) : List Char := if c.text.isEmpty then [' '] else c.text

theorem printCell_cellSnapshot (screen : Screen) (c : Option Cell) (table : LinkTable) :
    printCell (cellSnapshot screen c table).1 = (c.map shownCell).getD [' '] := by
  cases c with
  | none => rfl
  | some c => rfl

theorem map_mapM {α β γ σ : Type} {f : α → StateM σ β} {text : β → γ} {g : α → γ} {as : List α}
    (h : ∀ a ∈ as, ∀ s, text (f a s).1 = g a) (s : σ) :
    ((as.mapM f).run s).1.map text = as.map g := by
  induction as generalizing s with
  | nil => rfl
  | cons a as ih =>
      rw [List.forall_mem_cons] at h
      rw [List.mapM_cons, List.map_cons, ← h.1 s, ← ih h.2 (f a s).2]
      rfl

/-- INTERNAL: What the capture prints for a row of the snapshot.
SRC: pane.rs:1268-1307, main.rs:151-167 -/
theorem print_rowSnapshot (screen : Screen) {row : Row} (table : LinkTable)
    (h : row.cells.length ≤ screen.currentGrid.size.cols) :
    (rowSnapshot screen (some row) table).1.map printCell =
      row.cells.map shownCell ++
        List.replicate (screen.currentGrid.size.cols - row.cells.length) [' '] := by
  rw [← map_range_cells shownCell [' '] row.cells h]
  unfold rowSnapshot
  apply map_mapM
  intro col _ table
  exact printCell_cellSnapshot screen row.cells[col]? table

/-- INTERNAL: What the capture prints for the rows of a snapshot.
SRC: pane.rs:1258-1308, main.rs:151-167 -/
theorem print_snapshot {screen : Screen} {visible : List Row}
    (hvisible : screen.currentGrid.visibleRows = some visible)
    (hlen : visible.length = screen.currentGrid.size.rows)
    (hrows : ∀ row ∈ visible, row.cells.length ≤ screen.currentGrid.size.cols) :
    ∃ snap, snapshotFromScreen screen = some snap ∧
      snap.grid.map (List.map printCell) = visible.map fun row => row.cells.map shownCell ++
        List.replicate (screen.currentGrid.size.cols - row.cells.length) [' '] := by
  let text := fun row : Row => row.cells.map shownCell ++
    List.replicate (screen.currentGrid.size.cols - row.cells.length) [' ']
  have hrow : ∀ row ∈ List.range visible.length, ∀ table,
      (rowSnapshot screen visible[row]? table).1.map printCell = (visible[row]?.map text).getD [] := by
    intro row hrow table
    have hlt : row < visible.length := List.mem_range.mp hrow
    rw [List.getElem?_eq_getElem hlt, Option.map_some, Option.getD_some]
    exact print_rowSnapshot screen table (hrows _ (List.getElem_mem hlt))
  have hgrid : ∀ table, ((((List.range visible.length).mapM fun row =>
      rowSnapshot screen visible[row]?).run table).1.map (List.map printCell)) =
        visible.map text := by
    intro table
    rw [map_mapM hrow]
    apply List.ext_getElem
    · rw [List.length_map, List.length_map, List.length_range]
    · intro row hlt _
      rw [List.length_map, List.length_range] at hlt
      rw [List.getElem_map, List.getElem_range, List.getElem?_eq_getElem hlt, List.getElem_map]
      rfl
  unfold snapshotFromScreen
  dsimp only
  rw [hvisible]
  refine ⟨_, rfl, ?_⟩
  rw [← hgrid {}, hlen]
  rfl

/-! ## A row of the writer -/

theorem all_replicate_space (n : ℕ) : ∀ x ∈ List.replicate n ' ', isWhitespace x = true := by
  intro x hx
  rw [List.eq_of_mem_replicate hx]
  decide

/-- INTERNAL: The loop of the row writer: what it has not yet written of the gap before `col` comes
before the next text.
SRC: row.rs:134-165 -/
theorem writeCells (cells : List Cell) (h : PairedCells cells) {w : Row.Written} {col : ℕ}
    (hflag : w.prevWasWide = false) (hcol : w.prevCol ≤ col) :
    ((cells.zipIdx col).foldl (fun w (cell, col) => Row.writeCell w cell col) w).contents.rdropWhile
        isWhitespace =
      (w.contents ++ List.replicate (col - w.prevCol) ' ' ++ cells.flatMap drawnCell).rdropWhile
        isWhitespace := by
  induction h generalizing w col with
  | nil =>
      rw [List.flatMap_nil, List.append_nil, rdropWhile_append_of_all (all_replicate_space _)]
      rfl
  | @single c cells hc hrest ih =>
      rw [List.zipIdx_cons, List.foldl_cons, List.flatMap_cons, drawnCell_single hc]
      cases htext : c.hasContents with
      | true =>
          have hstep : Row.writeCell w c col =
              { contents := w.contents ++ List.replicate (col - w.prevCol) ' ' ++ c.contents
                prevWasWide := false
                prevCol := col + 1 } := by
            unfold Row.writeCell
            rw [hflag, htext, hc.1, Nat.add_sub_cancel' hcol]
            rfl
          have hshown : shownCell c = c.contents := by
            unfold shownCell
            rw [if_neg fun hempty => (hasContents_iff c).mp htext (List.isEmpty_iff.mp hempty)]
          dsimp only
          rw [hstep, ih rfl (le_refl _), Nat.sub_self, hshown]
          simp
      | false =>
          have hstep : Row.writeCell w c col = w := by
            obtain ⟨contents, prevWasWide, prevCol⟩ := w
            unfold Row.writeCell
            rw [htext, hc.1, show prevWasWide = false from hflag]
            rfl
          have hshown : shownCell c = [' '] := by
            have hempty : c.contents = [] := by
              by_contra hne
              rw [(hasContents_iff c).mpr hne] at htext
              cases htext
            unfold shownCell
            rw [hempty]
            rfl
          dsimp only
          rw [hstep, ih hflag (by omega), hshown, Nat.succ_sub hcol, List.replicate_succ']
          simp
  | @pair a b cells ha hb hrest ih =>
      have hshown : shownCell a = a.contents := by
        unfold shownCell
        rw [if_neg fun hempty => (hasContents_iff a).mp ha.2.2 (List.isEmpty_iff.mp hempty)]
      have hfirst : Row.writeCell w a col =
          { contents := w.contents ++ List.replicate (col - w.prevCol) ' ' ++ a.contents
            prevWasWide := true
            prevCol := col + 2 } := by
        unfold Row.writeCell
        rw [hflag, ha.2.2, ha.1, Nat.add_sub_cancel' hcol]
        rfl
      rw [List.zipIdx_cons, List.zipIdx_cons, List.foldl_cons, List.foldl_cons, List.flatMap_cons,
        List.flatMap_cons, drawnCell_first ha, drawnCell_second hb, List.nil_append]
      dsimp only
      rw [hfirst]
      have hsecond : ∀ v : Row.Written, v.prevWasWide = true →
          Row.writeCell v b (col + 1) = { v with prevWasWide := false } := by
        intro v hv
        unfold Row.writeCell
        rw [if_pos hv]
      rw [hsecond _ rfl, ih rfl (le_refl _), Nat.sub_self, hshown]
      simp

/-- INTERNAL: The row writer prints the cells one after the other, up to blanks at the end.
SRC: row.rs:134-165 -/
theorem trimmed_writeContents {row : Row} (h : PairedCells row.cells) {cols : ℕ}
    (hlen : row.cells.length ≤ cols) :
    (row.writeContents [] 0 cols false).rdropWhile isWhitespace =
      (row.cells.flatMap drawnCell).rdropWhile isWhitespace := by
  have hall : (row.cells.zipIdx.drop 0).take cols = row.cells.zipIdx := by
    rw [List.drop_zero, List.take_of_length_le]
    rw [List.length_zipIdx]
    exact hlen
  unfold Row.writeContents
  rw [hall, if_neg (by simp)]
  exact writeCells row.cells h (w := { contents := [], prevCol := 0 }) rfl (le_refl 0)

/-! ## Rows compared -/

theorem blank_flatMap {f : Cell → List Char} {cells : List Cell} (hf : ∀ c, f c ⊆ shownCell c)
    (h : ∀ c ∈ cells, ∀ x ∈ c.contents, isWhitespace x = true) :
    ∀ x ∈ cells.flatMap f, isWhitespace x = true := by
  intro x hx
  obtain ⟨c, hc, hx⟩ := List.mem_flatMap.mp hx
  exact shownCell_blank (h c hc) x (hf c hx)

/-- INTERNAL: A row is captured as the writer prints it, or longer, and longer exactly where visible
text stands behind a wide character. -/
theorem drawn_or_longer {cells : List Cell} (h : PairedCells cells) :
    (NothingBehindWide cells → (cells.flatMap drawnCell).rdropWhile isWhitespace =
      (cells.flatMap shownCell).rdropWhile isWhitespace) ∧
    (¬ NothingBehindWide cells → ((cells.flatMap drawnCell).rdropWhile isWhitespace).length <
      ((cells.flatMap shownCell).rdropWhile isWhitespace).length) := by
  unfold NothingBehindWide
  induction h with
  | nil => exact ⟨fun _ => rfl, fun hbad => absurd List.Pairwise.nil hbad⟩
  | @single c cells hc hrest ih =>
      have hnarrow : ∀ d ∈ cells, c.wide = true → ∀ x ∈ d.contents, isWhitespace x = true := by
        intro d _ hwide
        rw [hc.1] at hwide
        cases hwide
      rw [List.pairwise_cons, and_iff_right hnarrow, List.flatMap_cons, List.flatMap_cons,
        drawnCell_single hc]
      refine ⟨fun hok => ?_, fun hbad => ?_⟩
      · rw [rdropWhile_append, rdropWhile_append, ih.1 hok]
      · have hlt := ih.2 hbad
        have hne : (cells.flatMap shownCell).rdropWhile isWhitespace ≠ [] := by
          apply List.ne_nil_of_length_pos
          omega
        have hle := length_rdropWhile_append_le (p := isWhitespace) (shownCell c)
          (cells.flatMap drawnCell)
        rw [length_rdropWhile_append hne]
        omega
  | @pair a b cells ha hb hrest ih =>
      rw [List.flatMap_cons, List.flatMap_cons, List.flatMap_cons, List.flatMap_cons,
        drawnCell_first ha, drawnCell_second hb, List.nil_append]
      by_cases hblank : ∀ d ∈ b :: cells, ∀ x ∈ d.contents, isWhitespace x = true
      · have hdrawn : ∀ x ∈ cells.flatMap drawnCell, isWhitespace x = true :=
          blank_flatMap drawnCell_subset fun d hd => hblank d (List.mem_cons_of_mem _ hd)
        have hshown : ∀ x ∈ shownCell b ++ cells.flatMap shownCell, isWhitespace x = true := by
          rw [← List.flatMap_cons]
          exact blank_flatMap (fun _ => List.Subset.refl _) hblank
        refine ⟨fun _ => ?_, fun hbad => absurd ?_ hbad⟩
        · rw [rdropWhile_append_of_all hdrawn, rdropWhile_append_of_all hshown]
        · refine List.pairwise_cons.mpr ⟨fun d hd _ => hblank d hd, ?_⟩
          exact List.pairwise_of_forall_mem_list fun c _ d hd _ => hblank d hd
      · refine ⟨fun hok => absurd ?_ hblank, fun _ => ?_⟩
        · exact fun d hd => (List.pairwise_cons.mp hok).1 d hd ha.1
        · have hle : ((cells.flatMap drawnCell).rdropWhile isWhitespace).length ≤
              ((cells.flatMap shownCell).rdropWhile isWhitespace).length := by
            by_cases hok : NothingBehindWide cells
            · rw [ih.1 hok]
            · exact (ih.2 hok).le
          have hvisible : (shownCell b ++ cells.flatMap shownCell).rdropWhile isWhitespace ≠ [] := by
            rw [ne_eq, List.rdropWhile_eq_nil_iff, ← List.flatMap_cons]
            intro hall
            apply hblank
            intro d hd x hx
            exact hall x (List.mem_flatMap.mpr ⟨d, hd, contents_subset_shownCell d hx⟩)
          have hdrawn := length_rdropWhile_append_le (p := isWhitespace) (shownCell a)
            (cells.flatMap drawnCell)
          rw [length_rdropWhile_append hvisible]
          -- the second half itself is the character too many
          by_cases hrest : (cells.flatMap shownCell).rdropWhile isWhitespace = []
          · have hpos := List.length_pos_iff.mpr hvisible
            rw [hrest, List.length_nil] at hle
            omega
          · have hpos := List.length_pos_iff.mpr (shownCell_ne_nil b)
            rw [length_rdropWhile_append hrest]
            omega

/-! ## The screen -/

/-- The rows in view of a grid in shape: as many as the screen has, none wider, and all paired. -/
theorem view_fits {b : Frame} {g : Grid} (h : Fits b g) (hdrawn : b.drawn = b.size.rows) :
    ∃ visible, g.visibleRows = some visible ∧ visible.length = g.size.rows ∧
      ∀ row ∈ visible, row.cells.length ≤ g.size.cols ∧ PairedCells row.cells := by
  have hoff := h.offset_le
  have hrows := h.rows_len
  rw [hdrawn] at hrows
  unfold Grid.visibleRows
  rw [checkedSub_of_le hoff]
  refine ⟨_, rfl, ?_, ?_⟩
  · rw [h.size_eq, List.length_append, List.length_take, List.length_take, List.length_drop]
    omega
  · rw [List.forall_mem_append, h.size_eq]
    constructor
    · exact fun row hrow => h.history_fit row (List.mem_of_mem_drop (List.mem_of_mem_take hrow))
    · intro row hrow
      have hfit := h.rows_fit row (List.mem_of_mem_take hrow)
      exact ⟨hfit.1.le, hfit.2⟩

/-- The text of the screen: what the emulator's writer gives for each row in view. -/
def screenText (screen : Screen) : Option (List Char) := do
  let visible ← screen.currentGrid.visibleRows
  return printLines (visible.map fun row =>
    (row.writeContents [] 0 screen.currentGrid.size.cols false).rdropWhile isWhitespace)

/-- In no row in view does visible text stand behind a wide character. -/
def PlainView (screen : Screen) : Prop :=
  ∀ visible, screen.currentGrid.visibleRows = some visible →
    ∀ row ∈ visible, NothingBehindWide row.cells

/-- INTERNAL: The lines that the capture makes of a snapshot, before the blank ones are dropped.
SRC: pane.rs:1258-1308, main.rs:151-167 -/
theorem snapshotText_eq {screen : Screen} {visible : List Row}
    (hvisible : screen.currentGrid.visibleRows = some visible)
    (hlen : visible.length = screen.currentGrid.size.rows)
    (hrows : ∀ row ∈ visible, row.cells.length ≤ screen.currentGrid.size.cols) :
    ∃ snap, snapshotFromScreen screen = some snap ∧
      snapshotText snap = joinLines '\n' (visible.map fun row =>
        (row.cells.flatMap shownCell).rdropWhile isWhitespace) := by
  obtain ⟨snap, hsnap, hprinted⟩ := print_snapshot hvisible hlen hrows
  refine ⟨snap, hsnap, ?_⟩
  let line := fun pieces : List (List Char) => pieces.flatten.rdropWhile isWhitespace
  have hlines : snap.grid.map (fun row => (row.flatMap printCell).rdropWhile isWhitespace) =
      (snap.grid.map (List.map printCell)).map line := by
    rw [List.map_map]
    rfl
  have hspaces : ∀ n : ℕ, (List.replicate n [' ']).flatten = List.replicate n ' ' := by
    intro n
    rw [List.flatten_replicate_singleton]
  show joinLines '\n' (snap.grid.map fun row => (row.flatMap printCell).rdropWhile isWhitespace) = _
  rw [hlines, hprinted, List.map_map]
  congr 1
  apply List.map_congr_left
  intro row _
  show ((row.cells.map shownCell ++ _).flatten).rdropWhile isWhitespace = _
  rw [List.flatten_append, hspaces, rdropWhile_append_of_all (all_replicate_space _),
    List.flatMap_def]

section

variable {σ : Type} (tok : Tokenizer σ) {width : Char → Option ℕ}

end

/-! ## A wide character before a letter -/

/-- `unicode-width` on ASCII and on the ideographs. -/
def cjkWidth (c : Char) : Option ℕ :=
  if c.toNat < 0x20 then none else if 0x4e00 ≤ c.toNat ∧ c.toNat ≤ 0x9fff then some 2 else some 1

theorem widthLaw_cjk : WidthLaw cjkWidth := by
  have hone : ∀ c : Char, c.toNat < 0x4e00 → (cjkWidth c).getD 1 ≤ 1 := by
    intro c hc
    unfold cjkWidth
    rw [if_neg fun h : 0x4e00 ≤ c.toNat ∧ c.toNat ≤ 0x9fff => by omega]
    split <;> exact le_refl 1
  constructor
  case le_two =>
    intro c
    unfold cjkWidth
    split_ifs
    · exact one_le_two
    · exact le_refl 2
    · exact one_le_two
  case ascii =>
    intro c hc
    have hlt : c.toNat < 128 := of_decide_eq_true hc
    exact hone c (by omega)
  case softHyphen => exact fun c hc => hone c (by omega)

end Tymux.Analysis
