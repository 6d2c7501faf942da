import Tymux.Analysis.Vt.Representation

/-!
# Padding of the scrollback

Rows of the scrollback may be narrower than the screen. To scroll the view pads the rows it shows and
leaves the others. `restGrid` is the grid with all of them padded and the view at the bottom: grids
for which it is the same show the same at every offset, and to scroll one changes it only so.
-/

set_option autoImplicit false

namespace Tymux.Analysis.Vt

open Tymux.Lib Tymux.Model Tymux.Model.Vt

/-! ## Full rows -/

/-- The row, blank up to the width of the screen. -/
def fullRow (cols : ℕ) (row : Row) : Row :=
  { row with cells := row.cells ++ List.replicate (cols - row.cells.length) Cell.new }

theorem fullRow_of_le {cols : ℕ} {row : Row} (h : cols ≤ row.cells.length) : fullRow cols row = row := by
  unfold fullRow
  rw [Nat.sub_eq_zero_of_le h, List.replicate_zero, List.append_nil]

theorem length_fullRow {cols : ℕ} {row : Row} (h : row.cells.length ≤ cols) :
    (fullRow cols row).cells.length = cols := by
  unfold fullRow
  rw [List.length_append, List.length_replicate]
  omega

theorem fullRow_fullRow {cols cols' : ℕ} (h : cols ≤ cols') (row : Row) :
    fullRow cols' (fullRow cols row) = fullRow cols' row := by
  unfold fullRow
  rw [Row.mk.injEq, List.append_assoc, ← List.replicate_add]
  refine ⟨?_, rfl⟩
  congr 2
  rw [List.length_append, List.length_replicate]
  omega

theorem resizeCells_of_le {cells : List Cell} {cols : ℕ} (h : cells.length ≤ cols) (c : Cell) :
    resizeCells cells cols c = cells ++ List.replicate (cols - cells.length) c := by
  unfold resizeCells
  rw [List.take_of_length_le h]

/-- What the source does to a row in view. -/
theorem padRow_eq (cols : ℕ) (row : Row) :
    (if row.cells.length < cols then { row with cells := resizeCells row.cells cols Cell.new }
      else row) = fullRow cols row := by
  split_ifs with hlt
  · unfold fullRow
    rw [resizeCells_of_le hlt.le]
  · exact (fullRow_of_le (Nat.le_of_not_lt hlt)).symm

/-! ## Grids -/

/-- The grid with every row of the scrollback full and the view at the bottom. -/
def restGrid (g : Grid) : Grid :=
  { g with scrollback := g.scrollback.map (fullRow g.size.cols), scrollbackOffset := 0 }

/-- What is in view at an offset. -/
def viewAt (g : Grid) (offset : ℕ) : List Row :=
  ((g.scrollback.map (fullRow g.size.cols)).drop
      (g.scrollback.length - min offset g.scrollback.length)).take g.rows.length ++
    g.rows.take (g.rows.length - min offset g.scrollback.length)

section

variable {g g' : Grid}

theorem map_fullRow_idem (cols : ℕ) (rows : List Row) :
    (rows.map (fullRow cols)).map (fullRow cols) = rows.map (fullRow cols) := by
  rw [List.map_map]
  exact List.map_congr_left fun row _ => fullRow_fullRow (le_refl _) row

theorem restGrid_idem (g : Grid) : restGrid (restGrid g) = restGrid g := by
  unfold restGrid
  dsimp only
  rw [map_fullRow_idem]

theorem viewAt_rest (g : Grid) (offset : ℕ) : viewAt (restGrid g) offset = viewAt g offset := by
  show ((((g.scrollback.map (fullRow g.size.cols)).map (fullRow g.size.cols)).drop _).take _ ++ _) = _
  rw [map_fullRow_idem, show (restGrid g).scrollback.length = g.scrollback.length from
    List.length_map _]
  rfl

theorem viewAt_congr (h : restGrid g' = restGrid g) (offset : ℕ) :
    viewAt g' offset = viewAt g offset := by
  rw [← viewAt_rest, h, viewAt_rest]

theorem length_of_mem_viewAt {b : Frame} (h : Fits b g) {offset : ℕ} {row : Row}
    (hrow : row ∈ viewAt g offset) : row.cells.length = g.size.cols := by
  rcases List.mem_append.mp hrow with hback | hdrawn
  · have hmem := List.mem_of_mem_drop (List.mem_of_mem_take hback)
    obtain ⟨stored, hstored, rfl⟩ := List.mem_map.mp hmem
    apply length_fullRow
    rw [h.cols_eq]
    exact (h.history_fit stored hstored).1
  · rw [h.cols_eq]
    exact (h.rows_fit row (List.mem_of_mem_take hdrawn)).1

/-- INTERNAL: The window padded is the window of the full rows.
SRC: reflow.rs:522-533 -/
theorem map_fullRow_window (rows : List Row) (cols skip n : ℕ) :
    ((rows.take skip ++ ((rows.drop skip).take n).map (fullRow cols) ++
      (rows.drop skip).drop n).map (fullRow cols)) = rows.map (fullRow cols) := by
  rw [List.map_append, List.map_append, map_fullRow_idem, ← List.map_append, ← List.map_append,
    List.append_assoc, List.take_append_drop, List.take_append_drop]

/-- INTERNAL: To pad the rows in view changes nothing else.
SRC: reflow.rs:522-533 -/
theorem padScrollbackWindow_rest (g : Grid) :
    ∃ g', g.padScrollbackWindow = some g' ∧ restGrid g' = restGrid g ∧
      g'.tabStops = g.tabStops ∧ g'.scrollbackOffset = g.scrollbackOffset ∧
      (g.scrollbackOffset ≤ g.scrollback.length →
        g'.visibleRows = some (viewAt g g.scrollbackOffset)) := by
  have hpad : (fun row : Row => if row.cells.length < g.size.cols then
      { row with cells := resizeCells row.cells g.size.cols Cell.new } else row) =
        fullRow g.size.cols := by
    funext row
    exact padRow_eq _ row
  unfold Grid.padScrollbackWindow
  dsimp only
  rw [hpad, checkedSub_of_le (Nat.min_le_right _ _)]
  generalize hskip : g.scrollback.length - min g.scrollbackOffset g.scrollback.length = skip
  have hle : skip ≤ g.scrollback.length := by omega
  have hwindow := map_fullRow_window g.scrollback g.size.cols skip g.rows.length
  have hlen := congrArg List.length hwindow
  rw [List.length_map, List.length_map] at hlen
  refine ⟨_, rfl, ?_, rfl, rfl, fun hoffset => ?_⟩
  · exact congrArg (fun rows => { g with scrollback := rows, scrollbackOffset := 0 }) hwindow
  unfold Grid.visibleRows viewAt
  dsimp only
  rw [hlen, checkedSub_of_le hoffset, hskip]
  rw [Nat.min_eq_left hoffset] at hskip ⊢
  rw [hskip]
  refine congrArg (fun rows => some (rows ++ _)) ?_
  rw [List.append_assoc, List.drop_append_of_le_length (by rw [List.length_take]; omega),
    List.drop_take, Nat.sub_self, List.take_zero, List.nil_append, ← List.map_drop, ← List.map_take]
  generalize g.scrollback.drop skip = window
  rw [List.take_append, List.take_of_length_le (by simp), List.length_map, List.length_take]
  by_cases hshort : window.length ≤ g.rows.length
  · rw [List.drop_of_length_le hshort, List.take_nil, List.append_nil]
  · rw [Nat.min_eq_left (by omega), Nat.sub_self, List.take_zero, List.append_nil]

/-- INTERNAL: To scroll the view pads rows and moves it, and nothing else.
SRC: grid.rs:228-231 -/
theorem setScrollback_rest (g : Grid) (offset : ℕ) :
    ∃ g', g.setScrollback offset = some g' ∧ restGrid g' = restGrid g ∧
      g'.scrollbackOffset = min offset g.scrollback.length ∧
      g'.visibleRows = some (viewAt g offset) := by
  let moved : Grid := { g with scrollbackOffset := min offset g.scrollback.length }
  obtain ⟨g', hg', hrest, -, hoffset, hview⟩ := padScrollbackWindow_rest moved
  refine ⟨g', hg', hrest, hoffset, ?_⟩
  rw [hview (Nat.min_le_right _ _)]
  unfold viewAt
  dsimp only [moved]
  rw [Nat.min_assoc, Nat.min_self]

end

/-! ## Screens -/

/-- The screen with both grids so. -/
def restScreen (s : Screen) : Screen :=
  { s with grid := restGrid s.grid, alternateGrid := restGrid s.alternateGrid }

section

variable {s s' : Screen}

theorem restScreen_idem (s : Screen) : restScreen (restScreen s) = restScreen s := by
  unfold restScreen
  dsimp only
  rw [restGrid_idem, restGrid_idem]

theorem currentGrid_rest (s : Screen) : (restScreen s).currentGrid = restGrid s.currentGrid := by
  unfold Screen.currentGrid
  cases h : s.modes.alternateScreen with
  | true => exact if_pos h
  | false => exact if_neg (Bool.eq_false_iff.mp h)

theorem putGrid_rest (s : Screen) (g : Grid) :
    (restScreen s).putGrid (restGrid g) = restScreen (s.putGrid g) := by
  unfold Screen.putGrid
  cases h : s.modes.alternateScreen with
  | true => exact if_pos h
  | false => exact if_neg (Bool.eq_false_iff.mp h)

theorem currentGrid_congr (h : restScreen s' = restScreen s) :
    restGrid s'.currentGrid = restGrid s.currentGrid := by
  rw [← currentGrid_rest, h, currentGrid_rest]

theorem restScreen_putGrid {g g' : Grid} (hs : restScreen s' = restScreen s)
    (hg : restGrid g' = restGrid g) : restScreen (s'.putGrid g') = restScreen (s.putGrid g) := by
  rw [← putGrid_rest, hs, hg, putGrid_rest]

theorem putGrid_currentGrid (s : Screen) : s.putGrid s.currentGrid = s := by
  unfold Screen.putGrid Screen.currentGrid
  split_ifs
  · rfl
  · rfl

/-- INTERNAL: To scroll the view of a screen.
SRC: screen.rs:245-247 -/
theorem setScrollbackScreen_rest (s : Screen) (offset : ℕ) :
    ∃ s', s.setScrollback offset = some s' ∧ restScreen s' = restScreen s ∧
      s'.currentGrid.scrollbackOffset = min offset s.currentGrid.scrollback.length ∧
      s'.currentGrid.visibleRows = some (viewAt s.currentGrid offset) := by
  obtain ⟨g, hg, hrest, hoffset, hview⟩ := setScrollback_rest s.currentGrid offset
  refine ⟨s.putGrid g, ?_, ?_, ?_, ?_⟩
  · unfold Screen.setScrollback Screen.withGrid
    dsimp only
    rw [hg, Option.map_some]
  · rw [restScreen_putGrid rfl hrest, putGrid_currentGrid]
  · rw [currentGrid_putGrid]
    exact hoffset
  · rw [currentGrid_putGrid]
    exact hview

end

end Tymux.Analysis.Vt
