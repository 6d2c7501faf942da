import Tymux.Analysis.CaptureText
import Tymux.Analysis.Vt.Padding
import Mathlib.Order.Bounds.Basic

/-!
# The search and the capture read one history

The search joins the contents of the cells of a line, so a blank cell is nothing to it; in a capture
of the same line a blank cell is a space. The search answers the first offset whose line holds the
pattern in the first reading, a client that goes through the captures the first in the second, and
they agree exactly where the first line that holds it in either reading holds it in both.
-/

set_option autoImplicit false

namespace Tymux.Analysis

open Tymux.Lib Tymux.Model Tymux.Model.Vt Tymux.Analysis.Vt

/-! ## The two readings of a line -/

/-- The text with blank cells left out. -/
def joinedText (cells : List Cell) : List Char := cells.flatMap fun c => c.contents

/-- The text with a space for every blank cell. -/
def spacedText (cells : List Cell) : List Char := cells.flatMap drawnCell

/-- The cells of the line at the top of the view. -/
def topCells (screen : Screen) (offset : ℕ) : List Cell :=
  ((viewAt screen.currentGrid offset).head?.map fun row => row.cells).getD []

/-- The line at the top of a capture, without the second halves of wide characters. -/
def shownLine (screen : Screen) (offset : ℕ) : Option (List Char) := do
  let (_, snapshot) ← snapshotAtOffset screen offset
  let scrolled ← screen.setScrollback offset
  let visible ← scrolled.currentGrid.visibleRows
  let row ← visible[0]?
  let cells ← snapshot.grid[0]?
  return (cells.zip row.cells).flatMap fun (c, cell) =>
    if cell.wideContinuation then [] else printCell c

/-- What the search should answer: the first offset whose line, as a capture shows it, holds the
pattern. -/
def SearchAgrees (screen : Screen) (pattern : List Char) (start : ℕ)
    (answer : Option (ℕ × List Char)) : Prop :=
  let matching := {o | start ≤ o ∧ o ≤ screen.currentGrid.scrollback.length ∧
    ∃ line, shownLine screen o = some line ∧ pattern <:+: line}
  match answer with
  | some (offset, _) => IsLeast matching offset
  | none => matching = ∅

/-- Up to the first line that holds the pattern in both readings, no line holds it in one only. -/
def ReadingsAgree (screen : Screen) (pattern : List Char) (start : ℕ) : Prop :=
  ∀ o, start ≤ o → o ≤ screen.currentGrid.scrollback.length →
    (∀ earlier, start ≤ earlier → earlier < o →
      ¬ (pattern <:+: joinedText (topCells screen earlier) ∧
        pattern <:+: spacedText (topCells screen earlier))) →
    (pattern <:+: joinedText (topCells screen o) ↔ pattern <:+: spacedText (topCells screen o))

/-! ## The search -/

section

variable {screen scrolled : Screen}

theorem topLine_eq {offset : ℕ}
    (hview : scrolled.currentGrid.visibleRows = some (viewAt screen.currentGrid offset))
    (hwide : ∀ row ∈ viewAt screen.currentGrid offset,
      row.cells.length ≤ screen.currentGrid.size.cols) :
    topLine screen.currentGrid.size.cols scrolled = some (joinedText (topCells screen offset)) := by
  unfold topLine topCells
  rw [hview]
  refine congrArg some ?_
  rw [List.head?_eq_getElem?]
  cases hrow : (viewAt screen.currentGrid offset)[0]? with
  | none => simp [joinedText]
  | some row =>
      have hlen := hwide row (List.mem_of_getElem? hrow)
      rw [Option.map_some, Option.getD_some, List.flatMap_def]
      simp only [Option.bind_some]
      rw [map_range_cells (fun c : Cell => c.contents) [] row.cells hlen, List.flatten_append,
        joinedText, List.flatMap_def]
      simp

/-- INTERNAL: The offsets in order, with the first line that holds the pattern. The rows that the
loop pads on its way do not change what a later line reads.
SRC: pane.rs:1099-1109 -/
theorem searchOffsets_eq (pattern : List Char) (offsets : List ℕ)
    (hrest : restScreen scrolled = restScreen screen)
    (hwide : ∀ o, ∀ row ∈ viewAt screen.currentGrid o,
      row.cells.length ≤ screen.currentGrid.size.cols) :
    ∃ s, searchOffsets pattern screen.currentGrid.size.cols scrolled offsets =
        some (s, (offsets.find? fun o => pattern <:+: joinedText (topCells screen o)).map fun o =>
          (o, joinedText (topCells screen o))) ∧
      restScreen s = restScreen screen := by
  induction offsets generalizing scrolled with
  | nil => exact ⟨scrolled, rfl, hrest⟩
  | cons o offsets ih =>
      obtain ⟨next, hnext, hmoved, -, hview⟩ := setScrollbackScreen_rest scrolled o
      rw [viewAt_congr (currentGrid_congr hrest)] at hview
      have hline := topLine_eq hview (hwide o)
      have hstep : searchOffsets pattern screen.currentGrid.size.cols scrolled (o :: offsets) =
          if pattern <:+: joinedText (topCells screen o) then
            some (next, some (o, joinedText (topCells screen o)))
          else searchOffsets pattern screen.currentGrid.size.cols next offsets := by
        rw [searchOffsets, hnext, Option.bind_eq_bind, Option.bind_some, hline, Option.bind_eq_bind,
          Option.bind_some]
        rfl
      rw [hstep, List.find?_cons]
      by_cases hfound : pattern <:+: joinedText (topCells screen o)
      · rw [if_pos hfound, decide_eq_true hfound]
        exact ⟨next, rfl, hmoved.trans hrest⟩
      · rw [if_neg hfound, decide_eq_false hfound]
        exact ih (hmoved.trans hrest)

end

/-! ## The capture -/

theorem zip_printed {cells : List CellSnapshot} {row : List Cell}
    (h : cells.map printCell = row.map shownCell) :
    ((cells.zip row).flatMap fun (c, cell) => if cell.wideContinuation then [] else printCell c) =
      spacedText row := by
  induction row generalizing cells with
  | nil => rw [List.zip_nil_right]; rfl
  | cons cell row ih =>
      rw [List.map_cons] at h
      obtain ⟨c, cells, rfl, hc, hrest⟩ := List.map_eq_cons_iff.mp h
      have htail := ih hrest
      unfold spacedText drawnCell at htail ⊢
      rw [List.zip_cons_cons, List.flatMap_cons, List.flatMap_cons, htail]
      dsimp only
      rw [hc]

/-- INTERNAL: The line at the top of a capture, read with spaces for its blank cells.
SRC: pane.rs:1066-1081, pane.rs:1258-1308 -/
theorem shownLine_eq {screen : Screen} {size : Size} {cap : ℕ}
    (hfits : ScreenFits False size cap screen) (offset : ℕ) :
    shownLine screen offset = some (spacedText (topCells screen offset)) := by
  obtain ⟨scrolled, hscrolled, hrest, -, hview⟩ := setScrollbackScreen_rest screen offset
  have hstill : ScreenFits False size cap scrolled :=
    (yields_setScrollbackScreen hfits offset).of_eq hscrolled
  obtain ⟨visible, hvisible, hlen, hrows⟩ := view_fits hstill.current rfl
  have hsize := congrArg Grid.size (currentGrid_congr hrest)
  replace hsize : scrolled.currentGrid.size = screen.currentGrid.size := hsize
  obtain ⟨snap, hsnap, hprinted⟩ :=
    print_snapshot hvisible hlen fun row hrow => (hrows row hrow).1
  obtain ⟨back, hback, -⟩ := setScrollbackScreen_rest scrolled 0
  obtain rfl : viewAt screen.currentGrid offset = visible :=
    Option.some_inj.mp (hview.symm.trans hvisible)
  have hread : snapshotAtOffset screen offset = some (back, snap) := by
    unfold snapshotAtOffset
    rw [hscrolled, Option.bind_eq_bind, Option.bind_some, hsnap, Option.bind_eq_bind,
      Option.bind_some, hback]
    rfl
  have hpos : 0 < (viewAt screen.currentGrid offset).length := by
    rw [hlen, hstill.current.size_eq]
    exact hstill.current.rows_pos
  obtain ⟨row, rest, hcons⟩ := List.exists_cons_of_length_pos hpos
  rw [hcons, List.map_cons] at hprinted
  obtain ⟨cells, more, hgrid, hcells, -⟩ := List.map_eq_cons_iff.mp hprinted
  have htop : topCells screen offset = row.cells := by
    unfold topCells
    rw [hcons]
    rfl
  have hfull : row.cells.length = screen.currentGrid.size.cols := by
    apply @length_of_mem_viewAt _ _ hfits.current offset
    rw [hcons]
    exact List.mem_cons_self
  rw [hsize, hfull, Nat.sub_self, List.replicate_zero, List.append_nil] at hcells
  rw [htop, ← zip_printed hcells]
  unfold shownLine
  rw [hread, hscrolled]
  simp only [Option.bind_eq_bind, Option.bind_some, hview, hcons, hgrid]
  rfl

/-! ## The first match -/

theorem first_agrees_iff {p q : ℕ → Prop} [DecidablePred p] (start stop : ℕ) :
    (match (List.range' start (stop + 1 - start)).find? fun o => p o with
      | some first => IsLeast {o | start ≤ o ∧ o ≤ stop ∧ q o} first
      | none => {o | start ≤ o ∧ o ≤ stop ∧ q o} = ∅) ↔
    ∀ o, start ≤ o → o ≤ stop → (∀ earlier, start ≤ earlier → earlier < o →
      ¬ (p earlier ∧ q earlier)) → (p o ↔ q o) := by
  cases hfind : (List.range' start (stop + 1 - start)).find? fun o => decide (p o) with
  | none =>
      have hnone : ∀ o, start ≤ o → o ≤ stop → ¬ p o := by
        intro o hstart hstop
        have hfalse := List.find?_range'_eq_none.mp hfind o hstart (by omega)
        simpa using hfalse
      constructor
      · intro hempty o hstart hstop _
        refine iff_of_false (hnone o hstart hstop) fun hq => ?_
        have hmem : o ∈ {o | start ≤ o ∧ o ≤ stop ∧ q o} := ⟨hstart, hstop, hq⟩
        rw [hempty] at hmem
        exact hmem
      · intro hsame
        apply Set.eq_empty_of_forall_notMem
        rintro o ⟨hstart, hstop, hq⟩
        have hnot : ∀ earlier, start ≤ earlier → earlier < o → ¬ (p earlier ∧ q earlier) :=
          fun earlier hfrom hlt h => hnone earlier hfrom (by omega) h.1
        exact hnone o hstart hstop ((hsame o hstart hstop hnot).mpr hq)
  | some first =>
      obtain ⟨hp, hmem, hbefore⟩ := List.find?_range'_eq_some.mp hfind
      rw [decide_eq_true_iff] at hp
      obtain ⟨hfirst, hlast⟩ := List.mem_range'_1.mp hmem
      have hnone : ∀ o, start ≤ o → o < first → ¬ p o := by
        intro o hstart hlt
        simpa using hbefore o hstart hlt
      constructor
      · rintro ⟨⟨-, -, hq⟩, hleast⟩ o hstart hstop hnot
        rcases Nat.lt_trichotomy o first with hlt | rfl | hgt
        · refine iff_of_false (hnone o hstart hlt) fun hqo => ?_
          have hle : first ≤ o := hleast ⟨hstart, hstop, hqo⟩
          omega
        · exact iff_of_true hp hq
        · exact absurd ⟨hp, hq⟩ (hnot first hfirst hgt)
      · intro hsame
        have hnot : ∀ o, o ≤ first → ∀ earlier, start ≤ earlier → earlier < o →
            ¬ (p earlier ∧ q earlier) :=
          fun o hle earlier hfrom hlt h => hnone earlier hfrom (by omega) h.1
        refine ⟨⟨hfirst, by omega, ?_⟩, ?_⟩
        · exact (hsame first hfirst (by omega) (hnot first (le_refl _))).mp hp
        · rintro o ⟨hstart, hstop, hq⟩
          by_contra hlt
          have hpo := (hsame o hstart hstop (hnot o (by omega))).mpr hq
          exact hnone o hstart (by omega) hpo

/-! ## Runs -/

/-- INTERNAL: The search goes through the offsets from the start to the oldest line that an offset
reaches.
SRC: pane.rs:1083-1112 -/
theorem searchScrollback_reads {screen : Screen} {size : Size} {cap : ℕ}
    (hfits : ScreenFits False size cap screen) {pattern : List Char} (hpattern : pattern ≠ [])
    (start : ℕ) :
    ∃ s, restScreen s = restScreen screen ∧ searchScrollback screen pattern start =
      some (s, ((List.range' start
        (min u64Max screen.currentGrid.scrollback.length + 1 - start)).find?
        fun o => pattern <:+: joinedText (topCells screen o)).map fun o =>
          (o, joinedText (topCells screen o))) := by
  obtain ⟨far, hfar, hmoved, hoffset, -⟩ := setScrollbackScreen_rest screen u64Max
  have hwide : ∀ o, ∀ row ∈ viewAt screen.currentGrid o,
      row.cells.length ≤ screen.currentGrid.size.cols :=
    fun o row hrow => (length_of_mem_viewAt hfits.current hrow).le
  obtain ⟨last, hlast, hstill⟩ := searchOffsets_eq pattern
    (List.range' start (min u64Max screen.currentGrid.scrollback.length + 1 - start)) hmoved hwide
  obtain ⟨back, hback, hreturned, -⟩ := setScrollbackScreen_rest last 0
  refine ⟨back, hreturned.trans hstill, ?_⟩
  unfold searchScrollback
  rw [if_neg fun h => hpattern (List.isEmpty_iff.mp h)]
  dsimp only
  rw [hfar, Option.bind_eq_bind, Option.bind_some, hoffset, hlast, Option.bind_eq_bind,
    Option.bind_some]
  dsimp only
  rw [hback]
  rfl

theorem scrollback_le_cap {screen : Screen} {size : Size} {cap : ℕ}
    (hfits : ScreenFits False size cap screen) : screen.currentGrid.scrollback.length ≤ cap := by
  have hle := hfits.current.history_len
  have hbound : (shownFrame False size cap screen).cap ≤ cap := by
    unfold shownFrame
    dsimp only
    split_ifs
    · exact Nat.zero_le _
    · exact le_refl _
  omega

section

variable {σ : Type} (tok : Tokenizer σ) {width : Char → Option ℕ}

end

/-! ## A gap in a line -/

end Tymux.Analysis
