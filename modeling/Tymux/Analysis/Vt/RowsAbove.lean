import Tymux.Analysis.Vt.Drawing
import Tymux.Lib.Ensures

/-!
# The rows above the cursor

What is written at the cursor changes its row only, and a line feed at the bottom of the region
puts a row in behind it. So the rows above the cursor stay as they are when the region begins at
the top, where a row that leaves the screen goes to the scrollback, and otherwise as long as no
line feed takes one of them out of the region.
-/

set_option autoImplicit false

namespace Tymux.Analysis.Vt

open Tymux.Lib Tymux.Model Tymux.Model.Vt

/-! ## Lists -/

theorem prefix_insertIdx {α : Type} {l xs : List α} {i : ℕ} (a : α) (h : l <+: xs)
    (hi : l.length ≤ i) : l <+: xs.insertIdx i a := by
  induction l generalizing xs i with
  | nil => exact List.nil_prefix
  | cons x l ih =>
      obtain ⟨rest, rfl⟩ := h
      obtain ⟨i, rfl⟩ : ∃ k, i = k + 1 := ⟨i - 1, by rw [List.length_cons] at hi; omega⟩
      rw [List.cons_append, List.insertIdx_succ_cons, List.cons_prefix_cons]
      exact ⟨rfl, ih (List.prefix_append _ _) (Nat.le_of_succ_le_succ hi)⟩

theorem prefix_drop {α : Type} {l xs : List α} (h : l <+: xs) (k : ℕ) : l.drop k <+: xs.drop k := by
  obtain ⟨rest, rfl⟩ := h
  rw [List.drop_append]
  exact List.prefix_append _ _

theorem prefix_eraseIdx {α : Type} {l xs : List α} {i : ℕ} (h : l <+: xs) (hi : l.length ≤ i) :
    l <+: xs.eraseIdx i := by
  obtain ⟨rest, rfl⟩ := h
  rw [List.eraseIdx_append_of_length_le hi]
  exact List.prefix_append _ _

/-! ## All rows -/

/-- The rows from the oldest one of the scrollback on, each with its cells. -/
def allRows (g : Grid) : List (List Cell) := (g.scrollback ++ g.rows).map Row.cells

/-- What is left of the old rows are the first rows of the grid. The `n` oldest ones are gone
because the scrollback is full. -/
structure Remains (old : List (List Cell)) (n : ℕ) (g : Grid) : Prop where
  rows : old.drop n <+: allRows g
  full : n ≠ 0 → g.scrollback.length = g.scrollbackLen

/-- What no writing changes. -/
def shape (g : Grid) : Size × ℕ × ℕ × ℕ := (g.size, g.scrollTop, g.scrollBottom, g.scrollbackLen)

/-- Only the row of the cursor is written on, and the cursor stays in it. -/
def InRow (g g' : Grid) : Prop :=
  ∃ rows : List Row, (∀ i, i ≠ g.pos.row → rows[i]? = g.rows[i]?) ∧ ∃ col, g' =
    { g with rows, pos := { g.pos with col } }

namespace InRow

variable {g g' g'' : Grid}

theorem refl (g : Grid) : InRow g g := ⟨g.rows, fun _ _ => rfl, g.pos.col, rfl⟩

theorem trans (h : InRow g g') (h' : InRow g' g'') : InRow g g'' := by
  obtain ⟨rows, hrows, col, rfl⟩ := h
  obtain ⟨rows', hrows', col', rfl⟩ := h'
  exact ⟨rows', fun i hi => (hrows' i hi).trans (hrows i hi), col', rfl⟩

theorem col (g : Grid) (col : ℕ) : InRow g { g with pos := { g.pos with col } } :=
  ⟨g.rows, fun _ _ => rfl, col, rfl⟩

theorem row_eq (h : InRow g g') : g'.pos.row = g.pos.row := by
  obtain ⟨rows, -, col, rfl⟩ := h
  rfl

theorem scrollback_eq (h : InRow g g') : g'.scrollback = g.scrollback := by
  obtain ⟨rows, -, col, rfl⟩ := h
  rfl

/-- The rows above stay. -/
theorem remains (h : InRow g g') {old : List (List Cell)} {n : ℕ} (hremains : Remains old n g)
    (hlen : (old.drop n).length ≤ g.scrollback.length + g.pos.row) : Remains old n g' := by
  obtain ⟨rows, hrows, col, rfl⟩ := h
  refine ⟨?_, hremains.full⟩
  have htake : g.rows.take g.pos.row = rows.take g.pos.row := by
    apply List.ext_getElem?
    intro i
    rw [List.getElem?_take, List.getElem?_take]
    split_ifs with hi
    · exact (hrows i hi.ne).symm
    · rfl
  have hprefix := hremains.rows
  unfold allRows at hprefix ⊢
  rw [List.map_append] at hprefix ⊢
  obtain ⟨rest, hrest⟩ := hprefix
  have hold : old.drop n <+: g.scrollback.map Row.cells ++ (g.rows.take g.pos.row).map Row.cells := by
    refine List.prefix_of_prefix_length_le ⟨rest, hrest⟩ ?_ ?_
    · refine ⟨(g.rows.drop g.pos.row).map Row.cells, ?_⟩
      rw [List.append_assoc, ← List.map_append, List.take_append_drop]
    · rw [List.length_append, List.length_map, List.length_map, List.length_take]
      have hall := congrArg List.length hrest
      simp only [List.length_append, List.length_map] at hall
      omega
  rw [htake] at hold
  refine hold.trans ⟨(rows.drop g.pos.row).map Row.cells, ?_⟩
  rw [List.append_assoc, ← List.map_append, List.take_append_drop]

end InRow

/-! ## Writing in a row -/

section

variable {g : Grid}

theorem inRow_updateAt {f : Row → Option Row} :
    Ensures (updateAt g.rows g.pos.row f) fun rows => InRow g { g with rows } := by
  unfold updateAt
  refine ensures_bind fun row => ensures_bind fun row' => ensures_some ?_
  exact ⟨_, fun i hi => List.getElem?_set_ne hi.symm, g.pos.col, rfl⟩

theorem inRow_modifyCurrentRow (f : Row → Option Row) :
    Ensures (g.modifyCurrentRow f) fun g' => InRow g g' ∧ g'.pos = g.pos := by
  unfold Grid.modifyCurrentRow
  exact inRow_updateAt.bind fun rows hrows => ensures_some ⟨hrows, rfl⟩

theorem inRow_modifyCell (pos : Pos) (hrow : pos.row = g.pos.row) (f : Cell → Cell) :
    Ensures (g.modifyCell pos f) fun g' => InRow g g' ∧ g'.pos = g.pos := by
  unfold Grid.modifyCell
  rw [hrow]
  exact inRow_updateAt.bind fun rows hrows => ensures_some ⟨hrows, rfl⟩

theorem inRow_tryModifyCell (pos : Pos) (hrow : pos.row = g.pos.row) (f : Cell → Cell) :
    Ensures (Screen.tryModifyCell g pos f) fun g' => InRow g g' ∧ g'.pos = g.pos := by
  unfold Screen.tryModifyCell
  exact (inRow_modifyCell pos hrow f).ite (ensures_some ⟨InRow.refl g, rfl⟩)

theorem inRow_colClamp : Ensures g.colClamp fun g' => InRow g g' ∧ g'.pos.col ≤ g.pos.col := by
  unfold Grid.colClamp
  refine ensures_bind fun last => ensures_some ?_
  split_ifs with hlt
  · exact ⟨InRow.col g last, hlt.le⟩
  · exact ⟨InRow.refl g, le_refl _⟩

theorem inRow_colSet (col : ℕ) : Ensures (g.colSet col) fun g' => InRow g g' ∧ g'.pos.col ≤ col := by
  unfold Grid.colSet
  intro g' hg'
  obtain ⟨hrow, hcol⟩ := inRow_colClamp g' hg'
  exact ⟨(InRow.col g col).trans hrow, hcol⟩

theorem inRow_insertCells (count : ℕ) :
    Ensures (g.insertCells count) fun g' => InRow g g' ∧ g'.pos = g.pos := by
  unfold Grid.insertCells
  exact ensures_bind fun wide => inRow_modifyCurrentRow _

/-- A character of one column is written at the cursor, which moves on by one. -/
theorem inRow_drawFirst (width : Char → Option ℕ) (attrs : Attrs) (c : Char) :
    Ensures (Screen.drawFirst width attrs g c) fun g' =>
      InRow g g' ∧ g'.pos.col ≤ g.pos.col + 1 := by
  have hnext : ∀ {g₁ g₂ : Grid}, InRow g g₁ ∧ g₁.pos = g.pos → InRow g₁ g₂ ∧ g₂.pos = g₁.pos →
      InRow g g₂ ∧ g₂.pos = g.pos :=
    fun h h' => ⟨h.1.trans h'.1, h'.2.trans h.2⟩
  have hsame : InRow g g ∧ g.pos = g.pos := ⟨InRow.refl g, rfl⟩
  unfold Screen.drawFirst
  refine ensures_bind fun cell => ?_
  refine Ensures.bind (Q := fun g₁ => InRow g g₁ ∧ g₁.pos = g.pos) ?_ fun g₁ h₁ => ?_
  · refine Ensures.ite ?_ (ensures_some hsame)
    exact ensures_bind fun col => inRow_modifyCell ⟨g.pos.row, col⟩ rfl _
  refine ensures_bind fun cell => ?_
  refine Ensures.bind (Q := fun g₂ => InRow g g₂ ∧ g₂.pos = g.pos) ?_ fun g₂ h₂ => ?_
  · refine Ensures.ite ?_ (ensures_some h₁)
    intro g₂ hg₂
    exact hnext h₁ (inRow_tryModifyCell ⟨g₁.pos.row, g₁.pos.col + 1⟩ rfl _ g₂ hg₂)
  refine Ensures.bind (Q := fun g₃ => InRow g g₃ ∧ g₃.pos = g.pos) ?_ fun g₃ h₃ => ?_
  · exact fun g₃ hg₃ => hnext h₂ (inRow_modifyCell g₂.pos rfl _ g₃ hg₃)
  refine ensures_some ⟨h₃.1.trans (InRow.col g₃ _), ?_⟩
  show saturatingAdd u16Max g₃.pos.col 1 ≤ g.pos.col + 1
  rw [h₃.2]
  exact Nat.min_le_left _ _

theorem inRow_drawAt (width : Char → Option ℕ) (attrs : Attrs) (insert : Bool) (c : Char) :
    Ensures (Screen.drawAt width attrs insert g c 1) fun g' =>
      InRow g g' ∧ g'.pos.col ≤ g.pos.col + 1 := by
  unfold Screen.drawAt
  refine Ensures.bind (Q := fun g₁ => InRow g g₁ ∧ g₁.pos = g.pos) ?_ fun g₁ h₁ => ?_
  · exact (inRow_insertCells 1).ite (ensures_some ⟨InRow.refl g, rfl⟩)
  rw [if_neg Nat.one_ne_zero]
  refine (inRow_drawFirst width attrs c).bind fun g₂ h₂ => ?_
  rw [if_neg (lt_irrefl 1)]
  refine ensures_some ⟨h₁.1.trans h₂.1, ?_⟩
  rw [← h₁.2]
  exact h₂.2

/-! ## Scrolling -/

theorem insertIdx_append {α : Type} (l xs : List α) (i : ℕ) (a : α) :
    (l ++ xs).insertIdx (l.length + i) a = l ++ xs.insertIdx i a := by
  induction l with
  | nil => rw [List.length_nil, Nat.zero_add]; rfl
  | cons x l ih =>
      rw [List.length_cons, Nat.add_right_comm, List.cons_append, List.insertIdx_succ_cons, ih]
      rfl

variable {b : Frame}

theorem ensures_insertAt {α : Type} (xs : List α) (i : ℕ) (a : α) :
    Ensures (insertAt xs i a) fun ys => ys = xs.insertIdx i a := by
  unfold insertAt
  split_ifs
  · exact ensures_some rfl
  · exact fun ys hys => nomatch hys

theorem ensures_removeAt {α : Type} (xs : List α) (i : ℕ) :
    Ensures (removeAt xs i) fun r => xs[i]? = some r.1 ∧ r.2 = xs.eraseIdx i := by
  unfold removeAt
  intro r hr
  obtain ⟨a, ha, hr⟩ := Option.bind_eq_some_iff.mp hr
  cases hr
  exact ⟨ha, rfl⟩

theorem allRows_insertIdx (scrollback rows : List Row) (i : ℕ) (row : Row) :
    (scrollback ++ rows.insertIdx i row).map Row.cells =
      ((scrollback ++ rows).map Row.cells).insertIdx (scrollback.length + i) row.cells := by
  rw [← insertIdx_append, List.map_insertIdx]

/-- A row that leaves at the top goes to the scrollback, and the oldest row there makes room for
it. -/
theorem scrollOne_top (h : Fits b g) (htop : g.scrollTop = 0) :
    Ensures (Grid.scrollOne true g) fun g' => g'.pos = g.pos ∧ shape g' = shape g ∧
      ∃ row e, e = (if g.scrollback.length = g.scrollbackLen then 1 else 0) ∧
        g'.scrollback.length + e = g.scrollback.length + 1 ∧
        allRows g' =
          ((allRows g).insertIdx (g.scrollback.length + (g.scrollBottom + 1)) row).drop e := by
  have hcap : g.scrollback.length ≤ g.scrollbackLen := by
    rw [h.cap_eq]
    exact h.history_len
  unfold Grid.scrollOne
  refine (ensures_insertAt g.rows (g.scrollBottom + 1) g.newRow).bind fun rows hrows => ?_
  refine (ensures_removeAt rows g.scrollTop).bind fun r hr => ?_
  obtain ⟨hfirst, hrest⟩ := hr
  rw [htop] at hfirst hrest
  have hsplit : rows = r.1 :: r.2 := by
    cases rows with
    | nil => cases hfirst
    | cons first rest =>
        rw [List.getElem?_cons_zero, Option.some_inj] at hfirst
        rw [hfirst, hrest]
        rfl
  have hall : (g.scrollback ++ r.1 :: r.2).map Row.cells =
      (allRows g).insertIdx (g.scrollback.length + (g.scrollBottom + 1)) g.newRow.cells := by
    rw [← hsplit, hrows]
    exact allRows_insertIdx _ _ _ _
  have he : (g.scrollback ++ [r.1]).length - g.scrollbackLen =
      if g.scrollback.length = g.scrollbackLen then 1 else 0 := by
    rw [List.length_append, List.length_singleton]
    split_ifs <;> omega
  by_cases hfeeds : true = true ∧ 0 < g.scrollbackLen ∧ g.scrollTop = 0
  · rw [if_pos hfeeds]
    refine ensures_some ⟨rfl, rfl, g.newRow.cells, _, rfl, ?_, ?_⟩
    · show ((g.scrollback ++ [r.1]).drop ((g.scrollback ++ [r.1]).length - g.scrollbackLen)).length
        + _ = _
      rw [he, List.length_drop, List.length_append, List.length_singleton]
      split_ifs <;> omega
    · rw [← hall]
      show (((g.scrollback ++ [r.1]).drop _) ++ r.2).map Row.cells = _
      rw [he, ← List.drop_append_of_le_length, List.append_assoc, List.singleton_append,
        List.map_drop]
      rw [List.length_append, List.length_singleton]
      split_ifs <;> omega
  · -- there is no scrollback
    rw [if_neg hfeeds]
    have hnone : g.scrollbackLen = 0 := by
      by_contra hne
      exact hfeeds ⟨rfl, Nat.pos_of_ne_zero hne, htop⟩
    have hempty : g.scrollback.length = 0 := by omega
    have hfull : g.scrollback.length = g.scrollbackLen := by omega
    refine ensures_some ⟨rfl, rfl, g.newRow.cells, _, rfl, ?_, ?_⟩
    · show g.scrollback.length + _ = _
      rw [if_pos hfull]
    · rw [← hall, if_pos hfull]
      show (g.scrollback ++ r.2).map Row.cells = _
      rw [List.length_eq_zero_iff.mp hempty]
      rfl

/-- A row that leaves further down is gone. -/
theorem scrollOne_inner (htop : g.scrollTop ≠ 0) :
    Ensures (Grid.scrollOne true g) fun g' => g'.pos = g.pos ∧ shape g' = shape g ∧
      g'.scrollback = g.scrollback ∧ ∃ row, allRows g' =
        ((allRows g).insertIdx (g.scrollback.length + (g.scrollBottom + 1)) row).eraseIdx
          (g.scrollback.length + g.scrollTop) := by
  unfold Grid.scrollOne
  refine (ensures_insertAt g.rows (g.scrollBottom + 1) g.newRow).bind fun rows hrows => ?_
  refine (ensures_removeAt rows g.scrollTop).bind fun r hr => ?_
  rw [if_neg fun hfeeds => htop hfeeds.2.2]
  refine ensures_some ⟨rfl, rfl, rfl, g.newRow.cells, ?_⟩
  show (g.scrollback ++ r.2).map Row.cells = _
  unfold allRows
  rw [hr.2, ← allRows_insertIdx, ← hrows, List.eraseIdx_map,
    List.eraseIdx_append_of_length_le (Nat.le_add_right _ _), Nat.add_sub_cancel_left]

/-- A scroll leaves the rows alone that are at or above the last row of a region that begins at the
top, or above another one. -/
theorem remains_scrollOne (h : Fits b g) {old : List (List Cell)} {n : ℕ} (hremains : Remains old n g)
    (hlen : (old.drop n).length ≤
      g.scrollback.length + if g.scrollTop = 0 then g.scrollBottom + 1 else g.scrollTop) :
    Ensures (Grid.scrollOne true g) fun g' => g'.pos = g.pos ∧ shape g' = shape g ∧
      ∃ e ≤ 1, Remains old (n + e) g' ∧
        g'.scrollback.length + e = g.scrollback.length + if g.scrollTop = 0 then 1 else 0 := by
  have hregion := h.region_le
  by_cases htop : g.scrollTop = 0
  · rw [if_pos htop] at hlen ⊢
    intro g' hg'
    obtain ⟨hpos, hshape, row, e, he, hlength, hall⟩ := scrollOne_top h htop g' hg'
    have hle : e ≤ 1 := by
      rw [he]
      split_ifs <;> omega
    refine ⟨hpos, hshape, e, hle, ⟨?_, fun hne => ?_⟩, hlength⟩
    · rw [hall, ← List.drop_drop]
      exact prefix_drop (prefix_insertIdx row hremains.rows hlen) e
    · have hlimit : g'.scrollbackLen = g.scrollbackLen :=
        congrArg (fun s : Size × ℕ × ℕ × ℕ => s.2.2.2) hshape
      have hfull : g.scrollback.length = g.scrollbackLen := by
        by_cases hn : n = 0
        · by_contra hnot
          rw [if_neg hnot] at he
          omega
        · exact hremains.full hn
      rw [if_pos hfull] at he
      omega
  · rw [if_neg htop] at hlen ⊢
    intro g' hg'
    obtain ⟨hpos, hshape, hscrollback, row, hall⟩ := scrollOne_inner htop g' hg'
    refine ⟨hpos, hshape, 0, Nat.zero_le 1, ⟨?_, fun hne => ?_⟩, by rw [hscrollback]⟩
    · rw [hall, Nat.add_zero]
      exact prefix_eraseIdx (prefix_insertIdx row hremains.rows (by omega)) hlen
    · have hlimit : g'.scrollbackLen = g.scrollbackLen :=
        congrArg (fun s : Size × ℕ × ℕ × ℕ => s.2.2.2) hshape
      rw [hscrollback, hlimit]
      exact hremains.full hne

/-! ## The line feed -/

theorem ensures_scrollUp_zero : Ensures (g.scrollUp 0) fun g' => g' = g := by
  unfold Grid.scrollUp Grid.scrollRegionUp
  refine ensures_bind fun height => ?_
  rw [Nat.zero_min]
  exact ensures_some rfl

theorem ensures_scrollUp_one : Ensures (g.scrollUp 1) fun g' => Grid.scrollOne true g = some g' := by
  unfold Grid.scrollUp Grid.scrollRegionUp
  refine ensures_bind fun height => ?_
  rw [Nat.min_eq_left (Nat.le_add_left 1 height)]
  intro g' hg'
  obtain ⟨g'', hone, hsome⟩ := Option.bind_eq_some_iff.mp hg'
  cases hsome
  exact hone

/-- The cursor goes down, or the region is scrolled under it. -/
theorem rowIncScroll_cases (h : Fits b g) (hrows : b.size.rows ≤ u16Max) :
    Ensures (g.rowIncScroll 1) fun r =>
      (g.pos.row = g.scrollBottom ∧ r.2 = 1 ∧ Grid.scrollOne true g = some r.1) ∨
      g.pos.row ≠ g.scrollBottom ∧ r.2 = 0 ∧
        r.1 = { g with pos := ⟨min (g.pos.row + 1) (g.size.rows - 1), g.pos.col⟩ } := by
  have hone : 1 ≤ g.size.rows := h.rows_eq ▸ h.rows_pos
  have hrow := h.pos_row
  have hregion := h.region_le
  have hlt := h.region_lt
  have hsize := h.rows_eq
  have hsat : saturatingAdd u16Max g.pos.row 1 = g.pos.row + 1 := by
    unfold saturatingAdd
    omega
  have hclamp : ∀ limit : Bool,
      ({ g with pos := { g.pos with row := g.pos.row + 1 } } : Grid).rowClampBottom limit =
        some ({ g with pos := ⟨min (g.pos.row + 1) (bottomRow g limit), g.pos.col⟩ },
          g.pos.row + 1 - bottomRow g limit) :=
    fun limit => rowClampBottom_eq { g with pos := { g.pos with row := g.pos.row + 1 } } hone limit
  have hin : g.inScrollRegion = true ↔ g.scrollTop ≤ g.pos.row ∧ g.pos.row ≤ g.scrollBottom := by
    unfold Grid.inScrollRegion
    simp only [Bool.and_eq_true, decide_eq_true_eq]
  unfold Grid.rowIncScroll
  rw [hsat, hclamp]
  rw [Option.bind_eq_bind, Option.bind_some]
  cases hregional : g.inScrollRegion with
  | false =>
      refine ensures_some (Or.inr ⟨fun hbottom => ?_, rfl, rfl⟩)
      rw [hin.mpr ⟨by omega, hbottom.le⟩] at hregional
      cases hregional
  | true =>
      have hbounds := hin.mp hregional
      have hbottom : bottomRow g true = g.scrollBottom := rfl
      rw [if_pos rfl, hbottom]
      by_cases heq : g.pos.row = g.scrollBottom
      · have hsame : ({ g with pos := ⟨min (g.pos.row + 1) g.scrollBottom, g.pos.col⟩ } : Grid) =
            g := by
          rw [show min (g.pos.row + 1) g.scrollBottom = g.pos.row by omega]
        rw [hsame, show g.pos.row + 1 - g.scrollBottom = 1 by omega]
        exact ensures_scrollUp_one.bind fun g' hg' => ensures_some (Or.inl ⟨heq, rfl, hg'⟩)
      · rw [show g.pos.row + 1 - g.scrollBottom = 0 by omega, min_eq_left (by omega)]
        refine ensures_scrollUp_zero.bind fun g' hg' => ensures_some (Or.inr ⟨heq, rfl, ?_⟩)
        rw [hg', min_eq_left (by omega)]

/-! ## Room for the cursor -/

/-- The old rows are above the cursor, and stay there while it goes down `k` times. A region that
does not begin at the top has none of them, or the cursor does not come to its end. Every time at
most one row leaves the scrollback, `most` in all. -/
structure Clear (old : List (List Cell)) (most k n : ℕ) (g : Grid) : Prop where
  remains : Remains old n g
  spent : n + k ≤ most
  above : (old.drop n).length ≤ g.scrollback.length + g.pos.row
  room : g.scrollTop = 0 ∨ (old.drop n).length ≤ g.scrollback.length + g.scrollTop ∨
    g.scrollBottom < g.pos.row ∨ g.pos.row + k ≤ g.scrollBottom

namespace Clear

variable {old : List (List Cell)} {most k j n : ℕ} {g' : Grid}

theorem mono (h : Clear old most k n g) (hle : j ≤ k) : Clear old most j n g :=
  ⟨h.remains, (Nat.add_le_add_left hle n).trans h.spent, h.above, h.room.imp_right fun h => h.imp_right fun h => h.imp_right fun h => by omega⟩

theorem congr (h : Clear old most k n g) (hrows : g'.rows = g.rows) (hback : g'.scrollback = g.scrollback)
    (hrow : g'.pos.row = g.pos.row) (hshape : shape g' = shape g) : Clear old most k n g' := by
  unfold shape at hshape
  simp only [Prod.mk.injEq] at hshape
  obtain ⟨-, htop, hbottom, hlimit⟩ := hshape
  refine ⟨⟨?_, ?_⟩, h.spent, ?_, ?_⟩
  · unfold allRows
    rw [hrows, hback]
    exact h.remains.rows
  · rw [hback, hlimit]
    exact h.remains.full
  · rw [hback, hrow]
    exact h.above
  · rw [hback, hrow, htop, hbottom]
    exact h.room

theorem inRow (h : Clear old most k n g) (hrow : InRow g g') : Clear old most k n g' := by
  have hremains := hrow.remains h.remains h.above
  obtain ⟨rows, -, col, rfl⟩ := hrow
  exact ⟨hremains, h.spent, h.above, h.room⟩

/-- INTERNAL: The cursor goes down by one.
SRC: grid.rs:709-719 -/
theorem rowIncScroll (h : Clear old most (k + 1) n g) (hfits : Fits b g) (hrows : b.size.rows ≤ u16Max) :
    Ensures (g.rowIncScroll 1) fun r =>
      (∃ n', Clear old most k n' r.1) ∧ r.1.pos.col = g.pos.col ∧ r.1.size = g.size := by
  intro r hr
  have hrow := hfits.pos_row
  have hsize := hfits.rows_eq
  have habove := h.above
  rw [List.length_drop] at habove
  obtain ⟨hbottom, -, hone⟩ | ⟨hbottom, -, heq⟩ := rowIncScroll_cases hfits hrows r hr
  · have hroom : g.scrollTop = 0 ∨ (old.drop n).length ≤ g.scrollback.length + g.scrollTop := by
      obtain hzero | hlow | hout | hfar := h.room
      · exact Or.inl hzero
      · exact Or.inr hlow
      · omega
      · omega
    have hlen : (old.drop n).length ≤
        g.scrollback.length + if g.scrollTop = 0 then g.scrollBottom + 1 else g.scrollTop := by
      rw [List.length_drop] at hroom ⊢
      split_ifs with htop
      · omega
      · exact hroom.resolve_left htop
    obtain ⟨hpos, hshape, e, he, hremains, hback⟩ := remains_scrollOne hfits h.remains hlen r.1 hone
    have hsame := hshape
    unfold shape at hsame
    simp only [Prod.mk.injEq] at hsame
    obtain ⟨hgsize, htop, hend, -⟩ := hsame
    rw [List.length_drop] at hroom
    refine ⟨⟨n + e, hremains, ?_, ?_, ?_⟩, by rw [hpos], hgsize⟩
    · have hspent := h.spent
      omega
    · rw [List.length_drop, hpos]
      split_ifs at hback <;> omega
    · rw [htop, List.length_drop]
      refine hroom.imp_right fun hlow => Or.inl ?_
      split_ifs at hback <;> omega
  · rw [heq]
    have hspent := h.spent
    refine ⟨⟨n, ⟨h.remains.rows, h.remains.full⟩, by omega, ?_, ?_⟩, rfl, rfl⟩
    · rw [List.length_drop]
      show old.length - n ≤ g.scrollback.length + min (g.pos.row + 1) (g.size.rows - 1)
      omega
    · refine h.room.imp_right fun h => h.imp_right fun h => ?_
      show g.scrollBottom < min (g.pos.row + 1) (g.size.rows - 1) ∨
        min (g.pos.row + 1) (g.size.rows - 1) + k ≤ g.scrollBottom
      omega

/-- INTERNAL: A line feed.
SRC: grid.rs:699-707 -/
theorem lineFeed (h : Clear old most (k + 1) n g) (hfits : Fits b g) (hrows : b.size.rows ≤ u16Max) :
    Ensures g.lineFeed fun g' => (∃ n', Clear old most k n' g') ∧ g'.pos.col ≤ g.pos.col := by
  unfold Grid.lineFeed
  refine (h.rowIncScroll hfits hrows).bind fun r ⟨⟨n', hclear⟩, hcol, _⟩ => ?_
  dsimp only
  refine Ensures.bind (Q := fun g' => Clear old most k n' g' ∧ g'.pos.col = g.pos.col) ?_
    fun g₁ ⟨h₁, hcol₁⟩ => ?_
  · refine Ensures.ite (fun g₁ hg₁ => ?_) (ensures_some ⟨hclear, hcol⟩)
    obtain ⟨hrow, hpos⟩ := inRow_modifyCurrentRow _ g₁ hg₁
    exact ⟨hclear.inRow hrow, by rw [hpos, hcol]⟩
  · intro g₂ hg₂
    obtain ⟨hrow, hle⟩ := inRow_colClamp g₂ hg₂
    exact ⟨⟨n', h₁.inRow hrow⟩, hle.trans hcol₁.le⟩

/-- INTERNAL: A character that does not fit into the line goes to the next one.
SRC: grid.rs:849-855 -/
theorem colWrap (hfits : Fits b g) (hrows : b.size.rows ≤ u16Max)
    (h : Clear old most (k + if g.pos.col = g.size.cols then 1 else 0) n g) :
    Ensures (g.colWrap 1) fun g' => (∃ n', Clear old most k n' g') ∧
      g'.pos.col = if g.pos.col = g.size.cols then 0 else g.pos.col := by
  have hcols : 1 ≤ g.size.cols := hfits.cols_eq ▸ hfits.cols_pos
  have hcol : g.pos.col ≤ g.size.cols := hfits.cols_eq ▸ hfits.pos_col
  unfold Grid.colWrap
  rw [checkedSub_of_le hcols, Option.bind_eq_bind, Option.bind_some]
  by_cases hpending : g.pos.col = g.size.cols
  · rw [if_pos hpending] at h ⊢
    rw [if_pos (by omega)]
    have hstart : Clear old most (k + 1) n { g with pos := { g.pos with col := 0 } } :=
      h.inRow (InRow.col g 0)
    have hfits' : Fits b { g with pos := { g.pos with col := 0 } } :=
      hfits.cursor hfits.pos_row (Nat.zero_le _)
    refine (hstart.rowIncScroll hfits' hrows).bind fun r ⟨⟨n', hclear⟩, hzero, _⟩ => ?_
    intro g' hg'
    obtain ⟨hrow, hpos⟩ := inRow_modifyCurrentRow _ g' hg'
    exact ⟨⟨n', hclear.inRow hrow⟩, by rw [hpos, hzero]⟩
  · rw [if_neg hpending] at h ⊢
    rw [if_neg (by omega)]
    exact ensures_some ⟨⟨n, h⟩, rfl⟩

end Clear

end

end Tymux.Analysis.Vt
