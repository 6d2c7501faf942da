import Tymux.Analysis.LayoutGeometry

/-!
# The rectangles tile the window

Every tree that any sequence of `split?` and `remove` builds from a leaf stores the ratio `1/2`
everywhere, so its geometry is the halving recursion `rects`. The rectangles of the two children
of a split partition the rectangle of the split, whatever its size; by induction over the tree
each cell of the window is in the rectangle of exactly one leaf.

The identifiers of the panes play no role: a sequence may name the same pane twice, as long as
no step panics.
-/

set_option autoImplicit false

namespace Tymux.Analysis

open Tymux.Model Tymux.Model.LayoutNode

/-- The trees that splits and removals build from a leaf. A split that is refused leaves the tree
as it was. -/
inductive Built : LayoutNode → Prop
  | leaf (paneId : Uuid) : Built (.leaf paneId)
  | split {t t' : LayoutNode} (ht : Built t) (target : Uuid) (orientation : Orientation)
      (newPane : Uuid) (windowRows windowCols : ℕ)
      (h : t.split? target orientation newPane windowRows windowCols = some (.ok t')) : Built t'
  | remove {t t' : LayoutNode} (ht : Built t) (paneId : Uuid)
      (h : t.remove paneId = .collapsed t') : Built t'

/-! ## Ratios -/

theorem halved_replaceLeafGo {target : Uuid} {f : LayoutNode → LayoutNode}
    (hf : ∀ id, Halved (f (.leaf id))) {t t' : LayoutNode} {taken taken' : Bool} (ht : Halved t)
    (h : replaceLeafGo target f t taken = some (t', taken')) : Halved t' := by
  induction t generalizing taken t' taken' with
  | leaf id =>
      rw [replaceLeafGo] at h
      split_ifs at h
      · obtain ⟨rfl, -⟩ := Prod.mk.inj (Option.some_inj.mp h)
        exact hf id
      · obtain ⟨rfl, -⟩ := Prod.mk.inj (Option.some_inj.mp h)
        exact ht
  | split o first r₁ second r₂ ih₁ ih₂ =>
      rw [replaceLeafGo] at h
      obtain ⟨hr₁, hr₂, hfirst, hsecond⟩ := ht
      obtain ⟨⟨first', taken₁⟩, h₁, h⟩ := Option.bind_eq_some_iff.mp h
      obtain ⟨⟨second', taken₂⟩, h₂, h⟩ := Option.bind_eq_some_iff.mp h
      obtain ⟨rfl, -⟩ := Prod.mk.inj (Option.some_inj.mp h)
      exact ⟨hr₁, hr₂, ih₁ hfirst h₁, ih₂ hsecond h₂⟩

theorem halved_split? {t t' : LayoutNode} (ht : Halved t) {target newPane : Uuid}
    {orientation : Orientation} {windowRows windowCols : ℕ}
    (h : t.split? target orientation newPane windowRows windowCols = some (.ok t')) :
    Halved t' := by
  unfold split? at h
  split at h
  · cases h
  · obtain ⟨geometry, -, h⟩ := Option.bind_eq_some_iff.mp h
    obtain ⟨⟨id, rect⟩, -, h⟩ := Option.bind_eq_some_iff.mp h
    dsimp only at h
    split_ifs at h
    · cases h
    · cases h
    · obtain ⟨out, hout, h⟩ := Option.bind_eq_some_iff.mp h
      obtain rfl := Except.ok.inj (Option.some_inj.mp h)
      obtain ⟨⟨tree, taken⟩, hgo, rfl⟩ := Option.map_eq_some_iff.mp hout
      apply halved_replaceLeafGo _ ht hgo
      intro id
      exact ⟨rfl, rfl, trivial, trivial⟩

theorem halved_remove {t t' : LayoutNode} (ht : Halved t) {paneId : Uuid}
    (h : t.remove paneId = .collapsed t') : Halved t' := by
  induction t generalizing t' with
  | leaf id =>
      rw [LayoutNode.remove] at h
      split_ifs at h
      cases h
      exact ht
  | split o first r₁ second r₂ ih₁ ih₂ =>
      obtain ⟨hr₁, hr₂, hfirst, hsecond⟩ := ht
      rw [LayoutNode.remove] at h
      split_ifs at h
      · cases h
        exact hsecond
      · cases h
        exact hfirst
      · split at h
        case h_1 newFirst hremove =>
            cases h
            exact ⟨hr₁, hr₂, ih₁ hfirst hremove, hsecond⟩
        case h_2 =>
            cases h
            exact hsecond
      · split at h
        case h_1 newSecond hremove =>
            cases h
            exact ⟨hr₁, hr₂, hfirst, ih₂ hsecond hremove⟩
        case h_2 =>
            cases h
            exact hfirst
      · cases h
        exact ⟨hr₁, hr₂, hfirst, hsecond⟩

/-- INTERNAL: Splits and removals store no other ratio than one half.
SRC: layout.rs:187-298 -/
theorem Built.halved {t : LayoutNode} (h : Built t) : Halved t := by
  induction h with
  | leaf paneId => trivial
  | split _ _ _ _ _ _ h ih => exact halved_split? ih h
  | remove _ _ h ih => exact halved_remove ih h

/-! ## Rectangles -/

/-- The cell is in the rectangle. -/
def covers (r c : ℕ) (rect : PtyRect) : Bool :=
  rect.row ≤ r && r < rect.row + rect.rows && rect.col ≤ c && c < rect.col + rect.cols

/-- INTERNAL: The rectangles of a subtree cover each cell of its own rectangle once, and no other
cell.
SRC: layout.rs:135-185 -/
theorem countP_covers_rects (t : LayoutNode) (row col rows cols r c : ℕ) :
    (rects t row col rows cols).countP (fun e => covers r c e.2) =
      if covers r c ⟨row, col, rows, cols⟩ then 1 else 0 := by
  induction t generalizing row col rows cols with
  | leaf id =>
      rw [rects, List.countP_cons, List.countP_nil, Nat.zero_add]
  | split o first r₁ second r₂ ih₁ ih₂ =>
      cases o with
      | horizontal =>
          rw [rects, List.countP_append, ih₁, ih₂]
          unfold covers
          simp only [Bool.and_eq_true, decide_eq_true_eq]
          have hhalf : cols / 2 ≤ cols := Nat.div_le_self cols 2
          generalize cols / 2 = half at hhalf ⊢
          split_ifs <;> omega
      | vertical =>
          rw [rects, List.countP_append, ih₁, ih₂]
          unfold covers
          simp only [Bool.and_eq_true, decide_eq_true_eq]
          have hhalf : rows / 2 ≤ rows := Nat.div_le_self rows 2
          generalize rows / 2 = half at hhalf ⊢
          split_ifs <;> omega

/-- The rectangles of a subtree are inside its own rectangle. -/
theorem rects_inside (t : LayoutNode) (row col rows cols : ℕ) {e : Uuid × PtyRect}
    (he : e ∈ rects t row col rows cols) :
    row ≤ e.2.row ∧ e.2.row + e.2.rows ≤ row + rows ∧
      col ≤ e.2.col ∧ e.2.col + e.2.cols ≤ col + cols := by
  induction t generalizing row col rows cols with
  | leaf id =>
      rw [rects, List.mem_singleton] at he
      subst he
      exact ⟨le_rfl, le_rfl, le_rfl, le_rfl⟩
  | split o first r₁ second r₂ ih₁ ih₂ =>
      cases o with
      | horizontal =>
          rw [rects, List.mem_append] at he
          rcases he with he | he
          · have hin := ih₁ _ _ _ _ he
            omega
          · have hin := ih₂ _ _ _ _ he
            omega
      | vertical =>
          rw [rects, List.mem_append] at he
          rcases he with he | he
          · have hin := ih₁ _ _ _ _ he
            omega
          · have hin := ih₂ _ _ _ _ he
            omega

/-- INTERNAL: The geometry of a tree built by splits and removals is computed without overflow,
lists the leaves in order, stays inside the window and covers each of its cells exactly once.
SRC: layout.rs:126-185 -/
theorem geometry_tiles_window {t : LayoutNode} (ht : Built t) (rows cols : ℕ)
    (hrows : rows ≤ u16Max) (hcols : cols ≤ u16Max) :
    ∃ geometry, t.computeGeometry rows cols = some geometry ∧
      geometry.map Prod.fst = t.leaves ∧
      (∀ e ∈ geometry, e.2.row + e.2.rows ≤ rows ∧ e.2.col + e.2.cols ≤ cols) ∧
      ∀ r c, r < rows → c < cols → geometry.countP (fun e => covers r c e.2) = 1 := by
  refine ⟨rects t 0 0 rows cols, ?_, map_fst_rects t 0 0 rows cols, ?_, ?_⟩
  · exact computeGeometry_eq_rects t ht.halved rows cols hrows hcols
  · intro e he
    have hin := rects_inside t 0 0 rows cols he
    omega
  · intro r c hr hc
    have hcover : covers r c ⟨0, 0, rows, cols⟩ = true := by
      unfold covers
      simp only [Bool.and_eq_true, decide_eq_true_eq]
      omega
    rw [countP_covers_rects, if_pos hcover]

/-- A window of 25 by 81 cells, split once. -/
theorem geometry_tiles_window_split :
    ∃ geometry, (LayoutNode.split .vertical (.leaf 1) (1 / 2) (.leaf 2) (1 / 2)).computeGeometry 25 81 =
        some geometry ∧
      geometry.map Prod.fst = [1, 2] ∧
      (∀ e ∈ geometry, e.2.row + e.2.rows ≤ 25 ∧ e.2.col + e.2.cols ≤ 81) ∧
      ∀ r c, r < 25 → c < 81 → geometry.countP (fun e => covers r c e.2) = 1 :=
  geometry_tiles_window (.split (.leaf 1) 1 .vertical 2 25 81 rfl) 25 81 (by decide) (by decide)

end Tymux.Analysis
