import Tymux.Analysis.LayoutTiling
import Tymux.Analysis.PaneRectangles

/-!
# When a split is refused

`split` looks at half of the target's rectangle, rounded down, and `compute_geometry` gives the
other half to the new pane: so the check on the smaller half is one on both, and a split that
passes it changes no other rectangle of the window.
-/

set_option autoImplicit false

namespace Tymux.Analysis.PaneSizes

open Tymux.Model LayoutNode

/-- The trees of a window: the panes that splits add are new ones. -/
inductive Grown : LayoutNode → Prop
  | leaf (paneId : Uuid) : Grown (.leaf paneId)
  | split {t t' : LayoutNode} (ht : Grown t) (target : Uuid) (orientation : Orientation)
      {newPane : Uuid} (hnew : newPane ∉ t.leaves) (windowRows windowCols : ℕ)
      (h : t.split? target orientation newPane windowRows windowCols = some (.ok t')) : Grown t'
  | remove {t t' : LayoutNode} (ht : Grown t) (paneId : Uuid)
      (h : t.remove paneId = .collapsed t') : Grown t'

theorem Grown.nodup {t : LayoutNode} (h : Grown t) : t.leaves.Nodup := by
  induction h with
  | leaf paneId => exact List.nodup_singleton paneId
  | split _ target o hnew _ _ h ih =>
      obtain ⟨-, rfl⟩ := split?_ok ih h
      exact nodup_leaves_graft_halves target _ o _ ih hnew
  | remove _ paneId h ih =>
      rcases remove_cases _ ih paneId with ⟨-, hempty⟩ | ⟨t', ht', -, hleaves⟩
      · rw [hempty] at h
        cases h
      · rw [ht'] at h
        cases h
        rw [hleaves]
        exact ih.erase paneId

theorem Grown.halved {t : LayoutNode} (h : Grown t) : Halved t := by
  induction h with
  | leaf paneId => trivial
  | split _ _ _ _ _ _ h ih => exact halved_split? ih h
  | remove _ _ h ih => exact halved_remove ih h

/-- The rectangle is large enough for a pane. -/
def Floor (r : PtyRect) : Prop := minPaneRows ≤ r.rows ∧ minPaneCols ≤ r.cols

instance (r : PtyRect) : Decidable (Floor r) := inferInstanceAs (Decidable (_ ∧ _))

/-- The halves of a rectangle; the second has the odd cell. -/
def halfRects (o : Orientation) (r : PtyRect) : PtyRect × PtyRect :=
  match o with
  | .horizontal =>
    (⟨r.row, r.col, r.rows, r.cols / 2⟩, ⟨r.row, r.col + r.cols / 2, r.rows, r.cols - r.cols / 2⟩)
  | .vertical =>
    (⟨r.row, r.col, r.rows / 2, r.cols⟩, ⟨r.row + r.rows / 2, r.col, r.rows - r.rows / 2, r.cols⟩)

/-- Each cell of `r` is in one of the two, and no other cell is in either. -/
def Tiled (r : PtyRect) (parts : PtyRect × PtyRect) : Prop :=
  ∀ row col, (covers row col parts.1).toNat + (covers row col parts.2).toNat =
    (covers row col r).toNat

theorem toNat_eq_ite (b : Bool) : b.toNat = if b = true then 1 else 0 := by
  cases b with
  | false => rfl
  | true => rfl

theorem tiled_halfRects (o : Orientation) (r : PtyRect) : Tiled r (halfRects o r) := by
  obtain ⟨top, left, rows, cols⟩ := r
  intro row col
  -- the halves are the rectangles of a split with two leaves
  have hcount := countP_covers_rects (split o (leaf 0) (1 / 2) (leaf 1) (1 / 2)) top left rows cols
    row col
  cases o with
  | horizontal =>
      simp only [rects, List.cons_append, List.nil_append, List.countP_cons, List.countP_nil,
        Nat.zero_add] at hcount
      simp only [halfRects, toNat_eq_ite]
      omega
  | vertical =>
      simp only [rects, List.cons_append, List.nil_append, List.countP_cons, List.countP_nil,
        Nat.zero_add] at hcount
      simp only [halfRects, toNat_eq_ite]
      omega

theorem parts_eq_halfRects {o : Orientation} {r : PtyRect} (hr : Fits r) :
    (firstRect o (1 / 2) r, secondRect o (1 / 2) r) = halfRects o r := by
  unfold Fits at hr
  cases o with
  | horizontal =>
      have hhalf : splitExtent r.cols (1 / 2) = r.cols / 2 := splitExtent_half (by omega)
      simp only [firstRect, secondRect, halfRects, hhalf]
  | vertical =>
      have hhalf : splitExtent r.rows (1 / 2) = r.rows / 2 := splitExtent_half (by omega)
      simp only [firstRect, secondRect, halfRects, hhalf]

/-- INTERNAL: the checks of `split` look at the half that is rounded down.
SRC: layout.rs:205-232 -/
theorem floor_halfRects_iff (o : Orientation) (r : PtyRect) :
    Floor (halfRects o r).1 ∧ Floor (halfRects o r).2 ↔ Floor (halfRects o r).1 := by
  refine ⟨fun h => h.1, fun h => ⟨h, ?_⟩⟩
  unfold Floor at h ⊢
  cases o with
  | horizontal =>
      simp only [halfRects] at h ⊢
      omega
  | vertical =>
      simp only [halfRects] at h ⊢
      omega

/-- INTERNAL: `split` over the rectangle that the geometry gives to its target.
SRC: layout.rs:197-241 -/
theorem split?_eq {t : LayoutNode} (hd : t.leaves.Nodup) {target : Uuid} (newPane : Uuid) (o : Orientation)
    {rows cols : ℕ} {g : List (Uuid × PtyRect)} {rect : PtyRect} (hmem : target ∈ t.leaves)
    (hg : t.computeGeometry rows cols = some g)
    (hfind : g.find? (fun e => e.1 = target) = some (target, rect)) :
    t.split? target o newPane rows cols =
      some (if ¬ Floor (halfRects o rect).1 then
          .error (.belowMinimumSize (halfRects o rect).1.rows (halfRects o rect).1.cols)
        else if o = .horizontal ∧ rect.rows < recommendedSplitMinRows then
          .error (.belowRecommendedSize rect.rows)
        else .ok (graft target (halves o newPane) t)) := by
  have hreplace : t.replaceLeaf target (halves o newPane) =
      some (graft target (halves o newPane) t) := by
    simp [replaceLeaf, replaceLeafGo_of_mem target _ t hd hmem]
  have hdone : ((t.replaceLeaf target (halves o newPane)).bind fun t' => some (Except.ok t')) =
      some (.ok (graft target (halves o newPane) t) : Except LayoutError LayoutNode) := by
    rw [hreplace]
    rfl
  unfold LayoutNode.split?
  rw [if_neg (by simp [(contains_iff t target).mpr hmem]), hg]
  simp only [Option.bind_eq_bind, Option.bind_some, hfind, Floor, not_and_or, not_le]
  cases o with
  | horizontal =>
      simp only [halfRects, true_and]
      by_cases hmin : rect.rows < minPaneRows ∨ rect.cols / 2 < minPaneCols
      · rw [if_pos hmin, if_pos hmin]
        rfl
      · rw [if_neg hmin, if_neg hmin]
        by_cases hrows : rect.rows < recommendedSplitMinRows
        · rw [if_pos hrows, if_pos hrows]
          rfl
        · rw [if_neg hrows, if_neg hrows]
          exact hdone
  | vertical =>
      simp only [halfRects, reduceCtorEq, false_and, if_false]
      by_cases hmin : rect.rows / 2 < minPaneRows ∨ rect.cols < minPaneCols
      · rw [if_pos hmin, if_pos hmin]
        rfl
      · rw [if_neg hmin, if_neg hmin]
        exact hdone

/-- **A split is refused for the size of the halves alone.** It succeeds exactly if both halves of
the target's rectangle are large enough, and the target of a horizontal split has the recommended
rows. Then the two panes tile that rectangle, and the others keep theirs.
SRC: layout.rs:126-241 -/
theorem split_floor {t : LayoutNode} (ht : Grown t) {target : Uuid} (hmem : target ∈ t.leaves)
    (o : Orientation) (newPane : Uuid) {rows cols : ℕ} (hrows : rows ≤ u16Max)
    (hcols : cols ≤ u16Max) :
    ∃ before rect after, t.computeGeometry rows cols = some (before ++ (target, rect) :: after) ∧
      ((∃ t', t.split? target o newPane rows cols = some (.ok t')) ↔
        Floor (halfRects o rect).1 ∧ Floor (halfRects o rect).2 ∧
          (o = .horizontal → recommendedSplitMinRows ≤ rect.rows)) ∧
      ∀ t', t.split? target o newPane rows cols = some (.ok t') →
        t'.computeGeometry rows cols = some (before ++ (target, (halfRects o rect).1) ::
          (newPane, (halfRects o rect).2) :: after) ∧
        Tiled rect (halfRects o rect) ∧
        Floor (halfRects o rect).1 ∧ Floor (halfRects o rect).2 := by
  have hg := computeGeometry_eq_rects t ht.halved rows cols hrows hcols
  have hfits : Fits ⟨0, 0, rows, cols⟩ := by
    unfold Fits
    dsimp only
    omega
  obtain ⟨before, after, rect, heq, hrect, hgraft⟩ :=
    geometryIn_graft target newPane o hfits ht.nodup hmem hg
  rw [heq] at hg
  have hfind : (before ++ (target, rect) :: after).find? (fun e => e.1 = target) =
      some (target, rect) := by
    have hnodup : ((before ++ (target, rect) :: after).map Prod.fst).Nodup := by
      have hfst := map_fst_geometryIn (r := ⟨0, 0, rows, cols⟩) hg
      rw [hfst]
      exact ht.nodup
    rw [List.map_append, List.nodup_append] at hnodup
    have hbefore : before.find? (fun e => e.1 = target) = none := by
      rw [List.find?_eq_none]
      intro e he
      rw [decide_eq_true_eq]
      exact hnodup.2.2 e.1 (List.mem_map_of_mem he) target List.mem_cons_self
    rw [List.find?_append, hbefore, Option.none_or, List.find?_cons_of_pos (by simp)]
  have hsplit := split?_eq ht.nodup newPane o hmem hg hfind
  have hiff : (∃ t', t.split? target o newPane rows cols = some (.ok t')) ↔
      Floor (halfRects o rect).1 ∧ Floor (halfRects o rect).2 ∧
        (o = .horizontal → recommendedSplitMinRows ≤ rect.rows) := by
    rw [← and_assoc, floor_halfRects_iff, hsplit]
    by_cases hmin : Floor (halfRects o rect).1
    · rw [if_neg (not_not_intro hmin)]
      by_cases hrec : o = .horizontal ∧ rect.rows < recommendedSplitMinRows
      · rw [if_pos hrec]
        refine iff_of_false ?_ fun h => absurd (h.2 hrec.1) (not_le.mpr hrec.2)
        rintro ⟨t', ht'⟩
        cases ht'
      · rw [if_neg hrec]
        refine iff_of_true ⟨_, rfl⟩ ⟨hmin, fun ho => ?_⟩
        exact not_lt.mp fun hlt => hrec ⟨ho, hlt⟩
    · rw [if_pos hmin]
      refine iff_of_false ?_ fun h => hmin h.1
      rintro ⟨t', ht'⟩
      cases ht'
  refine ⟨before, rect, after, hg, hiff, ?_⟩
  intro t' ht'
  obtain ⟨hfirst, hsecond, -⟩ := hiff.mp ⟨t', ht'⟩
  obtain ⟨-, rfl⟩ := split?_ok ht.nodup ht'
  rw [← parts_eq_halfRects hrect] at hfirst hsecond ⊢
  refine ⟨hgraft, ?_, hfirst, hsecond⟩
  rw [parts_eq_halfRects hrect]
  exact tiled_halfRects o rect

/-- `1` over `2`. -/
def stackedPanes : LayoutNode := split .vertical (leaf 1) (1 / 2) (leaf 2) (1 / 2)

theorem split_floor_stacked : ∃ before rect after,
    stackedPanes.computeGeometry 41 81 = some (before ++ (2, rect) :: after) ∧
      ((∃ t', stackedPanes.split? 2 .horizontal 3 41 81 = some (.ok t')) ↔
        Floor (halfRects .horizontal rect).1 ∧ Floor (halfRects .horizontal rect).2 ∧
          (Orientation.horizontal = .horizontal → recommendedSplitMinRows ≤ rect.rows)) ∧
      ∀ t', stackedPanes.split? 2 .horizontal 3 41 81 = some (.ok t') →
        t'.computeGeometry 41 81 = some (before ++ (2, (halfRects .horizontal rect).1) ::
          (3, (halfRects .horizontal rect).2) :: after) ∧
        Tiled rect (halfRects .horizontal rect) ∧
        Floor (halfRects .horizontal rect).1 ∧ Floor (halfRects .horizontal rect).2 :=
  split_floor (.split (.leaf 1) 1 .vertical (by decide) 25 81 rfl) (by decide) .horizontal 3
    (by decide) (by decide)

end Tymux.Analysis.PaneSizes
