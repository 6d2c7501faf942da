import Tymux.Model.Window
import Tymux.Analysis.LayoutGeometry

/-!
# The size floor of a pane under later viewport reports

`split?` checks the two halves of its target against the floor, at the window size of that
moment. A viewport report clamps the window as a whole and then only recomputes the
rectangles, so a deep layout can be squeezed until a pane has no rows. `needRows` and
`needCols` say how large a window a layout needs for every pane to keep one row and one
column (`rects_pos_iff`). Over whole runs, no pane is resized to an empty rectangle exactly
when every recomputation meets a layout that the new size fits
(`run_rects_nonempty_iff`); `run_rects_empty` is a run where it does not.
-/

set_option autoImplicit false

namespace Tymux.Analysis

open Tymux.Model Tymux.Model.LayoutNode

/-- The fewest rows a window needs for every pane of the layout to have one. -/
def needRows : LayoutNode → ℕ
  | leaf _ => 1
  | split .horizontal first _ second _ => max (needRows first) (needRows second)
  | split .vertical first _ second _ => max (2 * needRows first) (2 * needRows second - 1)

/-- The fewest columns a window needs for every pane of the layout to have one. -/
def needCols : LayoutNode → ℕ
  | leaf _ => 1
  | split .horizontal first _ second _ => max (2 * needCols first) (2 * needCols second - 1)
  | split .vertical first _ second _ => max (needCols first) (needCols second)

/-- A rectangle with a row and a column: what `Screen::set_size` may be given. -/
def HasCells (r : PtyRect) : Prop := 1 ≤ r.rows ∧ 1 ≤ r.cols

/-- INTERNAL: every pane of a layout has a row and a column exactly when the extents reach
what the layout needs.
SRC: layout.rs:135-185 -/
theorem rects_pos_iff (t : LayoutNode) (row col rows cols : ℕ) :
    (∀ e ∈ rects t row col rows cols, HasCells e.2) ↔ needRows t ≤ rows ∧ needCols t ≤ cols := by
  induction t generalizing row col rows cols with
  | leaf id => simp [rects, HasCells, needRows, needCols]
  | split o first r₁ second r₂ ih₁ ih₂ =>
    cases o with
    | horizontal =>
      simp only [rects, List.mem_append, or_imp, forall_and, ih₁, ih₂, needRows, needCols]
      omega
    | vertical =>
      simp only [rects, List.mem_append, or_imp, forall_and, ih₁, ih₂, needRows, needCols]
      omega

/-! ## The size a window runs at -/

/-- INTERNAL: the running minimum never exceeds its start. -/
theorem foldl_min_le {α : Type*} (f : α → ℕ) (l : List α) (m : ℕ) :
    l.foldl (fun m e => min m (f e)) m ≤ m := by
  induction l generalizing m with
  | nil => exact le_refl m
  | cons a l ih => exact le_trans (ih (min m (f a))) (min_le_left m (f a))

/-- The reports of a window, as `clampViewport` leaves them. -/
def ViewportsClamped (v : Viewports) : Prop :=
  ∀ e ∈ v, e.2.1 ≤ maxPaneRows ∧ e.2.2 ≤ maxPaneCols

/-- INTERNAL: a clamped report keeps the viewports clamped.
SRC: engine.rs:65-72 -/
theorem viewportsClamped_insert {v : Viewports} (hv : ViewportsClamped v) (client rows cols : ℕ) :
    ViewportsClamped (v.insert client (clampViewport rows cols).1 (clampViewport rows cols).2) := by
  intro e he
  rcases List.mem_cons.mp he with rfl | he
  · simp only [clampViewport, minPaneRows, minPaneCols, maxPaneRows, maxPaneCols]
    omega
  · exact hv e (List.mem_of_mem_filter he)

/-- INTERNAL: a detaching client keeps the viewports clamped.
SRC: engine.rs:1239-1243 -/
theorem viewportsClamped_remove {v : Viewports} (hv : ViewportsClamped v) (client : ℕ) :
    ViewportsClamped (v.remove client) :=
  fun e he => hv e (List.mem_of_mem_filter he)

/-- INTERNAL: the effective size of a window is a `u16` size.
SRC: engine.rs:1270-1280 -/
theorem effectiveSize_le {v : Viewports} (hv : ViewportsClamped v) :
    v.effectiveSize.1 ≤ u16Max ∧ v.effectiveSize.2 ≤ u16Max := by
  cases v with
  | nil => decide
  | cons e rest =>
    obtain ⟨client, r, c⟩ := e
    have hbound := hv (client, r, c) (List.mem_cons_self ..)
    have hr := foldl_min_le (fun e : ℕ × ℕ × ℕ => e.2.1) rest r
    have hc := foldl_min_le (fun e : ℕ × ℕ × ℕ => e.2.2) rest c
    simp only [maxPaneRows, maxPaneCols] at hbound
    simp only [Viewports.effectiveSize, u16Max]
    omega

/-! ## What a run keeps -/

/-- The invariant of a window: its layout is halved and names live panes, each once, ids in
use are below the supply of new ones, and all sizes are `u16` sizes. -/
structure WindowInv (w : WindowWorld) : Prop where
  halved : ∀ win ∈ w.window, Halved win.layout
  nodup : ∀ win ∈ w.window, win.layout.leaves.Nodup
  live : ∀ win ∈ w.window, ∀ id ∈ win.layout.leaves, id ∈ w.panes
  size : ∀ win ∈ w.window, win.rows ≤ u16Max ∧ win.cols ≤ u16Max
  fresh : ∀ id ∈ w.panes, id < w.nextId
  clamped : ViewportsClamped w.viewports

/-- INTERNAL: a new window satisfies the invariant.
SRC: engine.rs:483-500 -/
theorem windowInv_new (pane : Uuid) : WindowInv (WindowWorld.new pane) where
  halved := by simp [WindowWorld.new, Halved]
  nodup := by simp [WindowWorld.new, leaves]
  live := by simp [WindowWorld.new, leaves]
  size := by simp [WindowWorld.new, defaultRows, defaultCols, u16Max]
  fresh := by simp [WindowWorld.new]
  clamped := by simp [WindowWorld.new, ViewportsClamped]

/-- INTERNAL: a recomputation never panics, keeps the invariant, and resizes every pane of
the layout to its rectangle at the effective size.
SRC: engine.rs:1249-1345 -/
theorem recompute_spec {w : WindowWorld} (hw : WindowInv w) :
    ∃ w', WindowInv w' ∧ w.recomputeWindowGeometry =
      some (w', (w.window.map fun win =>
        rects win.layout 0 0 w.viewports.effectiveSize.1 w.viewports.effectiveSize.2).getD []) := by
  obtain ⟨window, panes, viewports, nextId⟩ := w
  have hsize := effectiveSize_le hw.clamped
  cases window with
  | none => exact ⟨_, hw, rfl⟩
  | some win =>
    refine ⟨⟨some ⟨win.layout, viewports.effectiveSize.1, viewports.effectiveSize.2⟩, panes,
      viewports, nextId⟩, ?_, ?_⟩
    · refine ⟨?_, ?_, ?_, ?_, hw.fresh, hw.clamped⟩
      · simpa using hw.halved win rfl
      · simpa using hw.nodup win rfl
      · simpa using hw.live win rfl
      · simpa using hsize
    · have hgeo := computeGeometry_eq_rects win.layout (hw.halved win rfl) _ _ hsize.1 hsize.2
      have hall : (rects win.layout 0 0 viewports.effectiveSize.1
          viewports.effectiveSize.2).filter (fun e => decide (e.1 ∈ panes)) =
          rects win.layout 0 0 viewports.effectiveSize.1 viewports.effectiveSize.2 := by
        rw [List.filter_eq_self]
        intro e he
        have hleaf : e.1 ∈ win.layout.leaves := by
          rw [← map_fst_rects win.layout 0 0 viewports.effectiveSize.1 viewports.effectiveSize.2]
          exact List.mem_map_of_mem he
        exact decide_eq_true (hw.live win rfl e.1 hleaf)
      simp only [WindowWorld.recomputeWindowGeometry, hgeo, Option.bind_eq_bind, Option.bind_some,
        hall, Option.map_some, Option.getD_some]
      rfl

/-- INTERNAL: a split never panics and keeps the invariant.
SRC: engine.rs:675-736 -/
theorem splitPane_spec {w : WindowWorld} (hw : WindowInv w) (target : Uuid) (o : Orientation) :
    ∃ w', WindowInv w' ∧ w.splitPane target o = some w' := by
  obtain ⟨window, panes, viewports, nextId⟩ := w
  cases window with
  | none => exact ⟨_, hw, rfl⟩
  | some win =>
    have hsize := hw.size win rfl
    have hfresh : ∀ id ∈ panes, id < nextId + 1 :=
      fun id hid => Nat.lt_succ_of_lt (hw.fresh id hid)
    rcases split?_cases win.layout (hw.halved win rfl) (hw.nodup win rfl) target nextId o
        win.rows win.cols hsize.1 hsize.2 with ⟨e, he⟩ | ⟨hmem, hok⟩
    · refine ⟨⟨some win, panes, viewports, nextId + 1⟩, ?_, ?_⟩
      · exact ⟨hw.halved, hw.nodup, hw.live, hw.size, hfresh, hw.clamped⟩
      · simp only [WindowWorld.splitPane, he, Option.bind_eq_bind, Option.bind_some]
        rfl
    · have hnew : nextId ∉ win.layout.leaves :=
        fun h => Nat.lt_irrefl _ (hw.fresh _ (hw.live win rfl _ h))
      refine ⟨⟨some ⟨graft target (halves o nextId) win.layout, win.rows, win.cols⟩,
        nextId :: panes, viewports, nextId + 1⟩, ?_, ?_⟩
      · refine ⟨?_, ?_, ?_, ?_, ?_, hw.clamped⟩
        · simpa using halved_graft_halves target nextId o win.layout (hw.halved win rfl)
        · simpa using nodup_leaves_graft_halves target nextId o win.layout (hw.nodup win rfl) hnew
        · rintro win' ⟨⟩ id hid
          rcases mem_leaves_graft_halves target nextId id o win.layout hid with h | h
          · exact List.mem_cons_of_mem _ (hw.live win rfl id h)
          · exact h ▸ List.mem_cons_self ..
        · simpa using hsize
        · intro id hid
          rcases List.mem_cons.mp hid with rfl | hid
          · exact Nat.lt_succ_self _
          · exact hfresh id hid
      · simp only [WindowWorld.splitPane, hok, Option.bind_eq_bind, Option.bind_some]
        rfl

/-- INTERNAL: closing a pane keeps the invariant.
SRC: engine.rs:742-848 -/
theorem windowInv_closePane {w : WindowWorld} (hw : WindowInv w) (pane : Uuid) :
    WindowInv (w.closePane pane) := by
  obtain ⟨window, panes, viewports, nextId⟩ := w
  have hfresh : ∀ id ∈ panes.erase pane, id < nextId :=
    fun id hid => hw.fresh id (List.mem_of_mem_erase hid)
  cases window with
  | none => exact hw
  | some win =>
    by_cases hc : win.layout.contains pane = true
    · rcases remove_cases win.layout (hw.nodup win rfl) pane with
        ⟨-, hrem⟩ | ⟨t', hrem, hH, hl⟩
      · simp only [WindowWorld.closePane, hc, if_true, hrem]
        exact ⟨by simp, by simp, by simp, by simp, hfresh, hw.clamped⟩
      · simp only [WindowWorld.closePane, hc, if_true, hrem]
        refine ⟨by simpa using hH (hw.halved win rfl), ?_, ?_, by simpa using hw.size win rfl, hfresh, hw.clamped⟩
        · rintro win' ⟨⟩
          exact hl ▸ (hw.nodup win rfl).erase pane
        · rintro win' ⟨⟩ id hid
          have hid' : id ∈ win.layout.leaves.erase pane := hl ▸ hid
          obtain ⟨hne, hmem⟩ := ((hw.nodup win rfl).mem_erase_iff).mp hid'
          exact (List.mem_erase_of_ne hne).mpr (hw.live win rfl id hmem)
    · simp only [WindowWorld.closePane, hc]
      exact hw

/-- The layout fits the size that the registered viewports ask for. -/
def LayoutFits (w : WindowWorld) : Prop :=
  ∀ win ∈ w.window, needRows win.layout ≤ w.viewports.effectiveSize.1 ∧
    needCols win.layout ≤ w.viewports.effectiveSize.2

/-- The condition on one step: a step that recomputes the geometry does so for a layout that
fits. A report counts with the viewports it is about to register. -/
def StepFits (w : WindowWorld) : WindowOp → Prop
  | .reportViewport client rows cols =>
    LayoutFits { w with
      viewports := w.viewports.insert client (clampViewport rows cols).1 (clampViewport rows cols).2 }
  | .recompute => LayoutFits w
  | _ => True

/-- `StepFits` at every step of a run. -/
def RunFits (w : WindowWorld) : List WindowOp → Prop
  | [] => True
  | op :: ops => StepFits w op ∧ ∀ w' rects, w.step op = some (w', rects) → RunFits w' ops

theorem recompute_nonempty_iff {w : WindowWorld} (hw : WindowInv w) :
    ∃ w' rects, w.recomputeWindowGeometry = some (w', rects) ∧ WindowInv w' ∧
      ((∀ e ∈ rects, HasCells e.2) ↔ LayoutFits w) := by
  obtain ⟨w', hw', heq⟩ := recompute_spec hw
  refine ⟨w', _, heq, hw', ?_⟩
  unfold LayoutFits
  cases w.window with
  | none => simp
  | some win =>
    simp only [Option.map_some, Option.getD_some, rects_pos_iff, Option.mem_some_iff,
      forall_eq']

/-- INTERNAL: one step never panics, keeps the invariant, and resizes no pane to an empty
rectangle exactly when it meets `StepFits`.
SRC: engine.rs:675-848, 1203-1345 -/
theorem step_nonempty_iff {w : WindowWorld} (hw : WindowInv w) (op : WindowOp) :
    ∃ w' rects, w.step op = some (w', rects) ∧ WindowInv w' ∧
      ((∀ e ∈ rects, HasCells e.2) ↔ StepFits w op) := by
  cases op with
  | splitPane target o =>
    obtain ⟨w', hw', heq⟩ := splitPane_spec hw target o
    refine ⟨w', [], ?_, hw', by simp [StepFits]⟩
    simp [WindowWorld.step, heq]
  | closePane pane =>
    exact ⟨w.closePane pane, [], rfl, windowInv_closePane hw pane, by simp [StepFits]⟩
  | reportViewport client rows cols =>
    have hreport : WindowInv { w with
        viewports := w.viewports.insert client (clampViewport rows cols).1
          (clampViewport rows cols).2 } :=
      { hw with clamped := viewportsClamped_insert hw.clamped client rows cols }
    exact recompute_nonempty_iff hreport
  | unregisterViewport client =>
    refine ⟨{ w with viewports := w.viewports.remove client }, [], rfl, ?_, by simp [StepFits]⟩
    exact { hw with clamped := viewportsClamped_remove hw.clamped client }
  | recompute => exact recompute_nonempty_iff hw

theorem run_nonempty_iff_of_inv (ops : List WindowOp) {w : WindowWorld} (hw : WindowInv w) :
    ∃ w' rects, w.run ops = some (w', rects) ∧ WindowInv w' ∧
      ((∀ e ∈ rects, HasCells e.2) ↔ RunFits w ops) := by
  induction ops generalizing w with
  | nil => exact ⟨w, [], rfl, hw, by simp [RunFits]⟩
  | cons op ops ih =>
    obtain ⟨w₁, rects₁, hstep, hw₁, hiff₁⟩ := step_nonempty_iff hw op
    obtain ⟨w₂, rects₂, hrun, hw₂, hiff₂⟩ := ih hw₁
    refine ⟨w₂, rects₁ ++ rects₂, ?_, hw₂, ?_⟩
    · simp [WindowWorld.run, hstep, hrun]
    · have hnext : (∀ w' rects, w.step op = some (w', rects) → RunFits w' ops) ↔
          RunFits w₁ ops := by
        constructor
        · intro h
          exact h w₁ rects₁ hstep
        · intro h w' rects heq
          rw [hstep] at heq
          cases heq
          exact h
      simp only [List.mem_append, or_imp, forall_and, hiff₁, hiff₂, RunFits, hnext]

/-- INTERNAL: **the size floor over whole runs.** Starting from one pane, no sequence of
splits, closes, viewport reports and recomputations panics, and `Pane::resize` is never
handed a rectangle without a row or a column exactly when every recomputation meets a layout
whose `needRows` and `needCols` the new window size reaches.
SRC: engine.rs:1203-1345, layout.rs:126-241 -/
theorem run_rects_nonempty_iff (pane : Uuid) (ops : List WindowOp) :
    ∃ w rects, (WindowWorld.new pane).run ops = some (w, rects) ∧
      ((∀ e ∈ rects, HasCells e.2) ↔ RunFits (WindowWorld.new pane) ops) := by
  obtain ⟨w, rects, hrun, -, hiff⟩ := run_nonempty_iff_of_inv ops (windowInv_new pane)
  exact ⟨w, rects, hrun, hiff⟩

/-- INTERNAL: two stacked splits of the 24x80 window pass the split check, and a two-row
viewport then resizes the first pane to zero rows. -/
theorem run_rects_empty :
    ∃ w rects, (WindowWorld.new 0).run [.splitPane 0 .vertical, .splitPane 0 .vertical,
      .reportViewport 7 2 80] = some (w, rects) ∧ ∃ e ∈ rects, ¬ HasCells e.2 := by
  refine ⟨⟨some ⟨split .vertical (split .vertical (leaf 0) (1 / 2) (leaf 2) (1 / 2)) (1 / 2)
    (leaf 1) (1 / 2), 2, 80⟩, [2, 1, 0], [(7, 2, 80)], 3⟩,
    [(0, ⟨0, 0, 0, 80⟩), (2, ⟨0, 0, 1, 80⟩), (1, ⟨1, 0, 1, 80⟩)], by decide +kernel, ?_⟩
  exact ⟨(0, ⟨0, 0, 0, 80⟩), List.mem_cons_self .., by simp [HasCells]⟩

end Tymux.Analysis
