import Tymux.Model.Resizing
import Tymux.Analysis.ViewportFloor
import Tymux.Lib.Run

/-!
# Recomputations of a window converge

A call that has yet to read the viewports will see every change made so far. As long as there is
one, nothing need be said about the panes; as soon as there is none, the call that holds the lock
read the viewports as they are now, and what it has applied so far is right. So when the last call
returns the window and its panes agree with the viewports.
-/

set_option autoImplicit false

namespace Tymux.Analysis

open Tymux.Model Tymux.Lib

/-! ## The size that the viewports ask for -/

theorem foldl_min_le_of_mem {α : Type*} (f : α → ℕ) {l : List α} (m : ℕ) {e : α} (he : e ∈ l) :
    l.foldl (fun m e => min m (f e)) m ≤ f e := by
  induction l generalizing m with
  | nil => cases he
  | cons a l ih =>
      rw [List.foldl_cons]
      rcases List.mem_cons.mp he with rfl | he
      · exact le_trans (foldl_min_le f l _) (min_le_right _ _)
      · exact ih _ he

theorem foldl_min_attained {α : Type*} (f : α → ℕ) (l : List α) (m : ℕ) :
    l.foldl (fun m e => min m (f e)) m = m ∨ ∃ e ∈ l, l.foldl (fun m e => min m (f e)) m = f e := by
  induction l generalizing m with
  | nil => exact Or.inl rfl
  | cons a l ih =>
      rw [List.foldl_cons]
      obtain h | ⟨e, he, h⟩ := ih (min m (f a))
      · by_cases hle : m ≤ f a
        · rw [h, min_eq_left hle]
          exact Or.inl rfl
        · rw [h, min_eq_right (by omega)]
          exact Or.inr ⟨a, List.mem_cons_self, rfl⟩
      · exact Or.inr ⟨e, List.mem_cons_of_mem _ he, h⟩

/-- The dimension-wise minimum of the registered viewports, or 24x80. -/
def MinimumViewport (v : Viewports) (size : ℕ × ℕ) : Prop :=
  v = [] ∧ size = (24, 80) ∨
    IsLeast {rows | ∃ e ∈ v, e.2.1 = rows} size.1 ∧ IsLeast {cols | ∃ e ∈ v, e.2.2 = cols} size.2

theorem isLeast_foldl_min {α : Type*} (f : α → ℕ) (a : α) (l : List α) :
    IsLeast {n | ∃ e ∈ a :: l, f e = n} (l.foldl (fun m e => min m (f e)) (f a)) := by
  constructor
  · obtain h | ⟨e, he, h⟩ := foldl_min_attained f l (f a)
    · exact ⟨a, List.mem_cons_self, h.symm⟩
    · exact ⟨e, List.mem_cons_of_mem _ he, h.symm⟩
  · rintro n ⟨e, he, rfl⟩
    rcases List.mem_cons.mp he with rfl | he
    · exact foldl_min_le f l _
    · exact foldl_min_le_of_mem f _ he

/-- INTERNAL: `recompute_window_geometry` derives the minimum.
SRC: engine.rs:1282-1291 -/
theorem minimumViewport_effectiveSize (v : Viewports) : MinimumViewport v v.effectiveSize := by
  cases v with
  | nil => exact Or.inl ⟨rfl, rfl⟩
  | cons e rest =>
      right
      exact ⟨isLeast_foldl_min (fun e => e.2.1) e rest, isLeast_foldl_min (fun e => e.2.2) e rest⟩

theorem effectiveSize_le_max {v : Viewports} (hv : ViewportsClamped v) :
    v.effectiveSize.1 ≤ maxPaneRows ∧ v.effectiveSize.2 ≤ maxPaneCols := by
  cases v with
  | nil => decide
  | cons e rest =>
      obtain ⟨hrows, hcols⟩ := hv e List.mem_cons_self
      exact ⟨le_trans (foldl_min_le (fun e => e.2.1) rest _) hrows,
        le_trans (foldl_min_le (fun e => e.2.2) rest _) hcols⟩

/-! ## The rectangles -/

/-- INTERNAL: whatever the ratios, the geometry has one rectangle for each leaf, and none is larger
than the window.
SRC: layout.rs:135-185 -/
theorem computeGeometryAt_spec (t : LayoutNode) {row col rows cols : ℕ}
    {rects : List (Uuid × PtyRect)} (h : t.computeGeometryAt row col rows cols = some rects) :
    rects.map Prod.fst = t.leaves ∧ ∀ e ∈ rects, e.2.rows ≤ rows ∧ e.2.cols ≤ cols := by
  induction t generalizing row col rows cols rects with
  | leaf id =>
      cases h
      simp [LayoutNode.leaves]
  | split o first r₁ second r₂ ih₁ ih₂ =>
      cases o with
      | horizontal =>
          simp only [LayoutNode.computeGeometryAt, Option.bind_eq_bind, Option.bind_eq_some_iff,
            Option.pure_def, Option.some_inj] at h
          obtain ⟨secondCols, hsub, out, hout, secondCol, hadd, rest, hrest, rfl⟩ := h
          obtain ⟨hle, rfl⟩ := checkedSub_eq_some hsub
          obtain ⟨hfst, hbound⟩ := ih₁ hout
          obtain ⟨hfst', hbound'⟩ := ih₂ hrest
          refine ⟨by rw [List.map_append, hfst, hfst', LayoutNode.leaves], fun e he => ?_⟩
          rcases List.mem_append.mp he with he | he
          · have := hbound e he
            omega
          · have := hbound' e he
            omega
      | vertical =>
          simp only [LayoutNode.computeGeometryAt, Option.bind_eq_bind, Option.bind_eq_some_iff,
            Option.pure_def, Option.some_inj] at h
          obtain ⟨secondRows, hsub, out, hout, secondRow, hadd, rest, hrest, rfl⟩ := h
          obtain ⟨hle, rfl⟩ := checkedSub_eq_some hsub
          obtain ⟨hfst, hbound⟩ := ih₁ hout
          obtain ⟨hfst', hbound'⟩ := ih₂ hrest
          refine ⟨by rw [List.map_append, hfst, hfst', LayoutNode.leaves], fun e he => ?_⟩
          rcases List.mem_append.mp he with he | he
          · have := hbound e he
            omega
          · have := hbound' e he
            omega

/-! ## The calls -/

namespace Resizing

/-- The window has the size that the viewports ask for, and each live pane that of its rectangle. -/
def Converged (w : SizedWindow) (s : ResizeState) : Prop :=
  MinimumViewport s.viewports (s.rows, s.cols) ∧
    ∃ rects, w.layout.computeGeometry s.rows s.cols = some rects ∧
      ∀ e ∈ rects, e.1 ∈ w.live → s.size e.1 = (e.2.rows, e.2.cols)

/-- The call has yet to read the viewports. -/
def RecomputePhase.Unread (phase : RecomputePhase) : Prop := phase = .waiting ∨ phase = .locked

/-- The panes that get a rectangle, in the order they are resized. -/
def Resized (w : SizedWindow) (s : ResizeState) (panes : List (Uuid × PtyRect)) : Prop :=
  (s.rows, s.cols) = s.viewports.effectiveSize ∧
    ∃ rects, w.layout.computeGeometry s.rows s.cols = some rects ∧
      panes = rects.filter fun e => decide (e.1 ∈ w.live)

/-- A pane has the size of its rectangle. -/
def Fits (size : Uuid → ℕ × ℕ) (e : Uuid × PtyRect) : Prop := size e.1 = (e.2.rows, e.2.cols)

/-- What a call that read the viewports as they are now has done. -/
def Applied (w : SizedWindow) (s : ResizeState) : RecomputePhase → Prop
  | .waiting | .locked => False
  | .read rows cols => (rows, cols) = s.viewports.effectiveSize
  | .applying rest => ∃ done, Resized w s (done ++ rest) ∧ ∀ e ∈ done, Fits s.size e
  | .storedRows pane cols rest => ∃ done rect, Resized w s (done ++ (pane, rect) :: rest) ∧
      (∀ e ∈ done, Fits s.size e) ∧ (s.size pane).1 = rect.rows ∧ cols = rect.cols

/-- Some call has yet to read the viewports. -/
def Pending (s : ResizeState) : Prop :=
  ∃ call phase, s.calls.lookup call = some phase ∧ RecomputePhase.Unread phase

/-- The viewports as they are now were read, and are applied. -/
def Current (w : SizedWindow) (s : ResizeState) : Prop :=
  match s.lock with
  | none => Converged w s
  | some call => ∃ phase, s.calls.lookup call = some phase ∧ Applied w s phase

structure Converging (w : SizedWindow) (s : ResizeState) : Prop where
  clamped : ViewportsClamped s.viewports
  locked : ∀ call phase, s.calls.lookup call = some phase → phase ≠ .waiting → s.lock = some call
  fresh : Pending s ∨ Current w s

theorem converging_begin {w : SizedWindow} {s s' : ResizeState} {call : ℕ} {viewports : Viewports}
    (hlocked : ∀ call phase, s.calls.lookup call = some phase → phase ≠ .waiting →
      s.lock = some call)
    (hclamped : ViewportsClamped viewports) (h : s.begin call viewports = some s') :
    Converging w s' := by
  unfold ResizeState.begin at h
  split at h
  case isTrue => cases h
  case isFalse hnew =>
      cases h
      refine ⟨hclamped, fun c phase hphase hne => ?_, Or.inl ⟨call, .waiting, ?_, Or.inl rfl⟩⟩
      · by_cases hc : c = call
        · subst hc
          rw [AList.lookup_insert, Option.some_inj] at hphase
          exact absurd hphase.symm hne
        · rw [AList.lookup_insert_ne hc] at hphase
          exact hlocked c phase hphase hne
      · exact AList.lookup_insert _

/-- A call moves on and leaves the lock and the viewports as they are. -/
theorem converging_insert {w : SizedWindow} {s s' : ResizeState} (hs : Converging w s) {call : ℕ}
    {phase phase' : RecomputePhase} (hphase : s.calls.lookup call = some phase)
    (hread : ¬ RecomputePhase.Unread phase) (hcalls : s'.calls = s.calls.insert call phase')
    (hlock : s'.lock = s.lock) (hviewports : s'.viewports = s.viewports)
    (happlied : Applied w s phase → Applied w s' phase') : Converging w s' := by
  have hwait : phase ≠ .waiting := fun h => hread (Or.inl h)
  have hheld : s.lock = some call := hs.locked call phase hphase hwait
  refine ⟨hviewports ▸ hs.clamped, fun c p hp hne => ?_, ?_⟩
  · rw [hcalls] at hp
    rw [hlock]
    by_cases hc : c = call
    · rw [hc, hheld]
    · rw [AList.lookup_insert_ne hc] at hp
      exact hs.locked c p hp hne
  · obtain ⟨c, p, hp, hunread⟩ | hcurrent := hs.fresh
    · left
      refine ⟨c, p, ?_, hunread⟩
      have hc : c ≠ call := by
        rintro rfl
        rw [hphase, Option.some_inj] at hp
        exact hread (hp ▸ hunread)
      rw [hcalls, AList.lookup_insert_ne hc]
      exact hp
    · right
      unfold Current at hcurrent ⊢
      rw [hlock]
      rw [hheld] at hcurrent ⊢
      obtain ⟨p, hp, happ⟩ := hcurrent
      rw [hphase, Option.some_inj] at hp
      subst hp
      refine ⟨phase', ?_, happlied happ⟩
      rw [hcalls]
      exact AList.lookup_insert _

/-! ## The panes -/

/-- INTERNAL: no two of the panes that are resized have one id, and no rectangle is above what
`Pane::resize` clamps to. -/
theorem Resized.spec {w : SizedWindow} {s : ResizeState} (hclamped : ViewportsClamped s.viewports)
    {panes : List (Uuid × PtyRect)} (h : Resized w s panes) :
    (panes.map Prod.fst).Nodup ∧
      ∀ e ∈ panes, e.2.rows ≤ maxPaneRows ∧ e.2.cols ≤ maxPaneCols := by
  obtain ⟨hsize, rects, hrects, rfl⟩ := h
  obtain ⟨hfst, hbound⟩ := computeGeometryAt_spec w.layout hrects
  have hmax := effectiveSize_le_max hclamped
  rw [← hsize] at hmax
  constructor
  · have hnodup : (rects.map Prod.fst).Nodup := hfst ▸ w.nodup
    exact hnodup.sublist (List.filter_sublist.map Prod.fst)
  · intro e he
    have hle := hbound e (List.mem_of_mem_filter he)
    exact ⟨le_trans hle.1 hmax.1, le_trans hle.2 hmax.2⟩

theorem fits_update {panes : List (Uuid × PtyRect)} {size : Uuid → ℕ × ℕ} {pane : Uuid}
    (hpane : pane ∉ panes.map Prod.fst) (h : ∀ e ∈ panes, Fits size e) (value : ℕ × ℕ) :
    ∀ e ∈ panes, Fits (Function.update size pane value) e := by
  intro e he
  have hne : e.1 ≠ pane := by
    rintro rfl
    exact hpane (List.mem_map_of_mem he)
  unfold Fits
  rw [Function.update_of_ne hne]
  exact h e he

theorem notMem_of_nodup {done rest : List (Uuid × PtyRect)} {e : Uuid × PtyRect}
    (h : ((done ++ e :: rest).map Prod.fst).Nodup) : e.1 ∉ done.map Prod.fst := by
  rw [List.map_append, List.map_cons] at h
  intro hmem
  have hdisjoint := (List.nodup_append.mp h).2.2
  exact hdisjoint e.1 hmem e.1 List.mem_cons_self rfl

/-- INTERNAL: a pane that is resized gets the size of its rectangle, and those before it keep
theirs.
SRC: pane.rs:960-992 -/
theorem fits_append {done : List (Uuid × PtyRect)} {e : Uuid × PtyRect}
    {size : Uuid → ℕ × ℕ} (h : ∀ d ∈ done, Fits size d) (he : Fits size e) :
    ∀ d ∈ done ++ [e], Fits size d := by
  intro d hd
  rcases List.mem_append.mp hd with hd | hd
  · exact h d hd
  · rw [List.mem_singleton.mp hd]
    exact he

theorem append_cons_eq (done rest : List (Uuid × PtyRect)) (e : Uuid × PtyRect) :
    done ++ e :: rest = (done ++ [e]) ++ rest := by simp

/-! ## The operations of a call -/

theorem converging_waiting {w : SizedWindow} {s s' : ResizeState} (hs : Converging w s) {call : ℕ}
    (h : s.next w call .waiting = some s') : Converging w s' := by
  simp only [ResizeState.next] at h
  split at h
  case isFalse => cases h
  case isTrue hfree =>
      cases h
      refine ⟨hs.clamped, fun c p hp hne => ?_, Or.inl ⟨call, .locked, ?_, Or.inr rfl⟩⟩
      · by_cases hc : c = call
        · rw [hc]
        · rw [AList.lookup_insert_ne hc] at hp
          have hheld := hs.locked c p hp hne
          rw [hfree] at hheld
          cases hheld
      · exact AList.lookup_insert _

theorem converging_locked {w : SizedWindow} {s s' : ResizeState} (hs : Converging w s) {call : ℕ}
    (hphase : s.calls.lookup call = some .locked) (h : s.next w call .locked = some s') :
    Converging w s' := by
  have hheld : s.lock = some call := hs.locked call _ hphase (by decide)
  cases h
  refine ⟨hs.clamped, fun c p hp hne => ?_, Or.inr ?_⟩
  · by_cases hc : c = call
    · rw [hc]
      exact hheld
    · rw [AList.lookup_insert_ne hc] at hp
      exact hs.locked c p hp hne
  · unfold Current
    simp only [hheld]
    exact ⟨_, AList.lookup_insert _, rfl⟩

theorem converging_read {w : SizedWindow} {s s' : ResizeState} (hs : Converging w s)
    {call rows cols : ℕ} (hphase : s.calls.lookup call = some (.read rows cols))
    (h : s.next w call (.read rows cols) = some s') : Converging w s' := by
  simp only [ResizeState.next, Option.map_eq_some_iff] at h
  obtain ⟨rects, hrects, rfl⟩ := h
  refine converging_insert hs hphase (by simp [RecomputePhase.Unread]) rfl rfl rfl fun hread => ?_
  refine ⟨[], ⟨hread, rects, hrects, rfl⟩, fun e he => ?_⟩
  cases he

theorem converging_applying {w : SizedWindow} {s s' : ResizeState} (hs : Converging w s)
    {call : ℕ} {pane : Uuid} {rect : PtyRect} {rest : List (Uuid × PtyRect)}
    (hphase : s.calls.lookup call = some (.applying ((pane, rect) :: rest)))
    (h : s.next w call (.applying ((pane, rect) :: rest)) = some s') : Converging w s' := by
  simp only [ResizeState.next] at h
  split at h
  case isTrue hsame =>
      cases h
      refine converging_insert hs hphase (by simp [RecomputePhase.Unread]) rfl rfl rfl ?_
      rintro ⟨done, hresized, hdone⟩
      obtain ⟨hrows, hcols⟩ := (hresized.spec hs.clamped).2 (pane, rect) (by simp)
      rw [min_eq_left hrows, min_eq_left hcols] at hsame
      refine ⟨done ++ [(pane, rect)], ?_, fits_append hdone hsame⟩
      rw [← append_cons_eq]
      exact hresized
  case isFalse hdiffers =>
      cases h
      refine converging_insert hs hphase (by simp [RecomputePhase.Unread]) rfl rfl rfl ?_
      rintro ⟨done, hresized, hdone⟩
      obtain ⟨hnodup, hbound⟩ := hresized.spec hs.clamped
      obtain ⟨hrows, hcols⟩ := hbound (pane, rect) (by simp)
      refine ⟨done, rect, hresized, fits_update (notMem_of_nodup hnodup) hdone _, ?_, ?_⟩
      · show (Function.update s.size pane (min rect.rows maxPaneRows, _) pane).1 = rect.rows
        rw [Function.update_self, min_eq_left hrows]
      · exact min_eq_left hcols

theorem converging_storedRows {w : SizedWindow} {s s' : ResizeState} (hs : Converging w s)
    {call : ℕ} {pane : Uuid} {cols : ℕ} {rest : List (Uuid × PtyRect)}
    (hphase : s.calls.lookup call = some (.storedRows pane cols rest))
    (h : s.next w call (.storedRows pane cols rest) = some s') : Converging w s' := by
  cases h
  refine converging_insert hs hphase (by simp [RecomputePhase.Unread]) rfl rfl rfl ?_
  rintro ⟨done, rect, hresized, hdone, hrows, hcols⟩
  obtain ⟨hnodup, hbound⟩ := hresized.spec hs.clamped
  refine ⟨done ++ [(pane, rect)], ?_, ?_⟩
  · rw [← append_cons_eq]
    exact hresized
  · apply fits_append
    · exact fits_update (notMem_of_nodup hnodup) hdone _
    · show Function.update s.size pane ((s.size pane).1, cols) pane = (rect.rows, rect.cols)
      rw [Function.update_self, hrows, hcols]

theorem converged_of_applied {w : SizedWindow} {s : ResizeState} (h : Applied w s (.applying [])) :
    Converged w s := by
  obtain ⟨done, ⟨hsize, rects, hrects, hpanes⟩, hdone⟩ := h
  rw [List.append_nil] at hpanes
  refine ⟨hsize ▸ minimumViewport_effectiveSize s.viewports, rects, hrects, fun e he hlive => ?_⟩
  apply hdone e
  rw [hpanes]
  exact List.mem_filter.mpr ⟨he, decide_eq_true hlive⟩

theorem converging_return {w : SizedWindow} {s s' : ResizeState} (hs : Converging w s)
    {call : ℕ} (hphase : s.calls.lookup call = some (.applying []))
    (h : s.next w call (.applying []) = some s') : Converging w s' := by
  have hheld : s.lock = some call := hs.locked call _ hphase (by decide)
  cases h
  refine ⟨hs.clamped, fun c p hp hne => ?_, ?_⟩
  · by_cases hc : c = call
    · subst hc
      rw [AList.lookup_erase] at hp
      cases hp
    · rw [AList.lookup_erase_ne hc] at hp
      have hother := hs.locked c p hp hne
      rw [hheld, Option.some_inj] at hother
      exact absurd hother.symm hc
  · obtain ⟨c, p, hp, hunread⟩ | hcurrent := hs.fresh
    · left
      refine ⟨c, p, ?_, hunread⟩
      have hc : c ≠ call := by
        rintro rfl
        rw [hphase, Option.some_inj] at hp
        subst hp
        rcases hunread with h | h <;> cases h
      rw [AList.lookup_erase_ne hc]
      exact hp
    · right
      unfold Current at hcurrent
      rw [hheld] at hcurrent
      obtain ⟨p, hp, happlied⟩ := hcurrent
      rw [hphase, Option.some_inj] at hp
      subst hp
      exact converged_of_applied happlied

theorem converging_step {w : SizedWindow} {s s' : ResizeState} {e : ResizeEvent}
    (hs : Converging w s) (h : s.step w e = some s') : Converging w s' := by
  cases e with
  | reportViewport call client rows cols =>
      exact converging_begin hs.locked (viewportsClamped_insert hs.clamped client rows cols) h
  | unregisterViewport call client =>
      exact converging_begin hs.locked (viewportsClamped_remove hs.clamped client) h
  | recompute call => exact converging_begin hs.locked hs.clamped h
  | next call =>
      simp only [ResizeState.step, Option.bind_eq_some_iff] at h
      obtain ⟨phase, hphase, h⟩ := h
      cases phase with
      | waiting => exact converging_waiting hs h
      | locked => exact converging_locked hs hphase h
      | read rows cols => exact converging_read hs hphase h
      | storedRows pane cols rest => exact converging_storedRows hs hphase h
      | applying rest =>
          cases rest with
          | nil => exact converging_return hs hphase h
          | cons e rest => exact converging_applying hs hphase h

/-- No call is in flight. -/
structure Idle (s : ResizeState) : Prop where
  calls : s.calls = ∅
  lock : s.lock = none
  clamped : ViewportsClamped s.viewports

theorem converging_of_idle {w : SizedWindow} {s s' : ResizeState} {e : ResizeEvent} (hs : Idle s)
    (h : s.step w e = some s') : Converging w s' := by
  have hlocked : ∀ call phase, s.calls.lookup call = some phase → phase ≠ .waiting →
      s.lock = some call := by
    intro call phase hphase
    rw [hs.calls] at hphase
    cases hphase
  cases e with
  | reportViewport call client rows cols =>
      exact converging_begin hlocked (viewportsClamped_insert hs.clamped client rows cols) h
  | unregisterViewport call client =>
      exact converging_begin hlocked (viewportsClamped_remove hs.clamped client) h
  | recompute call => exact converging_begin hlocked hs.clamped h
  | next call =>
      simp only [ResizeState.step, hs.calls] at h
      cases h

theorem converged_of_calls {w : SizedWindow} {s : ResizeState} (hs : Converging w s)
    (hcalls : s.calls = ∅) : Converged w s := by
  obtain ⟨call, phase, hphase, _⟩ | hcurrent := hs.fresh
  · rw [hcalls] at hphase
    cases hphase
  · unfold Current at hcurrent
    split at hcurrent
    case h_1 => exact hcurrent
    case h_2 call hlock =>
        obtain ⟨phase, hphase, _⟩ := hcurrent
        rw [hcalls] at hphase
        cases hphase

/-- Two clients report their viewports, and the second call waits while the first applies the
minimum of both. -/
def overlappingReports : List ResizeEvent :=
  [.reportViewport 0 0 40 100, .reportViewport 1 1 20 200, .next 0, .next 0, .next 0, .next 0,
    .next 0, .next 0, .next 1, .next 1, .next 1, .next 1, .next 1]

end Resizing

end Tymux.Analysis
