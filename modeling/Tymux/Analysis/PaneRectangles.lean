import Tymux.Analysis.EngineIndices

/-!
# Panes and their rectangles after a split or a close

`split_pane` and `close_pane` change the layout tree of a window and resize no pane. A split halves
the rectangle of its target and gives the other half to a pane that was spawned with 24x80 cells; a
close gives the rectangle of the split that held the pane to its sibling. So the panes have the size
of their rectangles afterwards only if these rectangles happen to be what they were.
-/

set_option autoImplicit false

namespace Tymux.Analysis.PaneSizes

open Tymux.Model Tymux.Lib LayoutNode

/-! ## Rectangles of subtrees -/

/-- The rectangles of a subtree over the rectangle `r`. -/
def geometryIn (t : LayoutNode) (r : PtyRect) : Option (List (Uuid × PtyRect)) :=
  t.computeGeometryAt r.row r.col r.rows r.cols

/-- The part of `r` for the first child of a split.
SRC: layout.rs:150-183 -/
def firstRect (o : Orientation) (ratio : ℚ) (r : PtyRect) : PtyRect :=
  match o with
  | .horizontal => ⟨r.row, r.col, r.rows, splitExtent r.cols ratio⟩
  | .vertical => ⟨r.row, r.col, splitExtent r.rows ratio, r.cols⟩

/-- The part of `r` for the second child. -/
def secondRect (o : Orientation) (ratio : ℚ) (r : PtyRect) : PtyRect :=
  match o with
  | .horizontal =>
    ⟨r.row, r.col + splitExtent r.cols ratio, r.rows, r.cols - splitExtent r.cols ratio⟩
  | .vertical =>
    ⟨r.row + splitExtent r.rows ratio, r.col, r.rows - splitExtent r.rows ratio, r.cols⟩

/-- The arithmetic of a split of `r` does not panic. -/
def Splits (o : Orientation) (ratio : ℚ) (r : PtyRect) : Prop :=
  match o with
  | .horizontal => splitExtent r.cols ratio ≤ r.cols ∧ r.col + splitExtent r.cols ratio ≤ u16Max
  | .vertical => splitExtent r.rows ratio ≤ r.rows ∧ r.row + splitExtent r.rows ratio ≤ u16Max

/-- The end of the rectangle fits the type of a coordinate. -/
def Fits (r : PtyRect) : Prop := r.row + r.rows ≤ u16Max ∧ r.col + r.cols ≤ u16Max

theorem geometryIn_leaf (id : Uuid) (r : PtyRect) : geometryIn (leaf id) r = some [(id, r)] := rfl

/-- INTERNAL: the rectangles of a split are those of its children over their parts.
SRC: layout.rs:135-185 -/
theorem geometryIn_split {o : Orientation} {first second : LayoutNode} {r₁ r₂ : ℚ} {r : PtyRect}
    {g : List (Uuid × PtyRect)} :
    geometryIn (split o first r₁ second r₂) r = some g ↔
      Splits o r₁ r ∧ ∃ g₁ g₂, geometryIn first (firstRect o r₁ r) = some g₁ ∧
        geometryIn second (secondRect o r₁ r) = some g₂ ∧ g = g₁ ++ g₂ := by
  cases o with
  | horizontal =>
      simp only [geometryIn, computeGeometryAt, Option.bind_eq_bind, Option.bind_eq_some_iff,
        checkedAdd, Splits, firstRect, secondRect]
      constructor
      · rintro ⟨secondCols, hsub, g₁, hg₁, secondCol, hcol, g₂, hg₂, heq⟩
        obtain ⟨hle, rfl⟩ := checkedSub_eq_some hsub
        split_ifs at hcol with hfits
        cases hcol
        exact ⟨⟨hle, hfits⟩, g₁, g₂, hg₁, hg₂, (Option.some_inj.mp heq).symm⟩
      · rintro ⟨⟨hle, hfits⟩, g₁, g₂, hg₁, hg₂, rfl⟩
        exact ⟨_, checkedSub_of_le hle, g₁, hg₁, _, if_pos hfits, g₂, hg₂, rfl⟩
  | vertical =>
      simp only [geometryIn, computeGeometryAt, Option.bind_eq_bind, Option.bind_eq_some_iff,
        checkedAdd, Splits, firstRect, secondRect]
      constructor
      · rintro ⟨secondRows, hsub, g₁, hg₁, secondRow, hrow, g₂, hg₂, heq⟩
        obtain ⟨hle, rfl⟩ := checkedSub_eq_some hsub
        split_ifs at hrow with hfits
        cases hrow
        exact ⟨⟨hle, hfits⟩, g₁, g₂, hg₁, hg₂, (Option.some_inj.mp heq).symm⟩
      · rintro ⟨⟨hle, hfits⟩, g₁, g₂, hg₁, hg₂, rfl⟩
        exact ⟨_, checkedSub_of_le hle, g₁, hg₁, _, if_pos hfits, g₂, hg₂, rfl⟩

theorem map_fst_geometryIn {t : LayoutNode} {r : PtyRect} {g : List (Uuid × PtyRect)}
    (h : geometryIn t r = some g) : g.map Prod.fst = t.leaves := by
  induction t generalizing r g with
  | leaf id =>
      cases h
      rfl
  | split o first r₁ second r₂ ih₁ ih₂ =>
      obtain ⟨-, g₁, g₂, hg₁, hg₂, rfl⟩ := geometryIn_split.mp h
      rw [List.map_append, ih₁ hg₁, ih₂ hg₂]
      rfl

theorem fits_parts {o : Orientation} {ratio : ℚ} {r : PtyRect} (hr : Fits r)
    (hs : Splits o ratio r) : Fits (firstRect o ratio r) ∧ Fits (secondRect o ratio r) := by
  unfold Fits at hr ⊢
  cases o with
  | horizontal =>
      unfold Splits at hs
      simp only [firstRect, secondRect]
      omega
  | vertical =>
      unfold Splits at hs
      simp only [firstRect, secondRect]
      omega

/-! ## A split -/

/-- The sizes of the two halves of a rectangle. -/
theorem splits_half {o : Orientation} {r : PtyRect} (hr : Fits r) : Splits o (1 / 2) r := by
  unfold Fits at hr
  cases o with
  | horizontal =>
      have hhalf : splitExtent r.cols (1 / 2) = r.cols / 2 := splitExtent_half (by omega)
      simp only [Splits, hhalf]
      omega
  | vertical =>
      have hhalf : splitExtent r.rows (1 / 2) = r.rows / 2 := splitExtent_half (by omega)
      simp only [Splits, hhalf]
      omega

/-- INTERNAL: a split changes the rectangle of its target alone, and the new pane gets the other
half of it.
SRC: layout.rs:236-239 -/
theorem geometryIn_graft (target newPane : Uuid) (o : Orientation) {t : LayoutNode} {r : PtyRect}
    {g : List (Uuid × PtyRect)} (hr : Fits r) (hd : t.leaves.Nodup) (hmem : target ∈ t.leaves)
    (hg : geometryIn t r = some g) :
    ∃ before after rect, g = before ++ (target, rect) :: after ∧ Fits rect ∧
      geometryIn (graft target (halves o newPane) t) r =
        some (before ++ (target, firstRect o (1 / 2) rect) ::
          (newPane, secondRect o (1 / 2) rect) :: after) := by
  induction t generalizing r g with
  | leaf id =>
      obtain rfl : target = id := by simpa [leaves] using hmem
      cases hg
      refine ⟨[], [], r, rfl, hr, ?_⟩
      rw [graft, if_pos rfl]
      exact geometryIn_split.mpr ⟨splits_half hr, _, _, rfl, rfl, rfl⟩
  | split o' first r₁ second r₂ ih₁ ih₂ =>
      obtain ⟨hsplits, g₁, g₂, hg₁, hg₂, rfl⟩ := geometryIn_split.mp hg
      obtain ⟨hfits₁, hfits₂⟩ := fits_parts hr hsplits
      simp only [leaves, List.nodup_append] at hd
      obtain ⟨hd₁, hd₂, hdis⟩ := hd
      rw [graft]
      by_cases hfirst : target ∈ first.leaves
      · have hsecond : target ∉ second.leaves := fun h => hdis target hfirst target h rfl
        obtain ⟨before, after, rect, rfl, hrect, hgraft⟩ := ih₁ hfits₁ hd₁ hfirst hg₁
        refine ⟨before, after ++ g₂, rect, by simp, hrect, ?_⟩
        rw [graft_of_notMem target _ second hsecond]
        exact geometryIn_split.mpr ⟨hsplits, _, _, hgraft, hg₂, by simp⟩
      · have hsecond : target ∈ second.leaves := by
          rcases List.mem_append.mp hmem with h | h
          · exact absurd h hfirst
          · exact h
        obtain ⟨before, after, rect, rfl, hrect, hgraft⟩ := ih₂ hfits₂ hd₂ hsecond hg₂
        refine ⟨g₁ ++ before, after, rect, by simp, hrect, ?_⟩
        rw [graft_of_notMem target _ first hfirst]
        exact geometryIn_split.mpr ⟨hsplits, _, _, hg₁, hgraft, by simp⟩

/-- INTERNAL: a split that succeeds leaves its target a smaller rectangle.
SRC: layout.rs:205-232 -/
theorem split?_shrinks {t t' : LayoutNode} {target newPane : Uuid} {o : Orientation} {rows cols : ℕ}
    {g : List (Uuid × PtyRect)} {rect : PtyRect} (hd : t.leaves.Nodup)
    (h : t.split? target o newPane rows cols = some (.ok t'))
    (hg : t.computeGeometry rows cols = some g) (hmem : (target, rect) ∈ g) (hrect : Fits rect) :
    ¬ (rect.rows = (firstRect o (1 / 2) rect).rows ∧ rect.cols = (firstRect o (1 / 2) rect).cols) := by
  have hfst : g.map Prod.fst = t.leaves := map_fst_geometryIn (r := ⟨0, 0, rows, cols⟩) hg
  unfold LayoutNode.split? at h
  split at h
  case isTrue => cases h
  case isFalse =>
      simp only [Option.bind_eq_bind, Option.bind_eq_some_iff] at h
      obtain ⟨g', hg', ⟨id, found⟩, hfound, h⟩ := h
      rw [hg, Option.some_inj] at hg'
      subst hg'
      have hid : id = target := by simpa using List.find?_some hfound
      subst hid
      have hsame : found = rect := by
        have hinj := List.inj_on_of_nodup_map (by rw [hfst]; exact hd)
          (List.mem_of_find?_eq_some hfound) hmem rfl
        exact (Prod.mk.injEq .. ▸ hinj).2
      subst hsame
      unfold Fits at hrect
      split_ifs at h with hmin hrec
      · cases h
      · cases h
      cases o with
      | horizontal =>
          have hhalf : splitExtent found.cols (1 / 2) = found.cols / 2 := splitExtent_half (by omega)
          simp only [firstRect, hhalf]
          simp only [minPaneRows, minPaneCols] at hmin
          omega
      | vertical =>
          have hhalf : splitExtent found.rows (1 / 2) = found.rows / 2 := splitExtent_half (by omega)
          simp only [firstRect, hhalf]
          simp only [minPaneRows, minPaneCols] at hmin
          omega

/-! ## A close -/

/-- The subtree beside the leaf of the pane, its rectangle, and the rectangle of both.
SRC: layout.rs:243-298 -/
def sibling (pane : Uuid) : LayoutNode → PtyRect → Option (LayoutNode × PtyRect × PtyRect)
  | leaf _, _ => none
  | split o first r₁ second _, r =>
    if first = leaf pane then some (second, secondRect o r₁ r, r)
    else if second = leaf pane then some (first, firstRect o r₁ r, r)
    else if first.contains pane then sibling pane first (firstRect o r₁ r)
    else sibling pane second (secondRect o r₁ r)

/-- The rectangles after the pane is removed: those of its sibling change, all others stay. -/
structure Removal (pane : Uuid) (t t' : LayoutNode) (r : PtyRect) (g : List (Uuid × PtyRect))
    (beside : LayoutNode) (own whole : PtyRect) : Prop where
  found : sibling pane t r = some (beside, own, whole)
  geometry : ∃ rest mine rect, geometryIn beside own = some mine ∧
    g.Perm ((pane, rect) :: (mine ++ rest)) ∧
    ∀ g', geometryIn t' r = some g' → ∃ mine', geometryIn beside whole = some mine' ∧
      g'.Perm (mine' ++ rest)
  computes : ∀ mine', geometryIn beside whole = some mine' → ∃ g', geometryIn t' r = some g'

theorem contains_false {t : LayoutNode} {id : Uuid} (h : id ∉ t.leaves) : t.contains id = false := by
  rw [Bool.eq_false_iff, ne_eq, contains_iff]
  exact h

/-- INTERNAL: the sibling of the removed pane takes the rectangle of both.
SRC: layout.rs:243-298 -/
theorem removal_of_remove {pane : Uuid} {t t' : LayoutNode} {r : PtyRect}
    {g : List (Uuid × PtyRect)} (hd : t.leaves.Nodup) (hmem : pane ∈ t.leaves)
    (hremove : t.remove pane = .collapsed t') (hg : geometryIn t r = some g) :
    ∃ beside own whole, Removal pane t t' r g beside own whole := by
  induction t generalizing t' r g with
  | leaf id =>
      obtain rfl : pane = id := by simpa [leaves] using hmem
      rw [remove, if_pos rfl] at hremove
      cases hremove
  | split o first r₁ second r₂ ih₁ ih₂ =>
      obtain ⟨hsplits, g₁, g₂, hg₁, hg₂, rfl⟩ := geometryIn_split.mp hg
      simp only [leaves, List.nodup_append] at hd
      obtain ⟨hd₁, hd₂, hdis⟩ := hd
      by_cases hfirst : pane ∈ first.leaves
      · have hsecond : pane ∉ second.leaves := fun h => hdis pane hfirst pane h rfl
        have hnot : second ≠ leaf pane := by
          rintro rfl
          exact hsecond List.mem_cons_self
        obtain ⟨rfl, -⟩ | ⟨t₁, hcollapsed, -⟩ := remove_cases first hd₁ pane
        · -- the first child is the pane itself
          have ht' : t' = second := by
            simpa [remove, contains, isLeaf, eq_comm] using hremove
          subst ht'
          refine ⟨t', secondRect o r₁ r, r, ?_, ?_, ?_⟩
          · simp [sibling]
          · refine ⟨[], g₂, firstRect o r₁ r, hg₂, ?_, ?_⟩
            · cases hg₁
              simp
            · intro g' hg'
              exact ⟨g', hg', by simp⟩
          · intro mine' hmine'
            exact ⟨mine', hmine'⟩
        · have hleaf : first ≠ leaf pane := by
            rintro rfl
            simp [remove] at hcollapsed
          have hisLeaf : first.isLeaf = false := by
            cases first with
            | leaf id =>
                obtain rfl : pane = id := by simpa [leaves] using hfirst
                exact absurd rfl hleaf
            | split => rfl
          have ht' : t' = split o t₁ r₁ second r₂ := by
            simpa [remove, (contains_iff first pane).mpr hfirst, contains_false hsecond, hisLeaf,
              hcollapsed, eq_comm] using hremove
          subst ht'
          obtain ⟨beside, own, whole, hfound, ⟨rest, mine, rect, hmine, hperm, hall⟩, hcomputes⟩ :=
            ih₁ hd₁ hfirst hcollapsed hg₁
          refine ⟨beside, own, whole, ?_, ?_, ?_⟩
          · simp [sibling, hleaf, hnot, (contains_iff first pane).mpr hfirst, hfound]
          · refine ⟨rest ++ g₂, mine, rect, hmine, ?_, ?_⟩
            · have happend := hperm.append_right g₂
              simpa using happend
            · intro g' hg'
              obtain ⟨-, g₁', g₂', hg₁', hg₂', rfl⟩ := geometryIn_split.mp hg'
              rw [hg₂, Option.some_inj] at hg₂'
              subst hg₂'
              obtain ⟨mine', hmine', hperm'⟩ := hall g₁' hg₁'
              refine ⟨mine', hmine', ?_⟩
              have happend := hperm'.append_right g₂
              simpa using happend
          · intro mine' hmine'
            obtain ⟨g₁', hg₁'⟩ := hcomputes mine' hmine'
            exact ⟨_, geometryIn_split.mpr ⟨hsplits, g₁', g₂, hg₁', hg₂, rfl⟩⟩
      · have hsecond : pane ∈ second.leaves := by
          rcases List.mem_append.mp hmem with h | h
          · exact absurd h hfirst
          · exact h
        have hnot : first ≠ leaf pane := by
          rintro rfl
          exact hfirst List.mem_cons_self
        obtain ⟨rfl, -⟩ | ⟨t₂, hcollapsed, -⟩ := remove_cases second hd₂ pane
        · -- the second child is the pane itself
          have ht' : t' = first := by
            simpa [remove, contains, isLeaf, contains_false hfirst, eq_comm] using hremove
          subst ht'
          refine ⟨t', firstRect o r₁ r, r, ?_, ?_, ?_⟩
          · simp [sibling, hnot]
          · refine ⟨[], g₁, secondRect o r₁ r, hg₁, ?_, ?_⟩
            · cases hg₂
              simp only [List.append_nil]
              exact List.perm_append_comm
            · intro g' hg'
              exact ⟨g', hg', by simp⟩
          · intro mine' hmine'
            exact ⟨mine', hmine'⟩
        · have hleaf : second ≠ leaf pane := by
            rintro rfl
            simp [remove] at hcollapsed
          have hisLeaf : second.isLeaf = false := by
            cases second with
            | leaf id =>
                obtain rfl : pane = id := by simpa [leaves] using hsecond
                exact absurd rfl hleaf
            | split => rfl
          have ht' : t' = split o first r₁ t₂ r₂ := by
            simpa [remove, (contains_iff second pane).mpr hsecond, contains_false hfirst, hisLeaf,
              hcollapsed, eq_comm] using hremove
          subst ht'
          obtain ⟨beside, own, whole, hfound, ⟨rest, mine, rect, hmine, hperm, hall⟩, hcomputes⟩ :=
            ih₂ hd₂ hsecond hcollapsed hg₂
          refine ⟨beside, own, whole, ?_, ?_, ?_⟩
          · simp [sibling, hleaf, hnot, contains_false hfirst, hfound]
          · refine ⟨g₁ ++ rest, mine, rect, hmine, ?_, ?_⟩
            · have happend := hperm.append_left g₁
              refine happend.trans (List.perm_middle.trans (List.Perm.cons _ ?_))
              rw [← List.append_assoc, ← List.append_assoc]
              exact List.perm_append_comm.append_right rest
            · intro g' hg'
              obtain ⟨-, g₁', g₂', hg₁', hg₂', rfl⟩ := geometryIn_split.mp hg'
              rw [hg₁, Option.some_inj] at hg₁'
              subst hg₁'
              obtain ⟨mine', hmine', hperm'⟩ := hall g₂' hg₂'
              refine ⟨mine', hmine', (hperm'.append_left g₁).trans ?_⟩
              rw [← List.append_assoc, ← List.append_assoc]
              exact List.perm_append_comm.append_right rest
          · intro mine' hmine'
            obtain ⟨g₂', hg₂'⟩ := hcomputes mine' hmine'
            exact ⟨_, geometryIn_split.mpr ⟨hsplits, g₁, g₂', hg₁, hg₂', rfl⟩⟩

/-! ## The windows of the engine -/

section Windows

open Calls

/-- Each live pane of the window has the size of its rectangle. -/
def Fitted (panes : AList fun _ : Uuid => HeldPane) (w : NamedWindow) : Prop :=
  ∃ g, w.layout.computeGeometry w.rows w.cols = some g ∧
    ∀ p rect, (p, rect) ∈ g → ∀ addr rows cols, panes.lookup p = some (.live addr rows cols) →
      rows = rect.rows ∧ cols = rect.cols

/-- The window, if there is one with the id, is fitted. -/
def Matched (s : Engine) (window : Uuid) : Prop :=
  ∀ sid st, s.sessions.lookup sid = some st → ∀ w ∈ st.windows, w.id = window → Fitted s.panes w

/-- The size of every window fits its type. -/
def Sized (s : Engine) : Prop :=
  ∀ sid st, s.sessions.lookup sid = some st → ∀ w ∈ st.windows, w.rows ≤ u16Max ∧ w.cols ≤ u16Max

variable {s s' : Engine} {sid : Uuid} {st st' : NamedSession} {w w' : NamedWindow}

theorem eq_of_id_eq (hids : (st.windows.map NamedWindow.id).Nodup) (hw : w ∈ st.windows)
    (hw' : w' ∈ st.windows) (hid : w'.id = w.id) : w' = w :=
  List.inj_on_of_nodup_map hids hw' hw hid

/-- The session of a window is the only one that has its id. -/
theorem session_of_window (hs : Indexed s) (hst : s.sessions.lookup sid = some st)
    (hw : w ∈ st.windows) {sid' : Uuid} (hst' : s.sessions.lookup sid' = some st')
    (hmem : w.id ∈ st'.windows.map NamedWindow.id) : sid' = sid := by
  have h := (hs.windowSession.lookup _ _).mpr
    (mem_windowPlaces.mpr ⟨st, hst, List.mem_map_of_mem hw⟩)
  have h' := (hs.windowSession.lookup _ _).mpr (mem_windowPlaces.mpr ⟨st', hst', hmem⟩)
  rw [h, Option.some_inj] at h'
  exact h'.symm

/-- INTERNAL: after a change of its session the window with the id is the one of the new session. -/
theorem matched_insert (hs : Indexed s) (hst : s.sessions.lookup sid = some st)
    (hw : w ∈ st.windows) (hsessions : s'.sessions = s.sessions.insert sid st')
    (hids : (st'.windows.map NamedWindow.id).Nodup) (hw' : w' ∈ st'.windows) (hid : w'.id = w.id) :
    Matched s' w.id ↔ Fitted s'.panes w' := by
  constructor
  · intro h
    refine h sid st' ?_ w' hw' hid
    rw [hsessions]
    exact AList.lookup_insert _
  · intro h sid₂ st₂ hst₂ w₂ hw₂ hid₂
    rw [hsessions] at hst₂
    by_cases hsid : sid₂ = sid
    · subst hsid
      rw [AList.lookup_insert, Option.some_inj] at hst₂
      subst hst₂
      rw [eq_of_id_eq hids hw' hw₂ (hid₂.trans hid.symm)]
      exact h
    · rw [AList.lookup_insert_ne hsid] at hst₂
      have hmem : w.id ∈ st₂.windows.map NamedWindow.id := hid₂ ▸ List.mem_map_of_mem hw₂
      exact absurd (session_of_window hs hst hw hst₂ hmem) hsid

/-- INTERNAL: a window that is gone is matched. -/
theorem matched_of_gone (hs : Indexed s) (hst : s.sessions.lookup sid = some st)
    (hw : w ∈ st.windows)
    (hothers : ∀ sid' st', sid' ≠ sid → s'.sessions.lookup sid' = some st' →
      s.sessions.lookup sid' = some st')
    (hgone : ∀ st', s'.sessions.lookup sid = some st' → w.id ∉ st'.windows.map NamedWindow.id) :
    Matched s' w.id := by
  intro sid₂ st₂ hst₂ w₂ hw₂ hid₂
  have hmem : w.id ∈ st₂.windows.map NamedWindow.id := hid₂ ▸ List.mem_map_of_mem hw₂
  by_cases hsid : sid₂ = sid
  · subst hsid
    exact absurd hmem (hgone st₂ hst₂)
  · exact absurd (session_of_window hs hst hw (hothers sid₂ st₂ hsid hst₂) hmem) hsid

/-! ## The two calls -/

/-- The calls that change the layout tree of a window. `tymuxd` forwards its RPC of the same name to
them and does nothing about sizes on its own.
SRC: main.rs:1093-1146 -/
inductive StructuralCall where
  | splitPane (target : Uuid) (orientation : Orientation) (env : LaunchEnv)
  | closePane (pane : Uuid)

namespace StructuralCall

def toCall : StructuralCall → EngineCall
  | .splitPane target orientation env => .splitPane target orientation env
  | .closePane pane => .closePane pane

/-- The pane that the call names. -/
def pane : StructuralCall → Uuid
  | .splitPane target _ _ => target
  | .closePane pane => pane

end StructuralCall

/-- The rectangle of the whole window. -/
def windowRect (w : NamedWindow) : PtyRect := ⟨0, 0, w.rows, w.cols⟩

/-- For a split: its target has no pane object, and the half for the new pane is 24x80. For a close:
the pane is the last one of its window, or every live pane of its sibling has the same size when the
sibling is laid out over the rectangle of both. -/
def Unresized (s : Engine) (w : NamedWindow) : StructuralCall → Prop
  | .splitPane target orientation _ =>
    (∀ addr rows cols, s.panes.lookup target ≠ some (.live addr rows cols)) ∧
      ∀ g rect, geometryIn w.layout (windowRect w) = some g → (target, rect) ∈ g →
        (secondRect orientation (1 / 2) rect).rows = defaultRows ∧
          (secondRect orientation (1 / 2) rect).cols = defaultCols
  | .closePane pane =>
    ∀ beside own whole, sibling pane w.layout (windowRect w) = some (beside, own, whole) →
      ∃ mine, geometryIn beside whole = some mine ∧
        ∀ p rect, (p, rect) ∈ mine → (∃ addr rows cols, s.panes.lookup p = some (.live addr rows cols)) →
          ∀ g rect', geometryIn beside own = some g → (p, rect') ∈ g →
            rect'.rows = rect.rows ∧ rect'.cols = rect.cols

/-- INTERNAL: the window of the target is split, in its place. -/
theorem splitWindow_window {target pane : Uuid} {o : Orientation} {ws ws' : List NamedWindow}
    (hids : (ws.map NamedWindow.id).Nodup) (hw : w ∈ ws)
    (h : Engine.splitWindow target o pane w.id ws = some (.ok ws')) :
    ∃ layout, w.layout.split? target o pane w.rows w.cols = some (.ok layout) ∧
      { w with layout } ∈ ws' := by
  induction ws generalizing ws' with
  | nil => cases hw
  | cons v ws ih =>
      obtain ⟨hfresh, hids⟩ := List.nodup_cons.mp hids
      unfold Engine.splitWindow at h
      rcases List.mem_cons.mp hw with rfl | hw
      · rw [if_pos rfl] at h
        obtain ⟨r, hr, h⟩ := Option.bind_eq_some_iff.mp h
        cases r with
        | error e => cases h
        | ok layout =>
            cases h
            exact ⟨layout, hr, List.mem_cons_self⟩
      · have hne : v.id ≠ w.id := by
          intro heq
          exact hfresh (heq ▸ List.mem_map_of_mem hw)
        rw [if_neg hne] at h
        obtain ⟨r, hr, h⟩ := Option.bind_eq_some_iff.mp h
        cases r with
        | error e => cases h
        | ok rest =>
            cases h
            obtain ⟨layout, hlayout, hmem⟩ := ih hids hw hr
            exact ⟨layout, hlayout, List.mem_cons_of_mem _ hmem⟩

/-- INTERNAL: the window of the pane is changed in its place, or gone. -/
theorem closeWindow_window {pane : Uuid} {ws ws' : List NamedWindow} {closed : Option Uuid}
    (hids : (ws.map NamedWindow.id).Nodup) (hw : w ∈ ws)
    (h : RecordState.closeWindow pane w.id ws = some (ws', closed)) :
    (w.layout.remove pane = .windowEmpty ∧ closed = some w.id) ∨
      ∃ layout, w.layout.remove pane = .collapsed layout ∧ { w with layout } ∈ ws' ∧
        closed = none := by
  induction ws generalizing ws' with
  | nil => cases hw
  | cons v ws ih =>
      obtain ⟨hfresh, hids⟩ := List.nodup_cons.mp hids
      unfold RecordState.closeWindow at h
      rcases List.mem_cons.mp hw with rfl | hw
      · rw [if_pos rfl] at h
        split at h
        case h_1 layout hremove =>
            cases h
            exact Or.inr ⟨layout, hremove, List.mem_cons_self, rfl⟩
        case h_2 hremove =>
            cases h
            exact Or.inl ⟨hremove, rfl⟩
      · have hne : v.id ≠ w.id := by
          intro heq
          exact hfresh (heq ▸ List.mem_map_of_mem hw)
        rw [if_neg hne] at h
        obtain ⟨⟨rest, closed'⟩, hrest, heq⟩ := Option.map_eq_some_iff.mp h
        cases heq
        obtain hgone | ⟨layout, hlayout, hmem, hclosed⟩ := ih hids hw hrest
        · exact Or.inl hgone
        · exact Or.inr ⟨layout, hlayout, List.mem_cons_of_mem _ hmem, hclosed⟩

theorem windowAndSessionForPane_of_leaf (hs : Indexed s) (hst : s.sessions.lookup sid = some st)
    (hw : w ∈ st.windows) {pane : Uuid} (hleaf : pane ∈ w.layout.leaves) :
    s.windowAndSessionForPane pane = .ok (w.id, sid) := by
  have hwindow := (hs.paneWindow.lookup _ _).mpr
    (mem_panePlaces.mpr ⟨sid, st, hst, mem_places.mpr ⟨w, hw, rfl, hleaf⟩⟩)
  have hsession := (hs.windowSession.lookup _ _).mpr
    (mem_windowPlaces.mpr ⟨st, hst, List.mem_map_of_mem hw⟩)
  unfold Engine.windowAndSessionForPane
  rw [hwindow]
  dsimp only
  rw [hsession]

theorem fits_windowRect (hs : Sized s) (hst : s.sessions.lookup sid = some st) (hw : w ∈ st.windows) :
    Fits (windowRect w) := by
  obtain ⟨hrows, hcols⟩ := hs sid st hst w hw
  exact ⟨by simpa [windowRect] using hrows, by simpa [windowRect] using hcols⟩

/-- INTERNAL: the panes of a window that is split are fitted when only the new one is live in the
rectangle that was halved, and has the size of its half. -/
theorem fitted_split_iff {panes : AList fun _ : Uuid => HeldPane} {target newPane : Uuid}
    {o : Orientation} {layout : LayoutNode} {addr : ℕ} (hfits : Fits (windowRect w))
    (hd : w.layout.leaves.Nodup) (hnew : newPane ∉ w.layout.leaves)
    (hsplit : w.layout.split? target o newPane w.rows w.cols = some (.ok layout))
    (hfitted : Fitted panes w) :
    Fitted (panes.insert newPane (.live addr defaultRows defaultCols)) { w with layout } ↔
      (∀ addr rows cols, panes.lookup target ≠ some (.live addr rows cols)) ∧
        ∀ g rect, geometryIn w.layout (windowRect w) = some g → (target, rect) ∈ g →
          (secondRect o (1 / 2) rect).rows = defaultRows ∧
            (secondRect o (1 / 2) rect).cols = defaultCols := by
  obtain ⟨g, hg, hsizes⟩ := hfitted
  obtain ⟨hmem, rfl⟩ := split?_ok hd hsplit
  obtain ⟨before, after, rect, rfl, hrect, hgraft⟩ :=
    geometryIn_graft target newPane o hfits hd hmem hg
  have htarget : (target, rect) ∈ before ++ (target, rect) :: after :=
    List.mem_append_right _ List.mem_cons_self
  have hshrinks := split?_shrinks hd hsplit hg htarget hrect
  have hold : ∀ p r, (p, r) ∈ before ++ (target, rect) :: after → p ≠ newPane := by
    rintro p r hp rfl
    apply hnew
    rw [← map_fst_geometryIn (r := windowRect w) hg]
    exact List.mem_map_of_mem hp
  have hunique : ∀ r, (target, r) ∈ before ++ (target, rect) :: after → r = rect := by
    intro r hr
    have hfst := map_fst_geometryIn (r := windowRect w) hg
    have hinj := List.inj_on_of_nodup_map (by rw [hfst]; exact hd) hr htarget rfl
    exact (Prod.mk.injEq .. ▸ hinj).2
  constructor
  · rintro ⟨g', hg', hsizes'⟩
    cases hgraft.symm.trans hg'
    constructor
    · intro addr' rows cols hlive
      have hsize := hsizes target rect htarget addr' rows cols hlive
      have hsize' := hsizes' target _ (List.mem_append_right _ List.mem_cons_self) addr' rows cols
        (by rw [AList.lookup_insert_ne (hold target rect htarget)]; exact hlive)
      exact hshrinks ⟨hsize.1.symm.trans hsize'.1, hsize.2.symm.trans hsize'.2⟩
    · intro g₂ r hg₂ hr
      cases hg.symm.trans hg₂
      rw [hunique r hr]
      have hsize := hsizes' newPane _ (List.mem_append_right _
        (List.mem_cons_of_mem _ List.mem_cons_self)) addr _ _ (AList.lookup_insert _)
      exact ⟨hsize.1.symm, hsize.2.symm⟩
  · rintro ⟨hdead, hhalf⟩
    refine ⟨_, hgraft, ?_⟩
    have hrest : ∀ p r, (p, r) ∈ before ++ (target, rect) :: after → ∀ addr' rows cols,
        (panes.insert newPane (.live addr defaultRows defaultCols)).lookup p =
          some (.live addr' rows cols) → rows = r.rows ∧ cols = r.cols := by
      intro p r hp addr' rows cols hlive
      rw [AList.lookup_insert_ne (hold p r hp)] at hlive
      exact hsizes p r hp addr' rows cols hlive
    intro p r hp addr' rows cols hlive
    rcases List.mem_append.mp hp with hp | hp
    · exact hrest p r (List.mem_append_left _ hp) addr' rows cols hlive
    rcases List.mem_cons.mp hp with heq | hp
    · cases heq
      rw [AList.lookup_insert_ne (hold target rect htarget)] at hlive
      exact absurd hlive (hdead addr' rows cols)
    rcases List.mem_cons.mp hp with heq | hp
    · cases heq
      rw [AList.lookup_insert, Option.some_inj] at hlive
      cases hlive
      obtain ⟨hrows, hcols⟩ := hhalf _ rect hg htarget
      exact ⟨hrows.symm, hcols.symm⟩
    · exact hrest p r (List.mem_append_right _ (List.mem_cons_of_mem _ hp)) addr' rows cols hlive

/-- INTERNAL: the panes that remain in a window are fitted when the live ones beside the removed pane
keep their size. -/
theorem fitted_remove_iff {panes : AList fun _ : Uuid => HeldPane} {pane : Uuid}
    {layout : LayoutNode} (hd : w.layout.leaves.Nodup) (hmem : pane ∈ w.layout.leaves)
    (hremove : w.layout.remove pane = .collapsed layout) (hfitted : Fitted panes w) :
    Fitted (panes.erase pane) { w with layout } ↔
      ∀ beside own whole, sibling pane w.layout (windowRect w) = some (beside, own, whole) →
        ∃ mine, geometryIn beside whole = some mine ∧
          ∀ p rect, (p, rect) ∈ mine →
            (∃ addr rows cols, panes.lookup p = some (.live addr rows cols)) →
            ∀ g rect', geometryIn beside own = some g → (p, rect') ∈ g →
              rect'.rows = rect.rows ∧ rect'.cols = rect.cols := by
  obtain ⟨g, hg, hsizes⟩ := hfitted
  obtain ⟨beside, own, whole, hfound, ⟨rest, mine, rect₀, hmine, hperm, hall⟩, hcomputes⟩ :=
    removal_of_remove (r := windowRect w) hd hmem hremove hg
  have hfst := map_fst_geometryIn (r := windowRect w) hg
  have hnodup : (((pane, rect₀) :: (mine ++ rest)).map Prod.fst).Nodup := by
    rw [← (hperm.map Prod.fst).nodup_iff, hfst]
    exact hd
  have hne : ∀ p r, (p, r) ∈ mine ++ rest → p ≠ pane := by
    rintro p r hp rfl
    exact (List.nodup_cons.mp hnodup).1 (List.mem_map.mpr ⟨(p, r), hp, rfl⟩)
  have hkept : ∀ p r, (p, r) ∈ mine ++ rest → ∀ addr rows cols,
      panes.lookup p = some (.live addr rows cols) → rows = r.rows ∧ cols = r.cols := by
    intro p r hp addr rows cols hlive
    exact hsizes p r (hperm.mem_iff.mpr (List.mem_cons_of_mem _ hp)) addr rows cols hlive
  constructor
  · rintro ⟨g', hg', hsizes'⟩ beside' own' whole' hfound'
    cases hfound.symm.trans hfound'
    obtain ⟨mine', hmine', hperm'⟩ := hall g' hg'
    refine ⟨mine', hmine', ?_⟩
    rintro p r hp ⟨addr, rows, cols, hlive⟩ g₂ r' hg₂ hr'
    cases hmine.symm.trans hg₂
    have hin : (p, r') ∈ mine ++ rest := List.mem_append_left _ hr'
    have hbefore := hkept p r' hin addr rows cols hlive
    have hafter := hsizes' p r (hperm'.mem_iff.mpr (List.mem_append_left _ hp)) addr rows cols
      (by rw [AList.lookup_erase_ne (hne p r' hin)]; exact hlive)
    exact ⟨hbefore.1.symm.trans hafter.1, hbefore.2.symm.trans hafter.2⟩
  · intro hkeeps
    obtain ⟨mine', hmine', hsame⟩ := hkeeps beside own whole hfound
    obtain ⟨g', hg'⟩ := hcomputes mine' hmine'
    obtain ⟨mine'', hmine'', hperm'⟩ := hall g' hg'
    cases hmine'.symm.trans hmine''
    refine ⟨g', hg', ?_⟩
    intro p r hp addr rows cols hlive
    rcases List.mem_append.mp (hperm'.mem_iff.mp hp) with hbeside | hrest
    · -- the pane has a rectangle in the sibling as it was, too
      have hleaf : p ∈ mine.map Prod.fst := by
        rw [map_fst_geometryIn hmine, ← map_fst_geometryIn hmine']
        exact List.mem_map_of_mem hbeside
      obtain ⟨⟨q, r'⟩, hr', rfl⟩ := List.mem_map.mp hleaf
      have hin : (q, r') ∈ mine ++ rest := List.mem_append_left _ hr'
      rw [AList.lookup_erase_ne (hne q r' hin)] at hlive
      have hbefore := hkept q r' hin addr rows cols hlive
      have hsize := hsame q r hbeside ⟨addr, rows, cols, hlive⟩ mine r' hmine hr'
      exact ⟨hbefore.1.trans hsize.1, hbefore.2.trans hsize.2⟩
    · have hin : (p, r) ∈ mine ++ rest := List.mem_append_right _ hrest
      rw [AList.lookup_erase_ne (hne p r hin)] at hlive
      exact hkept p r hin addr rows cols hlive

variable (delayMs : RestartPolicy → ℕ → F64 → ℕ)

/-- INTERNAL: the state after a split that succeeds.
SRC: engine.rs:675-736 -/
theorem splitPane_eq (hs : Indexed s) (hst : s.sessions.lookup sid = some st) (hw : w ∈ st.windows)
    {target : Uuid} {o : Orientation} {env : LaunchEnv} (hleaf : target ∈ w.layout.leaves)
    (h : s.splitPane delayMs target o env = some (s', .ok ())) :
    ∃ layout windows, w.layout.split? target o s.nextId w.rows w.cols = some (.ok layout) ∧
      { w with layout } ∈ windows ∧ (windows.map NamedWindow.id).Nodup ∧
      s'.sessions = s.sessions.insert sid { st with windows } ∧
      s'.panes = s.panes.insert s.nextId (.live s.nextAddr defaultRows defaultCols) := by
  have hids := hs.ids_nodup hst
  have hd : ∀ v ∈ st.windows, v.layout.leaves.Nodup := fun v hv => hs.leaves_nodup hst hv
  unfold Engine.splitPane at h
  split at h
  case h_1 => cases h
  case h_2 =>
      rw [windowAndSessionForPane_of_leaf hs hst hw hleaf] at h
      dsimp only at h
      rw [hst] at h
      dsimp only at h
      obtain ⟨r, hr, h⟩ := Option.bind_eq_some_iff.mp h
      cases r with
      | error e => cases h
      | ok windows =>
          obtain ⟨layout, hlayout, hmem⟩ := splitWindow_window hids hw hr
          obtain ⟨hsame, -, -⟩ := splitWindow_ok hd hr
          obtain ⟨sup, hsup, -, -⟩ := registerPane_eq delayMs { s with
            sessions := s.sessions.insert sid { st with windows }
            nextId := s.nextId + 1 } s.nextId st.defaultRestartPolicy env
          dsimp only at h
          rw [hsup] at h
          cases h
          exact ⟨layout, windows, hlayout, hmem, by rw [hsame]; exact hids, rfl, rfl⟩

/-- INTERNAL: the state after a close.
SRC: engine.rs:742-848 -/
theorem closePane_eq (hs : Indexed s) (hst : s.sessions.lookup sid = some st) (hw : w ∈ st.windows)
    {pane : Uuid} (hleaf : pane ∈ w.layout.leaves) :
    ∃ windows closed, Closes pane w.id st.windows windows closed ∧
      RecordState.closeWindow pane w.id st.windows = some (windows, closed) ∧
      (s.closePane pane).1.sessions = (match windows with
        | [] => s.sessions.erase sid
        | v :: vs => s.sessions.insert sid (RecordState.closedSession st (v :: vs) closed)) ∧
      (s.closePane pane).1.panes = s.panes.erase pane := by
  obtain ⟨windows, closed, hclose, hcloses⟩ := closeWindow_of_place
    (fun v hv => hs.leaves_nodup hst hv) (hs.ids_nodup hst)
    (mem_places.mpr ⟨w, hw, rfl, hleaf⟩)
  refine ⟨windows, closed, hcloses, hclose, ?_⟩
  unfold Engine.closePane
  rw [windowAndSessionForPane_of_leaf hs hst hw hleaf]
  dsimp only
  rw [hst]
  dsimp only
  rw [hclose]
  exact ⟨rfl, rfl⟩

/-- **A split or a close that succeeds leaves every live pane of the window at the size of its
rectangle exactly if no live pane of it needed a new size.** -/
theorem matched_iff_unresized (hs : Indexed s) (hfresh : Fresh s) (hsized : Sized s)
    (hst : s.sessions.lookup sid = some st) (hw : w ∈ st.windows) (c : StructuralCall)
    (hleaf : c.pane ∈ w.layout.leaves) (hok : s.call delayMs c.toCall = some (s', .ok ()))
    (hmatched : Matched s w.id) : Matched s' w.id ↔ Unresized s w c := by
  have hfitted : Fitted s.panes w := hmatched sid st hst w hw rfl
  have hd := hs.leaves_nodup hst hw
  cases c with
  | splitPane target orientation env =>
      obtain ⟨layout, windows, hlayout, hmem, hids, hsessions, hpanes⟩ :=
        splitPane_eq delayMs hs hst hw hleaf hok
      rw [matched_insert hs hst hw hsessions hids hmem rfl, hpanes]
      refine fitted_split_iff (fits_windowRect hsized hst hw) hd ?_ hlayout hfitted
      intro hmem
      have hplaced : s.nextId ∈ leafIds s := List.mem_map.mpr ⟨(s.nextId, w.id),
        mem_panePlaces.mpr ⟨sid, st, hst, mem_places.mpr ⟨w, hw, rfl, hmem⟩⟩, rfl⟩
      exact hfresh.notMem_leafIds (Nat.le_refl _) hplaced
  | closePane pane =>
      change pane ∈ w.layout.leaves at hleaf
      obtain ⟨windows, closed, hcloses, hclose, hsessions, hpanes⟩ := closePane_eq hs hst hw hleaf
      obtain rfl : (s.closePane pane).1 = s' := congrArg Prod.fst (Option.some_inj.mp hok)
      obtain ⟨hempty, hclosed⟩ | ⟨layout, hremove, hmem, hclosed⟩ :=
        closeWindow_window (hs.ids_nodup hst) hw hclose
      · -- the window is gone, and the pane had no sibling in it
        have hleaf' : w.layout = leaf pane := by
          obtain ⟨h, -⟩ | ⟨t, ht, -⟩ := remove_cases w.layout hd pane
          · exact h
          · rw [hempty] at ht
            cases ht
        have hgone : w.id ∉ windows.map NamedWindow.id := by
          obtain ⟨hnone, -⟩ | ⟨-, hperm⟩ := hcloses.ids
          · rw [hclosed] at hnone
            cases hnone
          · have hnodup := hperm.nodup_iff.mp (hs.ids_nodup hst)
            exact (List.nodup_cons.mp hnodup).1
        constructor
        · intro _ beside own whole hfound
          rw [hleaf'] at hfound
          cases hfound
        · intro _
          apply matched_of_gone hs hst hw
          · intro sid' st' hsid hst'
            rw [hsessions] at hst'
            cases windows with
            | nil => rwa [AList.lookup_erase_ne hsid] at hst'
            | cons v vs => rwa [AList.lookup_insert_ne hsid] at hst'
          · intro st' hst'
            rw [hsessions] at hst'
            cases windows with
            | nil =>
                rw [AList.lookup_erase] at hst'
                cases hst'
            | cons v vs =>
                rw [AList.lookup_insert, Option.some_inj] at hst'
                subst hst'
                exact hgone
      · cases windows with
        | nil => cases hmem
        | cons v vs =>
            have hids : ((v :: vs).map NamedWindow.id).Nodup := by
              obtain ⟨-, hsame⟩ | ⟨hsome, -⟩ := hcloses.ids
              · rw [hsame]
                exact hs.ids_nodup hst
              · rw [hclosed] at hsome
                cases hsome
            rw [matched_insert hs hst hw hsessions hids hmem rfl, hpanes]
            exact fitted_remove_iff hd hleaf hremove hfitted

instance (panes : AList fun _ : Uuid => HeldPane) (w : NamedWindow) : Decidable (Fitted panes w) :=
  decidable_of_iff ((w.layout.computeGeometry w.rows w.cols).any fun g => g.all fun e =>
      match panes.lookup e.1 with
      | some (.live _ rows cols) => rows = e.2.rows ∧ cols = e.2.cols
      | _ => true) (by
    simp only [Fitted, Option.any_eq_true, List.all_eq_true, Prod.forall]
    refine exists_congr fun g => and_congr_right fun _ => ?_
    refine forall_congr' fun p => forall_congr' fun rect => forall_congr' fun _ => ?_
    split
    case h_1 addr rows cols hlive => simp [hlive]
    case h_2 hother =>
        simp only [true_iff]
        exact fun addr rows cols hlive => absurd hlive (hother addr rows cols))

instance (s : Engine) (window : Uuid) : Decidable (Matched s window) :=
  decidable_of_iff (∀ e ∈ s.sessions.entries, ∀ w ∈ e.2.windows, w.id = window → Fitted s.panes w)
    ⟨fun h sid st hst => h ⟨sid, st⟩ (AList.mem_lookup_iff.mp hst),
      fun h e he => h e.1 e.2 (AList.mem_lookup_iff.mpr he)⟩

/-- A launch that succeeds, at time zero. -/
def calmLaunch : LaunchEnv := ⟨⟨0, .ok (), .finite 0⟩, 0⟩

/-- A session whose second window has one pane. -/
def twoWindows : List EngineCall :=
  [.createSession "main" .default calmLaunch, .createWindow 0 calmLaunch]

theorem matched_iff_unresized_lastPane :
    ∃ s s', run (Engine.step fun _ _ _ => 0) .init twoWindows = some s ∧
      s.call (fun _ _ _ => 0) (.closePane 4) = some (s', .ok ()) ∧ Matched s 3 ∧ Matched s' 3 := by
  obtain ⟨s, hrun, hs⟩ := callsInv_run (fun _ _ _ => 0) callsInv_init twoWindows
  have hstate : (run (Engine.step fun _ _ _ => 0) .init twoWindows).any (fun s =>
      decide (Matched s 3) && (s.closePane 4).2.isOk && (s.sessions.lookup 0).any fun st =>
        st.windows.any fun w => decide (w.id = 3) && decide (w.layout = leaf 4)) = true := by
    decide +kernel
  rw [hrun] at hstate
  simp only [Option.any_some, Bool.and_eq_true, decide_eq_true_eq, Option.any_eq_true,
    List.any_eq_true] at hstate
  obtain ⟨⟨hmatched, hok⟩, st, hst, w, hw, hid, hlayout⟩ := hstate
  have hcall : s.call (fun _ _ _ => 0) (.closePane 4) = some ((s.closePane 4).1, .ok ()) := by
    have hresult : (s.closePane 4).2 = .ok () := by
      cases h : (s.closePane 4).2 with
      | error e =>
          rw [h] at hok
          cases hok
      | ok u => rfl
    exact congrArg some (Prod.ext rfl hresult)
  refine ⟨s, _, hrun, hcall, hmatched, ?_⟩
  rw [← hid] at hmatched ⊢
  have hsized : Sized s := fun sid st hst v hv =>
    ⟨(hs.sound sid st hst v hv).rows, (hs.sound sid st hst v hv).cols⟩
  have hleaf : (StructuralCall.closePane 4).pane ∈ w.layout.leaves := by
    rw [hlayout]
    exact List.mem_cons_self
  rw [matched_iff_unresized (fun _ _ _ => 0) hs.indexed hs.fresh hsized hst hw (.closePane 4) hleaf
    hcall hmatched]
  intro beside own whole hfound
  rw [hlayout] at hfound
  cases hfound

/-- The panes of a window of 24 by 80 cells after a split of its only pane: both still have 24 rows,
and their rectangles have 12. -/
theorem splitPane_not_matched :
    ∃ s s', run (Engine.step fun _ _ _ => 0) .init
        [.createSession "main" .default calmLaunch] = some s ∧
      s.call (fun _ _ _ => 0) (.splitPane 2 .vertical calmLaunch) = some (s', .ok ()) ∧
      Matched s 1 ∧ ¬ Matched s' 1 := by
  have hruns : ((run (Engine.step fun _ _ _ => 0) .init
      [.createSession "main" .default calmLaunch]).any fun s =>
        decide (Matched s 1) && (s.call (fun _ _ _ => 0) (.splitPane 2 .vertical calmLaunch)).any
          fun r => r.2.isOk && decide (¬ Matched r.1 1)) = true := by
    decide +kernel
  simp only [Option.any_eq_true, Bool.and_eq_true, decide_eq_true_eq] at hruns
  obtain ⟨s, hrun, hmatched, ⟨s', result⟩, hcall, hok, hnot⟩ := hruns
  cases result with
  | error e => cases hok
  | ok u => exact ⟨s, s', hrun, hcall, hmatched, hnot⟩

end Windows

end Tymux.Analysis.PaneSizes
