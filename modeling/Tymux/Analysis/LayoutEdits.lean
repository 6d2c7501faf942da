import Tymux.Analysis.LayoutTiling
import Tymux.Model.LayoutVec

/-!
# The edits of the layout tree

The vectors of a tree keep two entries through every edit (`toVec`: the source's functions compute
on them what those of `LayoutNode` compute). `split` inserts a leaf after its target, which
`remove` takes out again; `remove` keeps the order of the rest.
-/

set_option autoImplicit false

namespace Tymux.Analysis

open Tymux.Model Tymux.Model.LayoutNode

/-! ## Two children in a vector -/

/-- The tree as the source stores it. -/
def toVec : LayoutNode → VecNode
  | leaf id => .leaf id
  | split o first r₁ second r₂ => .split o [(toVec first, r₁), (toVec second, r₂)]

theorem binary_toVec (t : LayoutNode) : (toVec t).Binary := by
  induction t with
  | leaf id => exact .leaf id
  | split o first r₁ second r₂ ih₁ ih₂ => exact .split o r₁ r₂ ih₁ ih₂

theorem exists_toVec {v : VecNode} (h : v.Binary) : ∃ t, toVec t = v := by
  induction h with
  | leaf id => exact ⟨leaf id, rfl⟩
  | split o r₁ r₂ _ _ ih₁ ih₂ =>
      obtain ⟨first, rfl⟩ := ih₁
      obtain ⟨second, rfl⟩ := ih₂
      exact ⟨split o first r₁ second r₂, rfl⟩

theorem toVec_injective {t t' : LayoutNode} (h : toVec t = toVec t') : t = t' := by
  induction t generalizing t' with
  | leaf id =>
      cases t' with
      | leaf id' =>
          cases h
          rfl
      | split => cases h
  | split o first r₁ second r₂ ih₁ ih₂ =>
      cases t' with
      | leaf id' => cases h
      | split o' first' r₁' second' r₂' =>
          simp only [toVec, VecNode.split.injEq, List.cons.injEq, Prod.mk.injEq, and_true] at h
          obtain ⟨rfl, ⟨hfirst, rfl⟩, hsecond, rfl⟩ := h
          rw [ih₁ hfirst, ih₂ hsecond]

@[simp] theorem contains_toVec (t : LayoutNode) (id : Uuid) :
    (toVec t).contains id = t.contains id := by
  induction t with
  | leaf p => rfl
  | split o first r₁ second r₂ ih₁ ih₂ =>
      simp [toVec, VecNode.contains, VecNode.contains.any, LayoutNode.contains, ih₁, ih₂]

@[simp] theorem leaves_toVec (t : LayoutNode) : (toVec t).leaves = t.leaves := by
  induction t with
  | leaf p => rfl
  | split o first r₁ second r₂ ih₁ ih₂ =>
      simp [toVec, VecNode.leaves, VecNode.leaves.flatMap, LayoutNode.leaves, ih₁, ih₂]

@[simp] theorem isLeaf_toVec (t : LayoutNode) : (toVec t).isLeaf = t.isLeaf := by
  cases t with
  | leaf p => rfl
  | split => rfl

theorem computeGeometryAt_toVec (t : LayoutNode) (row col rows cols : ℕ) :
    (toVec t).computeGeometryAt row col rows cols = t.computeGeometryAt row col rows cols := by
  induction t generalizing row col rows cols with
  | leaf p => rfl
  | split o first r₁ second r₂ ih₁ ih₂ =>
      cases o with
      | horizontal => simp only [toVec, VecNode.computeGeometryAt, computeGeometryAt, ih₁, ih₂]
      | vertical => simp only [toVec, VecNode.computeGeometryAt, computeGeometryAt, ih₁, ih₂]

theorem replaceLeafGo_toVec (target : Uuid) {f : LayoutNode → LayoutNode} {g : VecNode → VecNode}
    (hfg : ∀ t, g (toVec t) = toVec (f t)) (t : LayoutNode) (taken : Bool) :
    VecNode.replaceLeafGo target g (toVec t) taken =
      (replaceLeafGo target f t taken).map fun r => (toVec r.1, r.2) := by
  induction t generalizing taken with
  | leaf id =>
      simp only [toVec, VecNode.replaceLeafGo, replaceLeafGo]
      split
      · split
        · rfl
        · exact congrArg some (Prod.ext (hfg (leaf id)) rfl)
      · rfl
  | split o first r₁ second r₂ ih₁ ih₂ =>
      simp only [toVec, VecNode.replaceLeafGo, VecNode.replaceLeafGo.each, replaceLeafGo, ih₁]
      cases replaceLeafGo target f first taken with
      | none => rfl
      | some r =>
          simp only [Option.map_some, Option.bind_eq_bind, Option.bind_some, ih₂]
          cases replaceLeafGo target f second r.2 with
          | none => rfl
          | some r' => rfl

/-- The tree that a call of `split` leaves, with its result. -/
def edited (t : LayoutNode) : Except LayoutError LayoutNode → VecNode × Except LayoutError Unit
  | .ok t' => (toVec t', .ok ())
  | .error e => (toVec t, .error e)

/-- INTERNAL: `split` on the vectors.
SRC: layout.rs:187-241 -/
theorem split?_toVec (t : LayoutNode) (target : Uuid) (o : Orientation) (newPane : Uuid)
    (rows cols : ℕ) :
    (toVec t).split? target o newPane rows cols =
      (t.split? target o newPane rows cols).map (edited t) := by
  have hreplace : (toVec t).replaceLeaf target
      (fun old => .split o [(old, 1 / 2), (.leaf newPane, 1 / 2)]) =
        (t.replaceLeaf target (halves o newPane)).map toVec := by
    unfold VecNode.replaceLeaf LayoutNode.replaceLeaf
    rw [@replaceLeafGo_toVec target (halves o newPane) _ fun old => rfl, Option.map_map,
      Option.map_map]
    rfl
  have hdone : ((t.replaceLeaf target (halves o newPane)).map toVec).bind
      (fun t' => some (t', Except.ok ())) =
        ((t.replaceLeaf target (halves o newPane)).bind fun t' => some (Except.ok t')).map
          (edited t) := by
    cases t.replaceLeaf target (halves o newPane) with
    | none => rfl
    | some t' => rfl
  unfold VecNode.split? LayoutNode.split? VecNode.computeGeometry LayoutNode.computeGeometry
  rw [contains_toVec, computeGeometryAt_toVec, hreplace]
  split
  · rfl
  · cases t.computeGeometryAt 0 0 rows cols with
    | none => rfl
    | some geometry =>
        simp only [Option.bind_eq_bind, Option.bind_some]
        cases geometry.find? fun e => decide (e.1 = target) with
        | none => rfl
        | some e =>
            cases o with
            | horizontal =>
                simp only [Option.bind_some]
                split
                · rfl
                · split
                  · rfl
                  · exact hdone
            | vertical =>
                simp only [Option.bind_some]
                split
                · rfl
                · split
                  · rfl
                  · exact hdone

/-- `remove` gives the tree in vectors. -/
def removed : RemoveOutcome → VecNode.RemoveOutcome
  | .collapsed t => .collapsed (toVec t)
  | .windowEmpty => .windowEmpty

/-- INTERNAL: the two children of a split are the two that are popped.
SRC: layout.rs:252-297 -/
theorem remove_pair (o : Orientation) (first second : VecNode) (r₁ r₂ : ℚ) (paneId : Uuid) :
    (VecNode.split o [(first, r₁), (second, r₂)]).remove paneId =
      if first.contains paneId && first.isLeaf then some (.collapsed second)
      else if second.contains paneId && second.isLeaf then some (.collapsed first)
      else if first.contains paneId then
        match first.remove paneId with
        | some (.collapsed newFirst) => some (.collapsed (.split o [(newFirst, r₁), (second, r₂)]))
        | some .windowEmpty => some (.collapsed second)
        | none => none
      else if second.contains paneId then
        match second.remove paneId with
        | some (.collapsed newSecond) => some (.collapsed (.split o [(first, r₁), (newSecond, r₂)]))
        | some .windowEmpty => some (.collapsed first)
        | none => none
      else some (.collapsed (.split o [(first, r₁), (second, r₂)])) := by
  rw [VecNode.remove]
  rfl

/-- INTERNAL: `remove` on the vectors.
SRC: layout.rs:243-298 -/
theorem remove_toVec (t : LayoutNode) (paneId : Uuid) :
    (toVec t).remove paneId = some (removed (t.remove paneId)) := by
  induction t with
  | leaf id =>
      rw [toVec, VecNode.remove, LayoutNode.remove]
      split
      · rfl
      · rfl
  | split o first r₁ second r₂ ih₁ ih₂ =>
      rw [toVec, remove_pair, LayoutNode.remove]
      simp only [contains_toVec, isLeaf_toVec, ih₁, ih₂]
      split
      · rfl
      · split
        · rfl
        · split
          · cases first.remove paneId with
            | collapsed t => rfl
            | windowEmpty => rfl
          · split
            · cases second.remove paneId with
              | collapsed t => rfl
              | windowEmpty => rfl
            · rfl

/-! ## A leaf goes in and comes out -/

/-- INTERNAL: the new pane comes directly after its target.
SRC: layout.rs:236-239 -/
theorem leaves_insert {t : LayoutNode} (hd : t.leaves.Nodup) {target : Uuid}
    (ht : target ∈ t.leaves) (o : Orientation) (newPane : Uuid) :
    ∃ before after, t.leaves = before ++ target :: after ∧
      (graft target (halves o newPane) t).leaves = before ++ target :: newPane :: after := by
  have hkeep : ∀ l : List Uuid, target ∉ l →
      (l.flatMap fun id => if id = target then [id, newPane] else [id]) = l := by
    intro l hl
    induction l with
    | nil => rfl
    | cons id l ih =>
        simp only [List.mem_cons, not_or] at hl
        rw [List.flatMap_cons, ih hl.2, if_neg (Ne.symm hl.1), List.singleton_append]
  obtain ⟨before, after, heq⟩ := List.append_of_mem ht
  rw [heq] at hd
  have hbefore : target ∉ before := fun h =>
    (List.nodup_append.mp hd).2.2 target h target List.mem_cons_self rfl
  have hafter : target ∉ after := (List.nodup_cons.mp (List.nodup_append.mp hd).2.1).1
  refine ⟨before, after, heq, ?_⟩
  rw [leaves_graft_halves, heq, List.flatMap_append, List.flatMap_cons, hkeep before hbefore,
    hkeep after hafter, if_pos rfl]
  rfl

/-- INTERNAL: the new pane is a leaf of one split, which collapses into the target.
SRC: layout.rs:243-298 -/
theorem remove_graft {t : LayoutNode} (hd : t.leaves.Nodup) {target newPane : Uuid}
    (ht : target ∈ t.leaves) (hnew : newPane ∉ t.leaves) (o : Orientation) :
    (graft target (halves o newPane) t).remove newPane = .collapsed t := by
  induction t with
  | leaf id =>
      have hid : target = id := List.mem_singleton.mp ht
      have hne : newPane ≠ id := fun h => hnew (List.mem_singleton.mpr h)
      simp [graft, halves, hid, LayoutNode.remove, LayoutNode.contains, isLeaf, Ne.symm hne]
  | split o' first r₁ second r₂ ih₁ ih₂ =>
      simp only [leaves, List.nodup_append, List.mem_append, not_or] at hd ht hnew
      obtain ⟨hd₁, hd₂, hdis⟩ := hd
      have hnested : ∀ child : LayoutNode, target ∈ child.leaves →
          (graft target (halves o newPane) child).isLeaf = false := by
        intro child hchild
        cases child with
        | leaf id =>
            have hid : target = id := List.mem_singleton.mp hchild
            simp [graft, halves, hid, isLeaf]
        | split => rfl
      have hinside : ∀ child : LayoutNode, child.leaves.Nodup → target ∈ child.leaves →
          (graft target (halves o newPane) child).contains newPane = true := by
        intro child hchild hmem
        obtain ⟨before, after, -, hleaves⟩ := leaves_insert hchild hmem o newPane
        rw [contains_iff, hleaves]
        simp
      have houtside : ∀ child : LayoutNode, newPane ∉ child.leaves →
          child.contains newPane = false := by
        intro child hchild
        rw [Bool.eq_false_iff, ne_eq, contains_iff]
        exact hchild
      rw [graft]
      by_cases hfirst : target ∈ first.leaves
      · have hsecond : target ∉ second.leaves := fun h => hdis target hfirst target h rfl
        rw [graft_of_notMem target _ second hsecond]
        simp [LayoutNode.remove, hnested first hfirst, hinside first hd₁ hfirst,
          houtside second hnew.2, ih₁ hd₁ hfirst hnew.1]
      · have hsecond : target ∈ second.leaves := ht.resolve_left hfirst
        rw [graft_of_notMem target _ first hfirst]
        simp [LayoutNode.remove, hnested second hsecond, hinside second hd₂ hsecond,
          houtside first hnew.1, ih₂ hd₂ hsecond hnew.2]

/-- **The edits of a layout tree.** A split that succeeds puts the new pane after its target, and
removing it again gives the tree back; a split that fails leaves the tree as it was. `remove` takes
the pane out of the order of the leaves, and the window is empty only without another leaf. The
trees stay binary with distinct leaves.
SRC: layout.rs:187-351 -/
theorem layout_edits {v : VecNode} (hbinary : v.Binary) (hdistinct : v.leaves.Nodup) :
    (∀ target o newPane rows cols v' result, newPane ∉ v.leaves →
      v.split? target o newPane rows cols = some (v', result) →
        v'.Binary ∧ v'.leaves.Nodup ∧
        (result = .ok () → (∃ before after, v.leaves = before ++ target :: after ∧
          v'.leaves = before ++ target :: newPane :: after) ∧
            v'.remove newPane = some (.collapsed v)) ∧
        (∀ e, result = .error e → v' = v)) ∧
    ∀ paneId, (v.remove paneId = some .windowEmpty ↔ v = .leaf paneId) ∧
      (v ≠ .leaf paneId → ∃ v', v.remove paneId = some (.collapsed v') ∧
        v'.leaves = v.leaves.filter (· ≠ paneId) ∧ v'.Binary ∧ v'.leaves.Nodup) := by
  obtain ⟨t, rfl⟩ := exists_toVec hbinary
  rw [leaves_toVec] at hdistinct
  constructor
  · intro target o newPane rows cols v' result hnew hsplit
    rw [leaves_toVec] at hnew
    rw [split?_toVec] at hsplit
    obtain ⟨r, hr, hedited⟩ := Option.map_eq_some_iff.mp hsplit
    cases r with
    | error e =>
        obtain ⟨rfl, rfl⟩ := Prod.mk.inj hedited
        refine ⟨hbinary, by rwa [leaves_toVec], ?_, fun _ _ => rfl⟩
        intro hok
        cases hok
    | ok t' =>
        obtain ⟨rfl, rfl⟩ := Prod.mk.inj hedited
        obtain ⟨htarget, rfl⟩ := split?_ok hdistinct hr
        refine ⟨binary_toVec _, ?_, fun _ => ⟨?_, ?_⟩, fun e he => ?_⟩
        · rw [leaves_toVec]
          exact nodup_leaves_graft_halves target newPane o t hdistinct hnew
        · rw [leaves_toVec, leaves_toVec]
          exact leaves_insert hdistinct htarget o newPane
        · rw [remove_toVec, remove_graft hdistinct htarget hnew o]
          rfl
        · cases he
  · intro paneId
    rw [remove_toVec]
    rcases remove_cases t hdistinct paneId with ⟨rfl, hempty⟩ | ⟨t', ht', -, hleaves⟩
    · rw [hempty]
      exact ⟨⟨fun _ => rfl, fun _ => rfl⟩, fun hne => absurd rfl hne⟩
    · rw [ht']
      constructor
      · constructor
        · intro h
          cases h
        · intro h
          have hleaf : t = leaf paneId := toVec_injective h
          rw [hleaf] at ht'
          simp [LayoutNode.remove] at ht'
      · intro _
        refine ⟨toVec t', rfl, ?_, binary_toVec t', ?_⟩
        · rw [leaves_toVec, leaves_toVec, hleaves, hdistinct.erase_eq_filter]
          congr 1
          funext id
          simp [bne, BEq.beq]
        · rw [leaves_toVec, hleaves]
          exact hdistinct.erase paneId

/-- `1` beside `2` over `3`. -/
def threePanes : LayoutNode :=
  split .horizontal (leaf 1) (1 / 2) (split .vertical (leaf 2) (1 / 2) (leaf 3) (1 / 2)) (1 / 2)

/-- In a window of 100 by 80 cells, `2` can be split. -/
theorem threePanes_split : (toVec threePanes).split? 2 .vertical 4 100 80 =
    some (toVec (graft 2 (halves .vertical 4) threePanes), .ok ()) := by
  have hhalved : Halved threePanes := ⟨rfl, rfl, trivial, rfl, rfl, trivial, trivial⟩
  rw [split?_toVec]
  unfold LayoutNode.split?
  rw [computeGeometry_eq_rects threePanes hhalved 100 80 (by decide) (by decide)]
  rfl

theorem layout_edits_nested :
    (∃ before after, [1, 2, 3] = before ++ 2 :: after ∧ [1, 2, 4, 3] = before ++ 2 :: 4 :: after) ∧
    (toVec (graft 2 (halves .vertical 4) threePanes)).remove 4 =
      some (.collapsed (toVec threePanes)) :=
  ((layout_edits (binary_toVec threePanes) (by decide)).1 2 .vertical 4 100 80 _ _ (by decide)
    threePanes_split).2.2.1 rfl

end Tymux.Analysis
