import Tymux.Model.Layout
import Mathlib.Tactic.NormNum

/-!
# The layout trees the daemon builds, and their rectangles

Every tree that `split?` and `remove` build from a leaf stores the ratio `1/2` everywhere
(`Halved`) and names each pane once. On such a tree `computeGeometryAt` never overflows and
is the plain halving recursion `rects`: the first child gets the floor of half the extent,
the second the rest (`computeGeometryAt_eq_rects`). `split?` is then the graft of a new leaf
next to its target (`split?_ok`), and `remove` drops one leaf (`leaves_remove`).
-/

set_option autoImplicit false

namespace Tymux.Analysis

open Tymux.Model Tymux.Model.LayoutNode

/-- INTERNAL: half of a `u16` extent, rounded down.
SRC: layout.rs:354-360 -/
theorem splitExtent_half {extent : ℕ} (h : extent ≤ u16Max) :
    splitExtent extent (1 / 2) = extent / 2 := by
  have hfloor : ⌊(extent : ℚ) * (1 / 2)⌋ = ((extent / 2 : ℕ) : ℤ) := by
    have hle : 2 * (extent / 2) ≤ extent := Nat.mul_div_le extent 2
    have hlt : extent < 2 * (extent / 2) + 2 := by omega
    generalize extent / 2 = half at hle hlt ⊢
    have hle' : (2 : ℚ) * half ≤ extent := by exact_mod_cast hle
    have hlt' : (extent : ℚ) < 2 * half + 2 := by exact_mod_cast hlt
    rw [Int.floor_eq_iff]
    push_cast
    constructor <;> linarith
  unfold splitExtent
  rw [hfloor, Int.toNat_natCast]
  omega

/-- Every split of the tree gives half to each child. -/
def Halved : LayoutNode → Prop
  | leaf _ => True
  | split _ first r₁ second r₂ => r₁ = 1 / 2 ∧ r₂ = 1 / 2 ∧ Halved first ∧ Halved second

/-- The rectangles of a halved tree. -/
def rects : LayoutNode → ℕ → ℕ → ℕ → ℕ → List (Uuid × PtyRect)
  | leaf id, row, col, rows, cols => [(id, ⟨row, col, rows, cols⟩)]
  | split .horizontal first _ second _, row, col, rows, cols =>
    rects first row col rows (cols / 2) ++
      rects second row (col + cols / 2) rows (cols - cols / 2)
  | split .vertical first _ second _, row, col, rows, cols =>
    rects first row col (rows / 2) cols ++
      rects second (row + rows / 2) col (rows - rows / 2) cols

/-- INTERNAL: on a halved tree the geometry computation never overflows, and computes
`rects`.
SRC: layout.rs:135-185 -/
theorem computeGeometryAt_eq_rects (t : LayoutNode) (ht : Halved t) (row col rows cols : ℕ)
    (hr : row + rows ≤ u16Max) (hc : col + cols ≤ u16Max) :
    t.computeGeometryAt row col rows cols = some (rects t row col rows cols) := by
  induction t generalizing row col rows cols with
  | leaf id => rfl
  | split o first r₁ second r₂ ih₁ ih₂ =>
    obtain ⟨rfl, -, h₁, h₂⟩ := ht
    cases o with
    | horizontal =>
      have hhalf : splitExtent cols (1 / 2) = cols / 2 := splitExtent_half (by omega)
      have e₁ := ih₁ h₁ row col rows (cols / 2) hr (by omega)
      have e₂ := ih₂ h₂ row (col + cols / 2) rows (cols - cols / 2) hr (by omega)
      simp only [computeGeometryAt, hhalf, checkedSub_of_le (Nat.div_le_self cols 2),
        checkedAdd_of_le (show col + cols / 2 ≤ u16Max by omega), e₁, e₂, Option.bind_eq_bind,
        Option.bind_some, rects]
      rfl
    | vertical =>
      have hhalf : splitExtent rows (1 / 2) = rows / 2 := splitExtent_half (by omega)
      have e₁ := ih₁ h₁ row col (rows / 2) cols (by omega) hc
      have e₂ := ih₂ h₂ (row + rows / 2) col (rows - rows / 2) cols (by omega) hc
      simp only [computeGeometryAt, hhalf, checkedSub_of_le (Nat.div_le_self rows 2),
        checkedAdd_of_le (show row + rows / 2 ≤ u16Max by omega), e₁, e₂, Option.bind_eq_bind,
        Option.bind_some, rects]
      rfl

/-- INTERNAL: `computeGeometry_eq_rects` at the window's own corner.
SRC: layout.rs:126-133 -/
theorem computeGeometry_eq_rects (t : LayoutNode) (ht : Halved t) (rows cols : ℕ)
    (hr : rows ≤ u16Max) (hc : cols ≤ u16Max) :
    t.computeGeometry rows cols = some (rects t 0 0 rows cols) :=
  computeGeometryAt_eq_rects t ht 0 0 rows cols (by omega) (by omega)

/-- INTERNAL: one rectangle per leaf, in the order of `leaves`.
SRC: layout.rs:126-185 -/
theorem map_fst_rects (t : LayoutNode) (row col rows cols : ℕ) :
    (rects t row col rows cols).map Prod.fst = t.leaves := by
  induction t generalizing row col rows cols with
  | leaf id => rfl
  | split o first r₁ second r₂ ih₁ ih₂ =>
    cases o <;> simp [rects, leaves, ih₁, ih₂]

/-- INTERNAL: `contains` is membership among the leaves.
SRC: layout.rs:300-317 -/
theorem contains_iff (t : LayoutNode) (id : Uuid) : t.contains id = true ↔ id ∈ t.leaves := by
  induction t with
  | leaf p => simp [contains, leaves, eq_comm]
  | split o first r₁ second r₂ ih₁ ih₂ => simp [contains, leaves, ih₁, ih₂]

/-! ## Grafting a leaf -/

/-- The tree with the leaf `target` replaced by `f` of it. -/
def graft (target : Uuid) (f : LayoutNode → LayoutNode) : LayoutNode → LayoutNode
  | leaf id => if id = target then f (leaf id) else leaf id
  | split o first r₁ second r₂ => split o (graft target f first) r₁ (graft target f second) r₂

/-- INTERNAL: a tree without the target is left as it is. -/
theorem graft_of_notMem (target : Uuid) (f : LayoutNode → LayoutNode) (t : LayoutNode)
    (h : target ∉ t.leaves) : graft target f t = t := by
  induction t with
  | leaf id =>
    have hne : id ≠ target := by simpa [leaves, eq_comm] using h
    simp [graft, hne]
  | split o first r₁ second r₂ ih₁ ih₂ =>
    simp only [leaves, List.mem_append, not_or] at h
    simp [graft, ih₁ h.1, ih₂ h.2]

/-- INTERNAL: a walk that meets no target keeps the tree and the flag.
SRC: layout.rs:324-346 -/
theorem replaceLeafGo_of_notMem (target : Uuid) (f : LayoutNode → LayoutNode) (t : LayoutNode)
    (taken : Bool) (h : target ∉ t.leaves) :
    replaceLeafGo target f t taken = some (t, taken) := by
  induction t generalizing taken with
  | leaf id =>
    have hne : id ≠ target := by simpa [leaves, eq_comm] using h
    simp [replaceLeafGo, hne]
  | split o first r₁ second r₂ ih₁ ih₂ =>
    simp only [leaves, List.mem_append, not_or] at h
    simp [replaceLeafGo, ih₁ taken h.1, ih₂ taken h.2]

/-- INTERNAL: with distinct leaves the closure is taken exactly once, so the `expect` on it
cannot fail.
SRC: layout.rs:324-346 -/
theorem replaceLeafGo_of_mem (target : Uuid) (f : LayoutNode → LayoutNode) (t : LayoutNode)
    (hd : t.leaves.Nodup) (h : target ∈ t.leaves) :
    replaceLeafGo target f t false = some (graft target f t, true) := by
  induction t with
  | leaf id =>
    have heq : id = target := by simpa [leaves, eq_comm] using h
    simp [replaceLeafGo, graft, heq]
  | split o first r₁ second r₂ ih₁ ih₂ =>
    simp only [leaves, List.nodup_append, List.mem_append] at hd h
    obtain ⟨hd₁, hd₂, hdis⟩ := hd
    rcases h with h | h
    · have hno : target ∉ second.leaves := fun h' => hdis target h target h' rfl
      simp [replaceLeafGo, ih₁ hd₁ h, replaceLeafGo_of_notMem target f second true hno, graft,
        graft_of_notMem target f second hno]
    · have hno : target ∉ first.leaves := fun h' => hdis target h' target h rfl
      simp [replaceLeafGo, replaceLeafGo_of_notMem target f first false hno, ih₂ hd₂ h, graft,
        graft_of_notMem target f first hno]

/-- What `split?` puts in the place of its target. -/
def halves (o : Orientation) (newPane : Uuid) (oldLeaf : LayoutNode) : LayoutNode :=
  split o oldLeaf (1 / 2) (leaf newPane) (1 / 2)

/-- INTERNAL: the graft of `split?` keeps every ratio at one half. -/
theorem halved_graft_halves (target newPane : Uuid) (o : Orientation) (t : LayoutNode)
    (ht : Halved t) : Halved (graft target (halves o newPane) t) := by
  induction t with
  | leaf id =>
    by_cases h : id = target
    · simp [graft, h, halves, Halved]
    · simp [graft, h, Halved]
  | split o' first r₁ second r₂ ih₁ ih₂ =>
    obtain ⟨h₁, h₂, hf, hs⟩ := ht
    exact ⟨h₁, h₂, ih₁ hf, ih₂ hs⟩

/-- INTERNAL: the graft of `split?` inserts the new pane directly after its target.
SRC: layout.rs:236-239 -/
theorem leaves_graft_halves (target newPane : Uuid) (o : Orientation) (t : LayoutNode) :
    (graft target (halves o newPane) t).leaves =
      t.leaves.flatMap fun id => if id = target then [id, newPane] else [id] := by
  induction t with
  | leaf id =>
    by_cases h : id = target
    · simp [graft, h, halves, leaves]
    · simp [graft, h, leaves]
  | split o' first r₁ second r₂ ih₁ ih₂ => simp [graft, leaves, ih₁, ih₂]

/-- INTERNAL: the leaves after the graft are the old ones and the new one. -/
theorem mem_leaves_graft_halves (target newPane id : Uuid) (o : Orientation) (t : LayoutNode)
    (h : id ∈ (graft target (halves o newPane) t).leaves) : id ∈ t.leaves ∨ id = newPane := by
  rw [leaves_graft_halves, List.mem_flatMap] at h
  obtain ⟨p, hp, hid⟩ := h
  by_cases hpt : p = target
  · rw [if_pos hpt] at hid
    rcases List.mem_cons.mp hid with rfl | hid
    · exact Or.inl hp
    · exact Or.inr (by simpa using hid)
  · rw [if_neg hpt] at hid
    have : id = p := by simpa using hid
    exact Or.inl (this ▸ hp)

/-- INTERNAL: a fresh pane keeps the leaves distinct. -/
theorem nodup_leaves_graft_halves (target newPane : Uuid) (o : Orientation) (t : LayoutNode)
    (hd : t.leaves.Nodup) (hnew : newPane ∉ t.leaves) :
    (graft target (halves o newPane) t).leaves.Nodup := by
  induction t with
  | leaf id =>
    have hne : id ≠ newPane := by simpa [leaves, eq_comm] using hnew
    by_cases h : id = target
    · subst h
      simpa [graft, halves, leaves] using hne
    · simp [graft, h, leaves]
  | split o' first r₁ second r₂ ih₁ ih₂ =>
    simp only [leaves, List.nodup_append, List.mem_append, not_or] at hd hnew
    obtain ⟨hd₁, hd₂, hdis⟩ := hd
    obtain ⟨hn₁, hn₂⟩ := hnew
    simp only [graft, leaves, List.nodup_append]
    refine ⟨ih₁ hd₁ hn₁, ih₂ hd₂ hn₂, ?_⟩
    -- the target is on one side only, so the new pane is too
    by_cases ht : target ∈ first.leaves
    · have hno : target ∉ second.leaves := fun h' => hdis target ht target h' rfl
      rw [graft_of_notMem target _ second hno]
      intro a ha b hb hab
      rcases mem_leaves_graft_halves target newPane a o first ha with h | h
      · exact hdis a h b hb hab
      · exact hn₂ (h ▸ hab ▸ hb)
    · rw [graft_of_notMem target _ first ht]
      intro a ha b hb hab
      rcases mem_leaves_graft_halves target newPane b o second hb with h | h
      · exact hdis a ha b h hab
      · exact hn₁ (h ▸ hab ▸ ha)

/-- INTERNAL: **`split?` on a halved tree with distinct leaves never panics**, and when it
succeeds it is the graft next to the target.
SRC: layout.rs:197-241 -/
theorem split?_cases (t : LayoutNode) (ht : Halved t) (hd : t.leaves.Nodup)
    (target newPane : Uuid) (o : Orientation) (rows cols : ℕ) (hr : rows ≤ u16Max)
    (hc : cols ≤ u16Max) :
    (∃ e, t.split? target o newPane rows cols = some (.error e)) ∨
    (target ∈ t.leaves ∧
      t.split? target o newPane rows cols = some (.ok (graft target (halves o newPane) t))) := by
  unfold LayoutNode.split?
  by_cases hmem : target ∈ t.leaves
  · rw [if_neg (by simp [(contains_iff t target).mpr hmem]), computeGeometry_eq_rects t ht rows
      cols hr hc]
    have hfind : ((rects t 0 0 rows cols).find? fun e => e.1 = target).isSome := by
      rw [List.find?_isSome]
      rw [← map_fst_rects t 0 0 rows cols, List.mem_map] at hmem
      obtain ⟨e, he, rfl⟩ := hmem
      exact ⟨e, he, by simp⟩
    obtain ⟨⟨id, rect⟩, hrect⟩ := Option.isSome_iff_exists.mp hfind
    have hrep : t.replaceLeaf target (halves o newPane) =
        some (graft target (halves o newPane) t) := by
      simp [replaceLeaf, replaceLeafGo_of_mem target _ t hd hmem]
    simp only [Option.bind_eq_bind, Option.bind_some, hrect]
    split_ifs with hmin hrec
    · exact Or.inl ⟨_, rfl⟩
    · exact Or.inl ⟨_, rfl⟩
    refine Or.inr ⟨hmem, ?_⟩
    change (t.replaceLeaf target (halves o newPane)).bind _ = _
    rw [hrep]
    rfl
  · have hno : t.contains target = false := by
      rw [Bool.eq_false_iff, ne_eq, contains_iff]
      exact hmem
    rw [if_pos (by simp [hno])]
    exact Or.inl ⟨_, rfl⟩

/-- INTERNAL: a split that succeeds is the graft next to its target, whatever the ratios.
SRC: layout.rs:197-241 -/
theorem split?_ok {t t' : LayoutNode} (hd : t.leaves.Nodup) {target newPane : Uuid}
    {o : Orientation} {rows cols : ℕ} (h : t.split? target o newPane rows cols = some (.ok t')) :
    target ∈ t.leaves ∧ t' = graft target (halves o newPane) t := by
  unfold LayoutNode.split? at h
  by_cases hmem : target ∈ t.leaves
  · refine ⟨hmem, ?_⟩
    have hrep : t.replaceLeaf target (fun oldLeaf => split o oldLeaf (1 / 2) (leaf newPane) (1 / 2)) =
        some (graft target (halves o newPane) t) := by
      simp only [replaceLeaf]
      exact congrArg (Option.map Prod.fst) (replaceLeafGo_of_mem target (halves o newPane) t hd hmem)
    rw [if_neg (by simp [(contains_iff t target).mpr hmem])] at h
    simp only [Option.bind_eq_bind, Option.bind_eq_some_iff] at h
    obtain ⟨geometry, -, found, -, h⟩ := h
    split_ifs at h
    · cases h
    · cases h
    rw [hrep] at h
    cases h
    rfl
  · have hno : t.contains target = false := by
      rw [Bool.eq_false_iff, ne_eq, contains_iff]
      exact hmem
    rw [if_pos (by simp [hno])] at h
    cases h

/-! ## Removing a leaf -/

/-- INTERNAL: what `remove` leaves: the same tree without the pane, every ratio kept, and
`windowEmpty` only for the one-leaf tree.
SRC: layout.rs:243-298 -/
theorem remove_cases (t : LayoutNode) (hd : t.leaves.Nodup) (pane : Uuid) :
    (t = leaf pane ∧ t.remove pane = .windowEmpty) ∨
    ∃ t', t.remove pane = .collapsed t' ∧ (Halved t → Halved t') ∧
      t'.leaves = t.leaves.erase pane := by
  induction t with
  | leaf id =>
    by_cases h : id = pane
    · exact Or.inl ⟨by rw [h], by simp [remove, h]⟩
    · refine Or.inr ⟨leaf id, by simp [remove, h], fun h => h, ?_⟩
      simp [leaves, h]
  | split o first r₁ second r₂ ih₁ ih₂ =>
    right
    simp only [leaves, List.nodup_append] at hd
    obtain ⟨hd₁, hd₂, hdis⟩ := hd
    have hone : pane ∈ first.leaves → pane ∉ second.leaves :=
      fun h₁ h₂ => hdis pane h₁ pane h₂ rfl
    simp only [remove, leaves, Bool.and_eq_true, contains_iff]
    by_cases hf : pane ∈ first.leaves
    · have hs := hone hf
      rw [List.erase_append_left _ hf]
      rcases ih₁ hd₁ with ⟨rfl, hw⟩ | ⟨t', ht', hH, hl⟩
      · exact ⟨second, by simp [isLeaf, leaves], fun h => h.2.2.2, by simp [leaves]⟩
      · -- a leaf that contains the pane would have been removed whole
        have hnl : first.isLeaf = false := by
          cases first with
          | leaf id => simp_all [remove, leaves]
          | split => rfl
        refine ⟨split o t' r₁ second r₂, by simp [hf, hs, hnl, ht'], ?_, by simp [leaves, hl]⟩
        exact fun h => ⟨h.1, h.2.1, hH h.2.2.1, h.2.2.2⟩
    · rw [List.erase_append_right _ hf]
      by_cases hs : pane ∈ second.leaves
      · rcases ih₂ hd₂ with ⟨rfl, hw⟩ | ⟨t', ht', hH, hl⟩
        · exact ⟨first, by simp [hf, isLeaf, leaves], fun h => h.2.2.1, by simp [leaves]⟩
        · have hnl : second.isLeaf = false := by
            cases second with
            | leaf id => simp_all [remove, leaves]
            | split => rfl
          refine ⟨split o first r₁ t' r₂, by simp [hf, hs, hnl, ht'], ?_, by simp [leaves, hl]⟩
          exact fun h => ⟨h.1, h.2.1, h.2.2.1, hH h.2.2.2⟩
      · refine ⟨split o first r₁ second r₂, by simp [hf, hs], fun h => h, ?_⟩
        simp [leaves, List.erase_of_not_mem hs]

end Tymux.Analysis
