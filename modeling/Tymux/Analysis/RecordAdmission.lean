import Tymux.Analysis.PersistedRecords

/-!
# Which records the daemon may load

The code that runs after a daemon start relies on more than `validate` checks: that a split has two
children with ratios between 0 and 1 (else `compute_geometry` subtracts below zero), that a pane id
stands at one leaf, and that a session has its active window. `validate` establishes the first
half of this, the number of children; the rest holds of the loaded engine exactly if it holds of
the records that no later record of the same session replaces.
-/

set_option autoImplicit false

namespace Tymux.Model.Persistence

open Tymux.Lib

/-- A ratio in `[0, 1]`. -/
def InUnit : F32 → Prop
  | .finite x => 0 ≤ x ∧ x ≤ 1
  | _ => False

mutual

/-- Every split has exactly two children. -/
def LayoutTree.Binary {α : Type} : LayoutTree α → Prop
  | .leaf _ => True
  | .split _ children => children.length = 2 ∧ children.EachBinary

def LayoutChildren.EachBinary {α : Type} : LayoutChildren α → Prop
  | .nil => True
  | .cons child _ rest => child.Binary ∧ rest.EachBinary

end

mutual

/-- Every ratio of every split is in `[0, 1]`. -/
def LayoutTree.UnitRatios {α : Type} : LayoutTree α → Prop
  | .leaf _ => True
  | .split _ children => children.UnitRatios

def LayoutChildren.UnitRatios {α : Type} : LayoutChildren α → Prop
  | .nil => True
  | .cons child ratio rest => InUnit ratio ∧ child.UnitRatios ∧ rest.UnitRatios

end

/-! ## What validation gives -/

mutual

/-- INTERNAL: A validated tree is binary.
SRC: persistence.rs:70-92 -/
theorem LayoutTree.binary_of_validateStructure {α : Type} : ∀ {t : LayoutTree α},
    t.validateStructure = .ok () → t.Binary
  | .leaf _, _ => trivial
  | .split _ children, h => by
    unfold LayoutTree.validateStructure at h
    split at h
    · cases h
    · rename_i hlength
      split at h
      · cases h
      · exact ⟨not_ne_iff.mp hlength, LayoutChildren.binary_of_validateEach h⟩

theorem LayoutChildren.binary_of_validateEach {α : Type} : ∀ {c : LayoutChildren α},
    c.validateEach = .ok () → c.EachBinary
  | .nil, _ => trivial
  | .cons child _ rest, h => by
    unfold LayoutChildren.validateEach at h
    cases hchild : child.validateStructure with
    | error e =>
        rw [hchild] at h
        cases h
    | ok u =>
        rw [hchild] at h
        exact ⟨LayoutTree.binary_of_validateStructure hchild,
          LayoutChildren.binary_of_validateEach h⟩

end

theorem validateStructure_of_forM {ws : List PersistedWindowRecord}
    (h : (ws.forM fun w => w.layout.validateStructure) = .ok ()) :
    ∀ w ∈ ws, w.layout.validateStructure = .ok () := by
  induction ws with
  | nil => exact fun w hw => absurd hw List.not_mem_nil
  | cons w ws ih =>
      unfold List.forM at h
      cases hw : w.layout.validateStructure with
      | error e =>
          rw [hw] at h
          cases h
      | ok u =>
          rw [hw] at h
          exact List.forall_mem_cons.mpr ⟨hw, ih h⟩

theorem PersistedSessionRecord.validate_windows {r : PersistedSessionRecord}
    (h : r.validate = .ok ()) : ∀ w ∈ r.windows, w.layout.validateStructure = .ok () := by
  unfold PersistedSessionRecord.validate at h
  split at h
  · cases h
  · exact validateStructure_of_forM h

theorem PersistedSessionRecord.validate_schemaVersion {r : PersistedSessionRecord}
    (h : r.validate = .ok ()) : r.schemaVersion = currentSchemaVersion := by
  unfold PersistedSessionRecord.validate at h
  split at h
  · cases h
  · rename_i hversion
    exact not_ne_iff.mp hversion

/-! ## Geometry -/

/-- INTERNAL: A ratio in `[0, 1]` never gives the first child more than there is: the product is
rounded, but not past an integer.
SRC: layout.rs:354-360 -/
theorem splitExtent_le {extent : ℕ} {ratio : F32} (hextent : extent ≤ u16Max) (h : InUnit ratio) :
    splitExtent extent ratio ≤ extent := by
  cases ratio with
  | inf negative => exact h.elim
  | nan => exact h.elim
  | finite x =>
      obtain ⟨hx0, hx1⟩ := h
      have hnonneg : (0 : ℚ) ≤ extent * x := mul_nonneg (Nat.cast_nonneg _) hx0
      have hle : (extent : ℚ) * x ≤ extent := mul_le_of_le_one_right (Nat.cast_nonneg _) hx1
      obtain ⟨y, hy, -, hyle⟩ := F32.ofRat_le hnonneg hle (Nat.lt_succ_of_le hextent)
      have hfloor : ⌊y⌋ ≤ (extent : ℤ) := Int.floor_le_iff.mpr (by
        push_cast
        linarith)
      show (F32.ofRat (extent * x)).floorTo u16Max ≤ extent
      rw [hy]
      apply (Nat.min_le_left _ _).trans
      omega

/-- INTERNAL: The geometry of a binary tree with ratios in `[0, 1]` is computed without a panic.
SRC: layout.rs:135-185 -/
theorem computeGeometryAt_isSome : ∀ {t : LiveLayoutNode} {row col rows cols : ℕ},
    t.Binary → t.UnitRatios → row + rows ≤ u16Max → col + cols ≤ u16Max →
    (t.computeGeometryAt row col rows cols).isSome
  | .leaf _, _, _, _, _, _, _, _, _ => rfl
  | .split _ .nil, _, _, _, _, hbinary, _, _, _ => absurd hbinary.1 (by decide)
  | .split _ (.cons _ _ .nil), _, _, _, _, hbinary, _, _, _ => absurd hbinary.1 (by
    simp only [LayoutChildren.length]
    decide)
  | .split .horizontal (.cons first ratio (.cons second _ _)), row, col, rows, cols,
      hbinary, hratios, hrow, hcol => by
    have hle : splitExtent cols ratio ≤ cols := splitExtent_le (by omega) hratios.1
    have hfirst := computeGeometryAt_isSome hbinary.2.1 hratios.2.1 hrow
      (show col + splitExtent cols ratio ≤ u16Max by omega)
    have hsecond := computeGeometryAt_isSome hbinary.2.2.1 hratios.2.2.2.1 hrow
      (show col + splitExtent cols ratio + (cols - splitExtent cols ratio) ≤ u16Max by omega)
    obtain ⟨out, hout⟩ := Option.isSome_iff_exists.mp hfirst
    obtain ⟨rest, hrest⟩ := Option.isSome_iff_exists.mp hsecond
    rw [LayoutTree.computeGeometryAt, checkedSub_of_le hle, hout,
      checkedAdd_of_le (show col + splitExtent cols ratio ≤ u16Max by omega)]
    simp only [Option.bind_eq_bind, Option.bind_some, hrest]
    rfl
  | .split .vertical (.cons first ratio (.cons second _ _)), row, col, rows, cols,
      hbinary, hratios, hrow, hcol => by
    have hle : splitExtent rows ratio ≤ rows := splitExtent_le (by omega) hratios.1
    have hfirst := computeGeometryAt_isSome hbinary.2.1 hratios.2.1
      (show row + splitExtent rows ratio ≤ u16Max by omega) hcol
    have hsecond := computeGeometryAt_isSome hbinary.2.2.1 hratios.2.2.2.1
      (show row + splitExtent rows ratio + (rows - splitExtent rows ratio) ≤ u16Max by omega) hcol
    obtain ⟨out, hout⟩ := Option.isSome_iff_exists.mp hfirst
    obtain ⟨rest, hrest⟩ := Option.isSome_iff_exists.mp hsecond
    rw [LayoutTree.computeGeometryAt, checkedSub_of_le hle, hout,
      checkedAdd_of_le (show row + splitExtent rows ratio ≤ u16Max by omega)]
    simp only [Option.bind_eq_bind, Option.bind_some, hrest]
    rfl

mutual

theorem LayoutTree.binary_map {α β : Type} (f : α → β) : ∀ {t : LayoutTree α},
    t.Binary → (t.map f).Binary
  | .leaf _, _ => trivial
  | .split _ children, h => ⟨(children.length_map f).trans h.1, LayoutChildren.binary_map f h.2⟩

theorem LayoutChildren.binary_map {α β : Type} (f : α → β) : ∀ {c : LayoutChildren α},
    c.EachBinary → (c.map f).EachBinary
  | .nil, _ => trivial
  | .cons _ _ _, h => ⟨LayoutTree.binary_map f h.1, LayoutChildren.binary_map f h.2⟩

end

mutual

theorem LayoutTree.unitRatios_map {α β : Type} (f : α → β) : ∀ {t : LayoutTree α},
    (t.map f).UnitRatios ↔ t.UnitRatios
  | .leaf _ => Iff.rfl
  | .split _ _ => LayoutChildren.unitRatios_map f

theorem LayoutChildren.unitRatios_map {α β : Type} (f : α → β) : ∀ {c : LayoutChildren α},
    (c.map f).UnitRatios ↔ c.UnitRatios
  | .nil => Iff.rfl
  | .cons _ _ _ => and_congr_right fun _ =>
    and_congr (LayoutTree.unitRatios_map f) (LayoutChildren.unitRatios_map f)

end

/-! ## Admission -/

/-- What the running daemon relies on of a session. -/
structure SessionState.Admitted (st : SessionState) : Prop where
  binary : ∀ w ∈ st.windows, w.layout.Binary
  ratios : ∀ w ∈ st.windows, w.layout.UnitRatios
  geometry : ∀ w ∈ st.windows, ∀ rows cols, rows ≤ u16Max → cols ≤ u16Max →
    (w.layout.computeGeometry rows cols).isSome
  windows : st.windows ≠ []
  active : st.activeWindowId ∈ st.windows.map WindowState.id

/-- What the running daemon relies on: of every session, and that no pane id stands at two leaves
of all the sessions. -/
structure Engine.Admitted (e : Engine) : Prop where
  sessions : ∀ id st, e.sessions.lookup id = some st → st.Admitted
  panes : (e.sessions.entries.flatMap fun entry => entry.2.leaves).Nodup

/-- What `validate` leaves open of the records in a list. -/
structure Loadable (records : List PersistedSessionRecord) : Prop where
  ratios : ∀ r ∈ records, ∀ w ∈ r.windows, w.layout.UnitRatios
  active : ∀ r ∈ records, r.activeWindowId ∈ r.windows.map PersistedWindowRecord.id
  panes : (records.flatMap PersistedSessionRecord.paneIds).Nodup

theorem PersistedSessionRecord.live_windowIds (r : PersistedSessionRecord) :
    r.live.windows.map WindowState.id = r.windows.map PersistedWindowRecord.id := by
  unfold PersistedSessionRecord.live
  rw [List.map_map]
  rfl

/-- INTERNAL: A validated record is loaded as an admitted session if its ratios and its active
window are in order. -/
theorem PersistedSessionRecord.admitted_live {r : PersistedSessionRecord}
    (hvalid : r.validate = .ok ()) (hratios : ∀ w ∈ r.windows, w.layout.UnitRatios)
    (hactive : r.activeWindowId ∈ r.windows.map PersistedWindowRecord.id) : r.live.Admitted := by
  have hlayout : ∀ w ∈ r.live.windows, w.layout.Binary ∧ w.layout.UnitRatios := by
    intro w hw
    obtain ⟨v, hv, rfl⟩ := List.mem_map.mp hw
    have hbinary := LayoutTree.binary_of_validateStructure (r.validate_windows hvalid v hv)
    exact ⟨LayoutTree.binary_map _ hbinary, (LayoutTree.unitRatios_map _).mpr (hratios v hv)⟩
  constructor
  case binary => exact fun w hw => (hlayout w hw).1
  case ratios => exact fun w hw => (hlayout w hw).2
  case geometry =>
    intro w hw rows cols hrows hcols
    apply computeGeometryAt_isSome (hlayout w hw).1 (hlayout w hw).2
    · omega
    · omega
  case windows =>
    intro hnil
    rw [← r.live_windowIds, hnil] at hactive
    exact List.not_mem_nil hactive
  case active =>
    rw [r.live_windowIds]
    exact hactive

theorem PersistedSessionRecord.of_admitted_live {r : PersistedSessionRecord}
    (h : r.live.Admitted) : (∀ w ∈ r.windows, w.layout.UnitRatios) ∧
      r.activeWindowId ∈ r.windows.map PersistedWindowRecord.id := by
  constructor
  · intro w hw
    exact (LayoutTree.unitRatios_map _).mp (h.ratios _ (List.mem_map_of_mem hw))
  · rw [← r.live_windowIds]
    exact h.active

/-- The entries of the loaded sessions, as a list of records. -/
theorem loadPersisted_entries (records : List PersistedSessionRecord) :
    (Engine.new.loadPersisted records).sessions.entries.Perm
      ((lastOf PersistedSessionRecord.sessionId records).map fun r => ⟨r.sessionId, r.live⟩) := by
  rw [Engine.loadPersisted_sessions]
  exact entries_fill_perm _ _ records

theorem loadPersisted_lookup (records : List PersistedSessionRecord) (id : Uuid)
    (st : SessionState) : (Engine.new.loadPersisted records).sessions.lookup id = some st ↔
      ∃ r ∈ lastOf PersistedSessionRecord.sessionId records, r.sessionId = id ∧ r.live = st := by
  have hentry : (Engine.new.loadPersisted records).sessions.lookup id = some st ↔
      ⟨id, st⟩ ∈ (Engine.new.loadPersisted records).sessions.entries := AList.mem_lookup_iff
  rw [hentry, (loadPersisted_entries records).mem_iff, List.mem_map]
  simp only [Sigma.mk.injEq, heq_eq_eq]

theorem loadPersisted_leaves (records : List PersistedSessionRecord) :
    ((Engine.new.loadPersisted records).sessions.entries.flatMap fun entry => entry.2.leaves).Nodup ↔
      ((lastOf PersistedSessionRecord.sessionId records).flatMap
        PersistedSessionRecord.paneIds).Nodup := by
  apply Iff.trans ((loadPersisted_entries records).flatMap_right _).nodup_iff
  rw [List.flatMap_map]
  simp only [PersistedSessionRecord.leaves_live]

/-- INTERNAL: Records that pass `validate` are loaded as an engine the daemon can rely on if and only
if the ones that are not replaced by a later record of the same session have every ratio in
`[0, 1]`, name one of their windows as active, and share no pane id.
SRC: persistence.rs:63-92, 159-184, 241-254, engine.rs:348-399 -/
theorem admitted_loadPersisted_iff (records : List PersistedSessionRecord)
    (hvalid : ∀ r ∈ records, r.validate = .ok ()) :
    (Engine.new.loadPersisted records).Admitted ↔
      Loadable (lastOf PersistedSessionRecord.sessionId records) := by
  constructor
  · intro h
    have hsession : ∀ r ∈ lastOf PersistedSessionRecord.sessionId records, r.live.Admitted :=
      fun r hr => h.sessions r.sessionId r.live ((loadPersisted_lookup _ _ _).mpr ⟨r, hr, rfl, rfl⟩)
    constructor
    case ratios => exact fun r hr => (PersistedSessionRecord.of_admitted_live (hsession r hr)).1
    case active => exact fun r hr => (PersistedSessionRecord.of_admitted_live (hsession r hr)).2
    case panes => exact (loadPersisted_leaves records).mp h.panes
  · intro h
    constructor
    case sessions =>
      intro id st hst
      obtain ⟨r, hr, rfl, rfl⟩ := (loadPersisted_lookup _ _ _).mp hst
      exact r.admitted_live (hvalid r (lastOf_subset _ hr)) (h.ratios r hr) (h.active r hr)
    case panes => exact (loadPersisted_leaves records).mpr h.panes

/-! ## A record that passes `validate` -/

def paneRecord (paneId : Uuid) : PersistedPaneRecord where
  paneId
  command := "sh"
  cwd := "/"
  rows := 24
  cols := 80
  exitCode := none
  launch := .default
  restart := none

/-- A session of one window with two panes side by side. -/
def sideBySide (firstRatio secondRatio : ℚ) : PersistedSessionRecord where
  schemaVersion := currentSchemaVersion
  sessionId := 1
  name := "main"
  windows := [⟨2, "0", .split .horizontal
    (.cons (.leaf (paneRecord 3)) (.finite firstRatio)
      (.cons (.leaf (paneRecord 4)) (.finite secondRatio) .nil))⟩]
  activeWindowId := 2
  defaultRestartPolicy := none

theorem admitted_loadPersisted_iff_halves :
    (∀ r ∈ [sideBySide (1 / 2) (1 / 2)], r.validate = .ok ()) ∧
      ((Engine.new.loadPersisted [sideBySide (1 / 2) (1 / 2)]).Admitted ↔
        Loadable (lastOf PersistedSessionRecord.sessionId [sideBySide (1 / 2) (1 / 2)])) := by
  have hvalid : ∀ r ∈ [sideBySide (1 / 2) (1 / 2)], r.validate = .ok () := by
    intro r hr
    rw [List.mem_singleton.mp hr]
    decide +kernel
  exact ⟨hvalid, admitted_loadPersisted_iff _ hvalid⟩

/-- The ratios 1.5 and -0.5 add up to 1, so `validate` lets them pass; the geometry of the default
window then subtracts 120 from 80. -/
theorem not_admitted_loadPersisted_crossed :
    (∀ r ∈ [sideBySide (3 / 2) (-1 / 2)], r.validate = .ok ()) ∧
      ¬ (Engine.new.loadPersisted [sideBySide (3 / 2) (-1 / 2)]).Admitted := by
  constructor
  · intro r hr
    rw [List.mem_singleton.mp hr]
    decide +kernel
  · intro h
    have hst := (loadPersisted_lookup [sideBySide (3 / 2) (-1 / 2)] 1 _).mpr
      ⟨_, List.mem_singleton_self _, rfl, rfl⟩
    have hgeometry := (h.sessions _ _ hst).geometry _ List.mem_cons_self 24 80 (by decide) (by decide)
    revert hgeometry
    decide +kernel

end Tymux.Model.Persistence
