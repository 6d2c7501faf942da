import Tymux.Analysis.RecordAdmission

/-!
# A record over daemon restarts

A daemon restart loads a record into an empty engine and writes its snapshot back. The record goes
through three maps on the way: the layout trees, the panes and the supervision. What comes out is
`normalize`: each leaf gets a restart state, everything else of the record stays, and a second
restart changes nothing.
-/

set_option autoImplicit false

namespace Tymux.Model.Persistence

open Tymux.Lib

/-! ## Normal records -/

/-- The process did not survive the restart: only `Stopped` and `Failed` are kept. -/
def restedState : LifecycleState → LifecycleState
  | .stopped => .stopped
  | .failed => .failed
  | .live | .exited | .backoff | .restarting => .exited

/-- The restart state of a leaf after a daemon restart: a missing one is a fresh supervisor under
the default policy of the session. -/
def normalizeRestart (policy : RestartPolicy) :
    Option PersistedRestartState → PersistedRestartState
  | none => ⟨policy, .exited, 0, [], 0, none⟩
  | some p => { p with state := restedState p.state }

def normalizeLeaf (policy : RestartPolicy) (r : PersistedPaneRecord) : PersistedPaneRecord :=
  { r with restart := some (normalizeRestart policy r.restart) }

/-- What a daemon restart makes of a record: the restart state of each leaf, and a default policy
that is `RestartPolicy::default()` is left out. -/
def PersistedSessionRecord.normalize (r : PersistedSessionRecord) : PersistedSessionRecord :=
  { r with
    windows := r.windows.map fun w => { w with layout := w.layout.map (normalizeLeaf r.policy) }
    defaultRestartPolicy := r.defaultRestartPolicy.filter fun p => p ≠ RestartPolicy.default }

theorem restedState_idem (s : LifecycleState) : restedState (restedState s) = restedState s := by
  cases s <;> rfl

theorem normalizeRestart_idem (policy : RestartPolicy) (o : Option PersistedRestartState)
    (policy' : RestartPolicy) :
    normalizeRestart policy' (some (normalizeRestart policy o)) = normalizeRestart policy o := by
  cases o with
  | none => rfl
  | some p => simp only [normalizeRestart, restedState_idem]

theorem normalizeLeaf_idem (policy policy' : RestartPolicy) (r : PersistedPaneRecord) :
    normalizeLeaf policy' (normalizeLeaf policy r) = normalizeLeaf policy r := by
  simp only [normalizeLeaf, normalizeRestart_idem]

/-- INTERNAL: A second daemon restart changes nothing. -/
theorem PersistedSessionRecord.normalize_idem (r : PersistedSessionRecord) :
    r.normalize.normalize = r.normalize := by
  have hwindow (w : PersistedWindowRecord) :
      (w.layout.map (normalizeLeaf r.policy)).map (normalizeLeaf r.normalize.policy) =
        w.layout.map (normalizeLeaf r.policy) := by
    rw [LayoutTree.map_map]
    apply LayoutTree.map_congr
    intro x _
    exact normalizeLeaf_idem _ _ x
  have hpolicy : (r.defaultRestartPolicy.filter fun p => p ≠ RestartPolicy.default).filter
      (fun p => p ≠ RestartPolicy.default) =
        r.defaultRestartPolicy.filter fun p => p ≠ RestartPolicy.default := by
    rw [Option.filter_filter]
    simp only [Bool.and_self]
  unfold PersistedSessionRecord.normalize at *
  simp only [List.map_map, hpolicy]
  congr 1
  apply List.map_congr_left
  intro w _
  simp only [Function.comp_apply, hwindow]

/-! ## Loading one record -/

/-- The maps hold these leaves: each pane is dead with its record, under the supervisor restored
from it. -/
def Engine.Holds (e : Engine) (policy : RestartPolicy) (leaves : List PersistedPaneRecord) : Prop :=
  ∀ r ∈ leaves, e.panes.lookup r.paneId = some (.dead r) ∧
    e.supervision.lookup r.paneId = some (supervisorOf policy r.restart)

/-- INTERNAL: A window adds its leaves and keeps those before it.
SRC: engine.rs:356-383 -/
theorem Engine.holds_loadWindow {e : Engine} {policy : RestartPolicy}
    {leaves : List PersistedPaneRecord} (session : Uuid) (w : PersistedWindowRecord)
    (h : e.Holds policy leaves)
    (hids : ((leaves ++ w.layout.leaves).map PersistedPaneRecord.paneId).Nodup) :
    (e.loadWindow session policy w).1.Holds policy (leaves ++ w.layout.leaves) := by
  rw [List.map_append, List.nodup_append] at hids
  obtain ⟨-, hnew, hdisjoint⟩ := hids
  rw [loadWindow_eq]
  intro r hr
  dsimp only
  rcases List.mem_append.mp hr with hold | hmem
  · have hnot : r.paneId ∉ w.layout.leaves.map PersistedPaneRecord.paneId :=
      fun hin => hdisjoint _ (List.mem_map_of_mem hold) _ hin rfl
    rw [lookup_fill_of_notMem _ _ _ hnot, lookup_fill_of_notMem id _ _ (by rwa [List.map_id])]
    exact h r hold
  · have hpane := lookup_fill_of_nodup PersistedPaneRecord.paneId PaneEntry.dead e.panes hnew hmem
    refine ⟨hpane, ?_⟩
    have hsup := lookup_fill_of_nodup id (fun p => supervisorOf policy (restartIn
      (fill PersistedPaneRecord.paneId .dead e.panes w.layout.leaves) p)) e.supervision
      (by rwa [List.map_id]) (List.mem_map_of_mem (f := PersistedPaneRecord.paneId) hmem)
    apply hsup.trans
    rw [restartIn, hpane]

theorem Engine.holds_loadWindows {policy : RestartPolicy} (session : Uuid)
    (ws : List PersistedWindowRecord) {e : Engine} {leaves : List PersistedPaneRecord}
    (h : e.Holds policy leaves)
    (hids : ((leaves ++ windowLeaves ws).map PersistedPaneRecord.paneId).Nodup) :
    (e.loadWindows session policy ws).1.Holds policy (leaves ++ windowLeaves ws) := by
  induction ws generalizing e leaves with
  | nil =>
      rw [windowLeaves, List.flatMap_nil, List.append_nil]
      exact h
  | cons w ws ih =>
      have hsplit : leaves ++ windowLeaves (w :: ws) =
          leaves ++ w.layout.leaves ++ windowLeaves ws := by
        rw [windowLeaves, List.flatMap_cons, ← windowLeaves, List.append_assoc]
      rw [hsplit] at hids ⊢
      have hfirst : ((leaves ++ w.layout.leaves).map PersistedPaneRecord.paneId).Nodup := by
        rw [List.map_append] at hids
        exact hids.of_append_left
      exact ih (Engine.holds_loadWindow session w h hfirst) hids

/-- A fold that inserts the restart state of each supervised pane. -/
theorem lookup_foldl_persisted {e : Engine} {p : Uuid} {sup : PaneSupervisor}
    (hsup : e.supervision.lookup p = some sup) {f : RestartMap → Uuid → RestartMap}
    (hsome : ∀ m q sup', e.supervision.lookup q = some sup' → f m q = m.insert q sup'.persisted)
    (hnone : ∀ m q, e.supervision.lookup q = none → f m q = m) {ids : List Uuid} {m : RestartMap}
    (h : m.lookup p = some sup.persisted ∨ p ∈ ids) :
    (ids.foldl f m).lookup p = some sup.persisted := by
  induction ids generalizing m with
  | nil =>
      rcases h with h | h
      · exact h
      · exact absurd h List.not_mem_nil
  | cons q ids ih =>
      rw [List.foldl_cons]
      apply ih
      by_cases hq : p = q
      · subst hq
        left
        rw [hsome m p sup hsup]
        exact AList.lookup_insert m
      · rcases h with h | h
        · left
          cases hlook : e.supervision.lookup q with
          | none =>
              rw [hnone m q hlook]
              exact h
          | some sup' =>
              rw [hsome m q sup' hlook]
              exact (AList.lookup_insert_ne hq).trans h
        · right
          exact (List.mem_cons.mp h).resolve_left hq

/-- The restart states of a snapshot. -/
theorem Engine.lookup_persistedFor {e : Engine} {ids : List Uuid} {p : Uuid} {sup : PaneSupervisor}
    (hp : p ∈ ids) (hsup : e.supervision.lookup p = some sup) :
    (e.persistedFor ids).lookup p = some sup.persisted := by
  unfold Engine.persistedFor
  apply lookup_foldl_persisted hsup
  · intro m q sup' hq
    rw [hq]
  · intro m q hq
    rw [hq]
  · exact Or.inr hp

theorem persisted_supervisorOf (policy : RestartPolicy) (restart : Option PersistedRestartState) :
    (supervisorOf policy restart).persisted = normalizeRestart policy restart := by
  cases restart with
  | none => rfl
  | some p =>
      obtain ⟨policy, state, restartCount, restartLogMs, consecutiveFailures, lastExit⟩ := p
      cases state <;> rfl

/-- INTERNAL: The snapshot of a loaded leaf is its normal record.
SRC: persistence.rs:100-144 -/
theorem leafRecord_of_holds {e : Engine} {policy : RestartPolicy} {leaves : List PersistedPaneRecord}
    {r : PersistedPaneRecord} (h : e.Holds policy leaves) (hr : r ∈ leaves) :
    leafRecord e.panes (e.persistedFor (leaves.map PersistedPaneRecord.paneId)) r.paneId =
      normalizeLeaf policy r := by
  obtain ⟨hpane, hsup⟩ := h r hr
  have hrestart := Engine.lookup_persistedFor (List.mem_map_of_mem hr) hsup
  unfold leafRecord
  rw [hpane, hrestart, persisted_supervisorOf]
  rfl

theorem filter_getD_default (policy : Option RestartPolicy) :
    (some (policy.getD RestartPolicy.default)).filter (fun p => p ≠ RestartPolicy.default) =
      policy.filter fun p => p ≠ RestartPolicy.default := by
  cases policy with
  | none => simp
  | some p => rfl

/-- INTERNAL: A record loaded into an empty engine is snapshotted as its normal form.
SRC: engine.rs:348-438 -/
theorem snapshot_loadPersisted {r : PersistedSessionRecord} (hvalid : r.validate = .ok ())
    (hids : r.paneIds.Nodup) :
    (Engine.new.loadPersisted [r]).snapshotPersistedRecord r.sessionId = some r.normalize := by
  have hempty : Engine.new.Holds r.policy [] := fun x hx => absurd hx List.not_mem_nil
  have hholds : (Engine.new.loadPersisted [r]).Holds r.policy (windowLeaves r.windows) :=
    Engine.holds_loadWindows r.sessionId r.windows hempty hids
  have hsession : (Engine.new.loadPersisted [r]).sessions.lookup r.sessionId = some r.live := by
    apply (loadPersisted_lookup [r] r.sessionId r.live).mpr
    exact ⟨r, List.mem_singleton_self r, rfl, rfl⟩
  have hwindows : r.live.windows.map (fun w => (⟨w.id, w.name, w.layout.fromLive
      (Engine.new.loadPersisted [r]).panes
      ((Engine.new.loadPersisted [r]).persistedFor r.live.leaves)⟩ : PersistedWindowRecord)) =
        r.normalize.windows := by
    rw [r.leaves_live]
    show (r.windows.map PersistedWindowRecord.live).map _ = _
    rw [List.map_map]
    apply List.map_congr_left
    intro w hw
    simp only [Function.comp_apply, PersistedWindowRecord.live, LayoutTree.fromLive_eq,
      LayoutTree.map_map]
    congr 1
    apply LayoutTree.map_congr
    intro x hx
    exact leafRecord_of_holds hholds (List.mem_flatMap.mpr ⟨w, hw, hx⟩)
  unfold Engine.snapshotPersistedRecord
  rw [hsession, Option.map_some, fromSessionStateWithRestart, hwindows,
    ← r.validate_schemaVersion hvalid]
  congr 1
  unfold PersistedSessionRecord.normalize
  congr 1
  exact filter_getD_default r.defaultRestartPolicy

/-! ## Daemon restarts -/

/-- One daemon restart: the record is loaded if it passes `validate`, and written back.
SRC: persistence.rs:311-350, engine.rs:348-438 -/
def restartDaemon (r : PersistedSessionRecord) : Option PersistedSessionRecord :=
  match r.validate with
  | .error _ => none
  | .ok () => (Engine.new.loadPersisted [r]).snapshotPersistedRecord r.sessionId

def restartDaemons : ℕ → PersistedSessionRecord → Option PersistedSessionRecord
  | 0, r => some r
  | n + 1, r => (restartDaemon r).bind (restartDaemons n)

/-- All of a record but the restart states and the default policy. -/
def PersistedSessionRecord.durable (r : PersistedSessionRecord) : PersistedSessionRecord :=
  { r with
    windows := r.windows.map fun w =>
      { w with layout := w.layout.map fun leaf => { leaf with restart := none } }
    defaultRestartPolicy := none }

theorem PersistedSessionRecord.durable_normalize (r : PersistedSessionRecord) :
    r.normalize.durable = r.durable := by
  unfold PersistedSessionRecord.durable PersistedSessionRecord.normalize
  simp only [List.map_map]
  congr 1
  apply List.map_congr_left
  intro w _
  simp only [Function.comp_apply, LayoutTree.map_map]
  rfl

theorem PersistedSessionRecord.validate_normalize (r : PersistedSessionRecord) :
    r.normalize.validate = r.validate := by
  have hforM : ∀ ws : List PersistedWindowRecord,
      ((ws.map fun w => { w with layout := w.layout.map (normalizeLeaf r.policy) }).forM
        fun w => w.layout.validateStructure) = ws.forM fun w => w.layout.validateStructure := by
    intro ws
    induction ws with
    | nil => rfl
    | cons w ws ih =>
        rw [List.map_cons, List.forM, List.forM, ih, LayoutTree.validateStructure_map]
  unfold PersistedSessionRecord.validate PersistedSessionRecord.normalize
  simp only [hforM]

theorem PersistedSessionRecord.paneIds_normalize (r : PersistedSessionRecord) :
    r.normalize.paneIds = r.paneIds := by
  unfold PersistedSessionRecord.paneIds windowLeaves PersistedSessionRecord.normalize
  simp only [List.map_flatMap, List.flatMap_map, LayoutTree.leaves_map, List.map_map]
  rfl

/-- INTERNAL: Any number of daemon restarts succeed and keep the durable part. The induction is on
the number of restarts; the normal form passes the same checks as the record. -/
theorem restartDaemons_durable (n : ℕ) {r : PersistedSessionRecord} (hvalid : r.validate = .ok ())
    (hids : r.paneIds.Nodup) : ∃ s, restartDaemons n r = some s ∧ s.durable = r.durable := by
  induction n generalizing r with
  | zero => exact ⟨r, rfl, rfl⟩
  | succ n ih =>
      have hvalid' : r.normalize.validate = .ok () := by
        rw [r.validate_normalize]
        exact hvalid
      have hids' : r.normalize.paneIds.Nodup := by
        rw [r.paneIds_normalize]
        exact hids
      obtain ⟨s, hs, hdurable⟩ := ih hvalid' hids'
      refine ⟨s, ?_, hdurable.trans r.durable_normalize⟩
      rw [restartDaemons, restartDaemon, hvalid]
      dsimp only
      rw [snapshot_loadPersisted hvalid hids]
      exact hs

end Tymux.Model.Persistence
