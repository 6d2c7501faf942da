import Tymux.Analysis.StoredRecords

/-!
# Persists and deletes in any order

Each step of a call keeps `RecInv` as long as no session is removed between the layout change of a
split and its snapshot: no call panics then, and every call that changed a session gets to persist
it.
-/

set_option autoImplicit false

namespace Tymux.Analysis.Records

open Tymux.Model Tymux.Lib RecordState

section Steps

variable {s s' : RecordState} {c : ℕ}

/-! ## Locks that are not poisoned -/

theorem Calm.withSessions (h : Calm s) {k : Option RecordState}
    (hk : s.withSessions c k = some s') : s.sessionsLock = none ∧ k = some s' := by
  unfold RecordState.withSessions at hk
  rw [h.1] at hk
  split at hk
  case isTrue hp => cases hp
  case isFalse =>
      split at hk
      case isTrue hfree => exact ⟨hfree, hk⟩
      case isFalse => cases hk

theorem Calm.withPanes (h : Calm s) {k : Option RecordState} (hk : s.withPanes c k = some s') :
    k = some s' := by
  unfold RecordState.withPanes at hk
  rw [h.2.1] at hk
  split at hk
  case isTrue hp => cases hp
  case isFalse =>
      split at hk
      case isTrue => exact hk
      case isFalse => cases hk

theorem Calm.withPersist (h : Calm s) {k : Option RecordState}
    (hk : s.withPersist c k = some s') : s.persistLock = none ∧ k = some s' := by
  unfold RecordState.withPersist at hk
  rw [h.2.2] at hk
  split at hk
  case isTrue hp => cases hp
  case isFalse =>
      split at hk
      case isTrue hfree => exact ⟨hfree, hk⟩
      case isFalse => cases hk

/-! ## Moves -/

/-- INTERNAL: the call goes on at `next`, with no less to do than before; it may register its pane or
put it into the reverse index. -/
theorem RecInv.grows (h : RecInv s) {pc next : RecordCall} (hpc : s.calls.lookup c = some pc)
    (hcalls : s'.calls = s.calls.insert c next) (hkeeps : KeepsRecords s s') (hcalm : Calm s')
    (hmaps : Frame c s s' → Maps s') (hentries : s.entries ⊆ s'.entries)
    (hlock : s'.persistLock = s.persistLock) (hpolicy : ∀ sid ps, next ≠ .policyEach sid ps)
    (hreg : ∀ sid p, registering pc = some (sid, p) →
      p ∈ s'.entries ∨ registering next = some (sid, p))
    (hpers : ∀ sid, persisting s.owing c pc = some sid → persisting s.owing c next = some sid)
    (hsave : saving pc = none ∧ saving next = none) (hok : Frame c s s' → CallOk s' c next) :
    RecInv s' := by
  have hlock' : ∀ c', c' ≠ c → s.persistLock = some c' → s'.persistLock = some c' := by
    intro c' _ hl
    rw [hlock]
    exact hl
  have hduty : Dutiful c s s' (some next) := by
    apply dutiful_of_eq (some next) hpc
    · intro sid ps hnext
      exact hpolicy sid ps (Option.some_inj.mp hnext)
    · exact hreg
    · exact hpers
    · exact hsave.1
    · exact hsave.2
  have hframe : Frame c s s' := frame_of_quiet (some next) hcalls hkeeps hduty.policy hlock'
  refine h.quiet (some next) hcalls hkeeps hcalm (hmaps hframe) hlock' ?_ hduty ?_
  · intro sid p _ hp
    exact hentries hp
  · intro _ pc' hnext
    cases hnext
    exact hok hframe

/-- The call goes on at `next`, and only locks change. -/
theorem RecInv.moved (h : RecInv s) {pc next : RecordCall} (hpc : s.calls.lookup c = some pc)
    (hcalls : s'.calls = s.calls.insert c next) (hkeeps : KeepsRecords s s') (hcalm : Calm s')
    (hpanes : s'.paneWindow = s.paneWindow) (hwindows : s'.windowSession = s.windowSession)
    (hentries : s'.entries = s.entries) (hlock : s'.persistLock = s.persistLock)
    (hpolicy : ∀ sid ps, next ≠ .policyEach sid ps)
    (hreg : ∀ sid p, registering pc = some (sid, p) → registering next = some (sid, p))
    (hpers : ∀ sid, persisting s.owing c pc = some sid → persisting s.owing c next = some sid)
    (hsave : saving pc = none ∧ saving next = none) (hok : Frame c s s' → CallOk s' c next) :
    RecInv s' := by
  refine h.grows hpc hcalls hkeeps hcalm (fun hframe => hframe.maps h.maps hpanes hwindows) ?_ hlock
    hpolicy ?_ hpers hsave hok
  · rw [hentries]
  · intro sid p hr
    exact Or.inr (hreg sid p hr)

/-- A call returns that has nothing to register and nothing to persist. -/
theorem RecInv.finished (h : RecInv s) {pc : RecordCall} (hpc : s.calls.lookup c = some pc)
    (hreg : registering pc = none) (hpers : persisting s.owing c pc = none)
    (hsave : saving pc = none) : RecInv (s.finish c) := by
  refine h.moves none rfl ⟨rfl, rfl, rfl, rfl, rfl, rfl⟩ h.calm rfl rfl rfl rfl ?_ ?_
  · apply dutiful_of_eq none hpc
    · intro sid ps hnext
      cases hnext
    · intro sid p hr
      rw [hreg] at hr
      cases hr
    · intro sid hp
      rw [hpers] at hp
      cases hp
    · exact hsave
    · rfl
  · intro _ pc' hnext
    cases hnext

theorem Maps.insertPane (h : Maps s) {p w sid : Uuid} (hhome : s.home.lookup p = some (w, sid))
    (hpanes : s'.paneWindow = s.paneWindow.insert p w) (hs' : s'.home = s.home)
    (hwindows : ∀ v t, s'.windowSession.lookup v = some t →
      s.windowSession.lookup v = some t ∨ v = w ∧ t = sid) : Maps s' where
  panes q v hq := by
    rw [hs']
    rw [hpanes] at hq
    by_cases heq : q = p
    · subst heq
      rw [AList.lookup_insert, Option.some_inj] at hq
      subst hq
      exact ⟨sid, hhome⟩
    · rw [AList.lookup_insert_ne heq] at hq
      exact h.panes q v hq
  windows v t hv := by
    rw [hs']
    rcases hwindows v t hv with hold | ⟨rfl, rfl⟩
    · exact h.windows v t hold
    · exact ⟨p, hhome⟩

/-! ## Changes of a session -/

/-- The call has neither registered nor persisted anything yet. -/
def Idle (s : RecordState) (c : ℕ) (pc : RecordCall) : Prop :=
  registering pc = none ∧ persisting s.owing c pc = none ∧ saving pc = none

theorem Idle.lookup {pc : RecordCall} (h : Idle s c pc) (hpc : s.calls.lookup c = some pc) :
    ∀ pc', s.calls.lookup c = some pc' →
      registering pc' = none ∧ persisting s.owing c pc' = none ∧ saving pc' = none := by
  intro pc' hpc'
  rw [hpc, Option.some_inj] at hpc'
  exact hpc' ▸ h

theorem lookup_insert_session {sid sid' : Uuid} {st : NamedSession}
    (hsessions : s'.sessions = s.sessions.insert sid st) (hsid : sid' ≠ sid) :
    s'.sessions.lookup sid' = s.sessions.lookup sid' := by
  rw [hsessions, AList.lookup_insert_ne hsid]

theorem mem_of_insert_session {sid sid' : Uuid} {st : NamedSession}
    (hsessions : s'.sessions = s.sessions.insert sid st) (hmem : sid' ∈ s'.sessions) :
    sid' = sid ∨ sid' ∈ s.sessions := by
  rw [hsessions] at hmem
  exact AList.mem_insert _ |>.mp hmem

/-- What a call that changes a session leaves as it is. -/
structure KeepsRest (s s' : RecordState) : Prop where
  store : s'.store = s.store
  deleted : s'.deleted = s.deleted
  paneWindow : s'.paneWindow = s.paneWindow
  windowSession : s'.windowSession = s.windowSession
  entries : s'.entries = s.entries
  persistLock : s'.persistLock = s.persistLock

/-- INTERNAL: a pane is made, in a new window or beside another, and perhaps in a new session.
SRC: engine.rs:491-508, 689-714, 862-872 -/
theorem RecInv.makes (h : RecInv s) {pc next : RecordCall} (hpc : s.calls.lookup c = some pc)
    (hidle : Idle s c pc) (hcalls : s'.calls = s.calls.insert c next) (hrest : KeepsRest s s')
    (hcalm : Calm s') (howing : s'.owing = s.owing) {sid w p : Uuid} {st' : NamedSession}
    (hsessions : s'.sessions = s.sessions.insert sid st')
    (hhome : s'.home = s.home.insert p (w, sid)) (hnew : s.nextId ≤ p)
    (hlt : p < s'.nextId ∧ w < s'.nextId ∧ sid < s'.nextId) (hle : s.nextId ≤ s'.nextId)
    (hwindow : ∀ q sid', s.home.lookup q = some (w, sid') → sid' = sid)
    (hsid : sid ∈ s.sessions ∨ s.nextId ≤ sid) (hsane : Sane st'.windows)
    (hplaces : ∀ e ∈ places st'.windows, e = (p, w) ∨
      ∃ st, s.sessions.lookup sid = some st ∧ e ∈ places st.windows)
    (hreg : registering next = some (sid, p))
    (hok : s'.home.lookup p = some (w, sid) → CallOk s' c next) : RecInv s' := by
  have hpolicy : ∀ sid' ps, some next ≠ some (.policyEach sid' ps) := by
    rintro sid' ps ⟨rfl⟩
    cases hreg
  have hleaf : ∀ q, LeafOf s' sid q → LeafOf s sid q ∨ some p = some q := by
    rintro q ⟨st'', v, hst, hmem⟩
    rw [hsessions, AList.lookup_insert, Option.some_inj] at hst
    subst hst
    rcases hplaces _ hmem with heq | ⟨st, hst, hold⟩
    · cases heq
      exact Or.inr rfl
    · exact Or.inl ⟨st, v, hst, hold⟩
  have hmem : ∀ c' ps, s.calls.lookup c' = some (.policyEach sid ps) → sid ∈ s'.sessions →
      sid ∈ s.sessions := by
    intro c' ps hpc' _
    rcases hsid with hsid | hsid
    · exact hsid
    · exact absurd (h.calls c' _ hpc').1 (Nat.not_lt.mpr hsid)
  have hwanted : ∀ sid' q, Wanted s' sid' q → Wanted s sid' q ∨ sid' = sid ∧ some p = some q :=
    fun sid' q hq => wanted_of_session (some next) sid hcalls
      (fun sid'' hne => lookup_insert_session hsessions hne) (some p) hleaf hpolicy howing hmem hq
  have hframe : Frame c s s' := by
    refine ⟨lookup_other (some next) hcalls, hle, ?_, ?_, ?_, ?_, ?_⟩
    · intro q v hq
      rw [hhome, AList.lookup_insert_ne ?_]
      · exact hq
      · rintro rfl
        rw [h.shape.home_fresh hnew] at hq
        cases hq
    · intro sid' hr hmem'
      rcases mem_of_insert_session hsessions hmem' with rfl | hold
      · rcases hsid with hsid | hsid
        · exact hr.2 hsid
        · exact absurd hr.1 (Nat.not_lt.mpr hsid)
      · exact hr.2 hold
    · rintro sid' q hq ⟨st'', v, hst, hmem'⟩
      by_cases heq : sid' = sid
      · subst heq
        rcases hleaf q ⟨st'', v, hst, hmem'⟩ with hold | hnew'
        · exact hold
        · cases hnew'
          exact absurd hq (Nat.not_lt.mpr hnew)
      · rw [lookup_insert_session hsessions heq] at hst
        exact ⟨st'', v, hst, hmem'⟩
    · intro sid' q hq hw
      rcases hwanted sid' q hw with hold | ⟨-, hnew'⟩
      · exact hold
      · cases hnew'
        exact absurd hq (Nat.not_lt.mpr hnew)
    · intro c' _ hl
      rw [hrest.persistLock]
      exact hl
  refine h.session (some next) sid hcalls
    (fun sid' hne => lookup_insert_session hsessions hne) hrest.store hrest.deleted hcalm
    hrest.paneWindow hrest.windowSession hrest.entries (by rw [howing]) hframe ?_
    (hidle.lookup hpc) ?_ ?_ ?_ ?_
  · exact h.shape.grow hnew hlt.2.1 hwindow hlt.1 hle hlt.2.2 hsane hplaces hsessions hhome
  · rintro pc' ⟨rfl⟩
    cases next <;> first | rfl | cases hreg
  · intro _
    exact persisting_of_registering hreg s'.owing c
  · intro sid' q hw
    rcases hwanted sid' q hw with hold | ⟨rfl, hnew'⟩
    · exact Or.inl hold
    · cases hnew'
      exact Or.inr hreg
  · rintro pc' ⟨rfl⟩
    apply hok
    rw [hhome]
    exact AList.lookup_insert _

/-- INTERNAL: a session is changed that the call is going to persist; it has no new pane.
SRC: engine.rs:747-797, 1293-1343 -/
theorem RecInv.changes (h : RecInv s) {pc next : RecordCall} (hpc : s.calls.lookup c = some pc)
    (hidle : Idle s c pc) (hcalls : s'.calls = s.calls.insert c next) (hrest : KeepsRest s s')
    (hcalm : Calm s') (howing : s'.owing = s.owing) (hhome : s'.home = s.home)
    (hnextId : s'.nextId = s.nextId) {sid : Uuid} {st st' : NamedSession}
    (hst : s.sessions.lookup sid = some st) (hsessions : s'.sessions = s.sessions.insert sid st')
    (hsane : Sane st'.windows) (hplaces : ∀ e ∈ places st'.windows, e ∈ places st.windows)
    (hpolicy : ∀ sid' ps, next ≠ .policyEach sid' ps)
    (hpersist : persisting s.owing c next = some sid) (hsave : saving next = none)
    (hok : Frame c s s' → CallOk s' c next) : RecInv s' := by
  have hleaf : ∀ q, LeafOf s' sid q → LeafOf s sid q := by
    rintro q ⟨st'', v, hst'', hmem⟩
    rw [hsessions, AList.lookup_insert, Option.some_inj] at hst''
    subst hst''
    exact ⟨st, v, hst, hplaces _ hmem⟩
  have hwanted : ∀ sid' q, Wanted s' sid' q → Wanted s sid' q := by
    intro sid' q hq
    have hcases := wanted_of_session (some next) sid hcalls
      (fun sid'' hne => lookup_insert_session hsessions hne) none (fun q hq => Or.inl (hleaf q hq))
      (fun sid'' ps hnext => hpolicy sid'' ps (Option.some_inj.mp hnext)) howing
      (fun _ _ _ _ => mem_of_lookup hst) hq
    rcases hcases with hold | ⟨-, hnone⟩
    · exact hold
    · cases hnone
  have hframe : Frame c s s' := by
    refine ⟨lookup_other (some next) hcalls, Nat.le_of_eq hnextId.symm, ?_, ?_, ?_, ?_, ?_⟩
    · intro q v hq
      rw [hhome]
      exact hq
    · intro sid' hr hmem'
      rcases mem_of_insert_session hsessions hmem' with rfl | hold
      · exact hr.2 (mem_of_lookup hst)
      · exact hr.2 hold
    · rintro sid' q - ⟨st'', v, hst'', hmem⟩
      by_cases heq : sid' = sid
      · subst heq
        exact hleaf q ⟨st'', v, hst'', hmem⟩
      · rw [lookup_insert_session hsessions heq] at hst''
        exact ⟨st'', v, hst'', hmem⟩
    · exact fun sid' q _ hq => hwanted sid' q hq
    · intro c' _ hl
      rw [hrest.persistLock]
      exact hl
  refine h.session (some next) sid hcalls
    (fun sid' hne => lookup_insert_session hsessions hne) hrest.store hrest.deleted hcalm
    hrest.paneWindow hrest.windowSession hrest.entries (by rw [howing]) hframe
    (h.shape.change hst hsane hplaces hsessions hhome hnextId) (hidle.lookup hpc) ?_ ?_
    (fun sid' q hq => Or.inl (hwanted sid' q hq)) ?_
  · rintro pc' ⟨rfl⟩
    exact hsave
  · intro _
    rw [howing]
    exact hpersist
  · rintro pc' ⟨rfl⟩
    exact hok hframe

/-- INTERNAL: a session is removed.
SRC: engine.rs:588-594, 788-789 -/
theorem RecInv.erases (h : RecInv s) {pc next : RecordCall} (hpc : s.calls.lookup c = some pc)
    (hidle : Idle s c pc) (hcalls : s'.calls = s.calls.insert c next) (hrest : KeepsRest s s')
    (hcalm : Calm s') (howing : s'.owing = s.owing) (hhome : s'.home = s.home)
    (hnextId : s'.nextId = s.nextId) {sid : Uuid} {st : NamedSession}
    (hst : s.sessions.lookup sid = some st) (hsessions : s'.sessions = s.sessions.erase sid)
    (hpolicy : ∀ sid' ps, next ≠ .policyEach sid' ps) (hsave : saving next = none)
    (hok : Frame c s s' → Removed s' sid → CallOk s' c next) : RecInv s' := by
  have hgone : sid ∉ s'.sessions := by
    rw [hsessions, AList.mem_erase]
    exact fun hmem => hmem.1 rfl
  have hwanted : ∀ sid' q, Wanted s' sid' q → Wanted s sid' q := by
    intro sid' q hq
    have hcases := wanted_of_session (some next) sid hcalls
      (fun sid'' hne => by rw [hsessions, AList.lookup_erase_ne hne]) none
      (fun q hq => absurd hq.mem hgone)
      (fun sid'' ps hnext => hpolicy sid'' ps (Option.some_inj.mp hnext)) howing
      (fun _ _ _ _ => mem_of_lookup hst) hq
    rcases hcases with hold | ⟨-, hnone⟩
    · exact hold
    · cases hnone
  have hframe : Frame c s s' := by
    refine ⟨lookup_other (some next) hcalls, Nat.le_of_eq hnextId.symm, ?_, ?_, ?_, ?_, ?_⟩
    · intro q v hq
      rw [hhome]
      exact hq
    · intro sid' hr hmem'
      rw [hsessions, AList.mem_erase] at hmem'
      exact hr.2 hmem'.2
    · rintro sid' q - ⟨st'', v, hst'', hmem⟩
      exact ⟨st'', v, (lookup_of_erase (hsessions ▸ hst'')).2, hmem⟩
    · exact fun sid' q _ hq => hwanted sid' q hq
    · intro c' _ hl
      rw [hrest.persistLock]
      exact hl
  refine h.session (some next) sid hcalls
    (fun sid' hne => by rw [hsessions, AList.lookup_erase_ne hne]) hrest.store hrest.deleted hcalm
    hrest.paneWindow hrest.windowSession hrest.entries (by rw [howing]) hframe
    (h.shape.erase hsessions hhome hnextId) (hidle.lookup hpc) ?_ ?_
    (fun sid' q hq => Or.inl (hwanted sid' q hq)) ?_
  · rintro pc' ⟨rfl⟩
    exact hsave
  · intro hmem
    exact absurd hmem hgone
  · rintro pc' ⟨rfl⟩
    refine hok hframe ⟨?_, hgone⟩
    rw [hnextId]
    exact h.shape.lookup_lt hst

theorem exists_place {st : NamedSession} {p : Uuid} (h : p ∈ st.leaves) :
    ∃ w, (p, w) ∈ places st.windows := by
  have hmem : p ∈ (places st.windows).map Prod.fst := by
    rw [map_fst_places]
    exact h
  obtain ⟨⟨q, w⟩, hplace, rfl⟩ := List.mem_map.mp hmem
  exact ⟨w, hplace⟩

/-- INTERNAL: the default policy of a session is changed; its panes are on the list of the call.
SRC: engine.rs:1137-1150 -/
theorem RecInv.changesPolicy (h : RecInv s) {pc : RecordCall} (hpc : s.calls.lookup c = some pc)
    (hidle : Idle s c pc) {sid : Uuid} {st : NamedSession} (hst : s.sessions.lookup sid = some st)
    (policy : RestartPolicy) {ps : List Uuid} (hps : ∀ p ∈ ps, p ∈ st.leaves) {s' : RecordState}
    (hs' : s' = { s.setSession sid { st with defaultRestartPolicy := policy } with
      owing := insert (c, sid) s.owing }.goto c (.policyEach sid ps)) : RecInv s' := by
  have hsessions : s'.sessions = s.sessions.insert sid { st with defaultRestartPolicy := policy } := by
    rw [hs']
    rfl
  have hcalls : s'.calls = updateCall s.calls c (some (.policyEach sid ps)) := by
    rw [hs']
    rfl
  have howing : s'.owing = insert (c, sid) s.owing := by
    rw [hs']
    rfl
  have hleaf : ∀ sid' q, LeafOf s' sid' q → LeafOf s sid' q := by
    rintro sid' q ⟨st', v, hst', hmem⟩
    by_cases heq : sid' = sid
    · subst heq
      rw [hsessions, AList.lookup_insert, Option.some_inj] at hst'
      subst hst'
      exact ⟨st, v, hst, hmem⟩
    · rw [lookup_insert_session hsessions heq] at hst'
      exact ⟨st', v, hst', hmem⟩
  have hmem : ∀ sid', sid' ∈ s'.sessions → sid' ∈ s.sessions := by
    intro sid' hmem
    rcases mem_of_insert_session hsessions hmem with rfl | hold
    · exact mem_of_lookup hst
    · exact hold
  have hwanted : ∀ sid' q, Wanted s' sid' q → Wanted s sid' q := by
    rintro sid' q (hl | ⟨hmem', c', panes, hpc', hown, hq⟩)
    · exact Or.inl (hleaf sid' q hl)
    · by_cases hc : c' = c
      · subst hc
        rw [lookup_next _ hcalls, Option.some_inj] at hpc'
        cases hpc'
        obtain ⟨w, hplace⟩ := exists_place (hps q hq)
        exact Or.inl ⟨st, w, hst, hplace⟩
      · rw [lookup_other _ hcalls c' hc] at hpc'
        rw [howing, Finset.mem_insert] at hown
        refine Or.inr ⟨hmem sid' hmem', c', panes, hpc', ?_, hq⟩
        rcases hown with heq | hown
        · exact absurd (congrArg Prod.fst heq) hc
        · exact hown
  have hframe : Frame c s s' := by
    refine ⟨lookup_other _ hcalls, Nat.le_of_eq (by rw [hs']; rfl), ?_, ?_, ?_, ?_, ?_⟩
    · intro q v hq
      rw [hs']
      exact hq
    · exact fun sid' hr hmem' => hr.2 (hmem sid' hmem')
    · exact fun sid' q _ hq => hleaf sid' q hq
    · exact fun sid' q _ hq => hwanted sid' q hq
    · intro c' _ hl
      rw [hs']
      exact hl
  have hshape : Shape s' := by
    refine h.shape.change hst ?_ ?_ hsessions (by rw [hs']; rfl) (by rw [hs']; rfl)
    · exact h.shape.sane sid st hst
    · exact fun e he => he
  refine h.session _ sid hcalls (fun sid' hne => lookup_insert_session hsessions hne)
    (by rw [hs']; rfl) (by rw [hs']; rfl) (by rw [hs']; exact h.calm) (by rw [hs']; rfl)
    (by rw [hs']; rfl) (by rw [hs']; rfl) ?_ hframe hshape (hidle.lookup hpc) ?_ ?_
    (fun sid' q hq => Or.inl (hwanted sid' q hq)) ?_
  · rw [howing]
    exact Finset.subset_insert _ _
  · rintro pc' ⟨rfl⟩
    rfl
  · intro _
    rw [howing]
    simp [persisting]
  · rintro pc' ⟨rfl⟩
    refine ⟨?_, ?_⟩
    · rw [hs']
      exact h.shape.lookup_lt hst
    · intro p hp
      obtain ⟨w, hplace⟩ := exists_place (hps p hp)
      exact ⟨w, hframe.home p _ (h.shape.home sid st p w hst hplace)⟩

/-! ## Snapshots, saves and deletes -/

theorem calls_afterPersist (s : RecordState) (c : ℕ) (closing : Option Closing) :
    (s.afterPersist c closing).calls = updateCall s.calls c (closing.map RecordCall.closeIndex) := by
  cases closing <;> rfl

/-- INTERNAL: a pane that was taken out of its session is wanted by nobody once the session is gone
or its policy is in a snapshot. -/
theorem RecInv.unwanted (h : RecInv s) {sid p : Uuid} (hout : TakenOut s sid p)
    (hpolicy : sid ∈ s.sessions → ∀ c, (c, sid) ∉ s.owing) : Unwanted s p := by
  obtain ⟨⟨w, hw⟩, hleaf⟩ := hout
  refine ⟨(h.shape.known p w sid hw).1, ?_⟩
  intro sid' hp
  obtain rfl := h.wanted_session hw hp
  rcases hp with hl | ⟨hmem, c', panes, -, hown, -⟩
  · exact hleaf hl
  · exact hpolicy hmem c' hown

/-- INTERNAL: the session is gone, so that there is nothing to save.
SRC: engine.rs:1051, 440-441 -/
theorem RecInv.snapshotNone (h : RecInv s) {sid : Uuid} {closing : Option Closing}
    (hpc : s.calls.lookup c = some (.persistPanes sid closing))
    (hst : s.sessions.lookup sid = none) {s' : RecordState}
    (hs' : s' = { s with sessionsLock := none, persistLock := none }.afterPersist c closing) :
    RecInv s' := by
  obtain ⟨hlock, hclosing⟩ := h.calls c _ hpc
  have hgone : sid ∉ s.sessions := AList.lookup_eq_none.mp hst
  have hcalls : s'.calls = updateCall s.calls c (closing.map RecordCall.closeIndex) := by
    rw [hs', calls_afterPersist]
  have hsame : KeepsRecords s s' ∧ Calm s' ∧ s'.paneWindow = s.paneWindow ∧
      s'.windowSession = s.windowSession ∧ s'.entries = s.entries := by
    rw [hs']
    cases closing <;> exact ⟨⟨rfl, rfl, rfl, rfl, rfl, rfl⟩, h.calm, rfl, rfl, rfl⟩
  obtain ⟨hkeeps, hcalm, hpanes, hwindows, hentries⟩ := hsame
  refine h.goes _ hcalls hkeeps hcalm hpanes hwindows hentries ?_ ?_ ?_
  · intro c' hc hl
    rw [hlock, Option.some_inj] at hl
    exact absurd hl.symm hc
  · refine ⟨?_, ?_, ?_, ?_, ?_⟩
    · intro sid' ps hnext
      cases closing <;> cases hnext
    · intro pc sid' p hpc' hreg
      rw [hpc, Option.some_inj] at hpc'
      subst hpc'
      cases hreg
    · intro pc sid' hpc' hpers hmem
      rw [hpc, Option.some_inj] at hpc'
      subst hpc'
      cases hpers
      exact absurd hmem hgone
    · intro pc hpc'
      rw [hpc, Option.some_inj] at hpc'
      subst hpc'
      rfl
    · intro pc hnext
      cases closing <;> cases hnext
      rfl
  · intro hframe pc hnext
    obtain ⟨cl, rfl, rfl⟩ := Option.map_eq_some_iff.mp hnext
    exact hframe.unwanted (h.unwanted (hclosing cl rfl) fun hmem => absurd hmem hgone)

/-- INTERNAL: the session is as its snapshot says, and its policy is in it.
SRC: engine.rs:1048-1053, 423-438 -/
theorem RecInv.snapshot (h : RecInv s) {sid : Uuid} {closing : Option Closing}
    (hpc : s.calls.lookup c = some (.persistPanes sid closing)) {st : NamedSession}
    (hst : s.sessions.lookup sid = some st) {s' : RecordState}
    (hs' : s' = { s with
      sessionsLock := none
      owing := s.owing.filter fun o => o.2 ≠ sid }.goto c (.save sid st.record closing)) :
    RecInv s' := by
  obtain ⟨hlock, hclosing⟩ := h.calls c _ hpc
  have hsessions : s'.sessions = s.sessions := by rw [hs']; rfl
  have hcalls : s'.calls = updateCall s.calls c (some (.save sid st.record closing)) := by
    rw [hs']
    rfl
  have howing : ∀ o, o ∈ s'.owing ↔ o ∈ s.owing ∧ o.2 ≠ sid := by
    intro o
    rw [hs']
    exact Finset.mem_filter
  have hself := lookup_next _ hcalls
  have hother := lookup_other _ hcalls
  have hleaf : ∀ sid' q, LeafOf s' sid' q → LeafOf s sid' q := by
    rintro sid' q ⟨st', v, hst', hmem⟩
    rw [hsessions] at hst'
    exact ⟨st', v, hst', hmem⟩
  have hwanted : ∀ sid' q, Wanted s' sid' q → Wanted s sid' q := by
    rintro sid' q (hl | ⟨hmem, c', panes, hpc', hown, hq⟩)
    · exact Or.inl (hleaf sid' q hl)
    · have hc : c' ≠ c := by
        rintro rfl
        rw [hself] at hpc'
        cases hpc'
      rw [hother c' hc] at hpc'
      rw [hsessions] at hmem
      exact Or.inr ⟨hmem, c', panes, hpc', ((howing _).mp hown).1, hq⟩
  have hframe : Frame c s s' := by
    refine ⟨hother, Nat.le_of_eq (by rw [hs']; rfl), ?_, ?_, ?_, ?_, ?_⟩
    · intro q v hq
      rw [hs']
      exact hq
    · intro sid' hr
      rw [hsessions]
      exact hr.2
    · exact fun sid' q _ hq => hleaf sid' q hq
    · exact fun sid' q _ hq => hwanted sid' q hq
    · intro c' _ hl
      rw [hs']
      exact hl
  have hsaves : ∀ c' pc v, s'.calls.lookup c' = some pc → saving pc = some v →
      v = (sid, st.record) ∨ s.calls.lookup c' = some pc := by
    intro c' pc v hpc' hv
    by_cases hc : c' = c
    · subst hc
      rw [hself, Option.some_inj] at hpc'
      subst hpc'
      cases hv
      exact Or.inl rfl
    · rw [hother c' hc] at hpc'
      exact Or.inr hpc'
  refine ⟨by rw [hs']; exact h.calm, h.shape.of_eq hsessions (by rw [hs']; rfl) (by rw [hs']; rfl),
    hframe.maps h.maps (by rw [hs']; rfl) (by rw [hs']; rfl), ?_, ?_, ?_, ?_⟩
  · apply hframe.callsOk h
    intro pc hpc'
    rw [hself, Option.some_inj] at hpc'
    subst hpc'
    refine ⟨by rw [hs']; exact hlock, ?_⟩
    intro cl hcl
    obtain ⟨⟨w, hw⟩, hnot⟩ := hclosing cl hcl
    refine ⟨Nat.lt_of_lt_of_le (h.shape.known cl.1 w sid hw).1 hframe.nextId, ?_⟩
    intro sid' hq
    obtain rfl := h.wanted_session hw (hwanted sid' cl.1 hq)
    rcases hq with hl | ⟨-, c', panes, -, hown, -⟩
    · exact hnot (hleaf sid' cl.1 hl)
    · exact ((howing _).mp hown).2 rfl
  · intro sid' p hq
    rcases h.registered sid' p (hwanted sid' p hq) with hp | ⟨c', pc, hpc', hreg⟩
    · left
      rw [hs']
      exact hp
    · have hc : c' ≠ c := by
        rintro rfl
        rw [hpc, Option.some_inj] at hpc'
        subst hpc'
        cases hreg
      exact Or.inr ⟨c', pc, (hother c' hc).trans hpc', hreg⟩
  · intro sid' st' hst'
    rw [hsessions] at hst'
    by_cases hsid : sid' = sid
    · subst hsid
      rw [hst, Option.some_inj] at hst'
      subst hst'
      exact Or.inr (Or.inl ⟨c, _, hself, rfl⟩)
    · rcases h.saved sid' st' hst' with ⟨c', pc, hpc', hpers⟩ | ⟨c', pc, hpc', hv⟩ | ⟨hstored, hnone⟩
      · have hc : c' ≠ c := by
          rintro rfl
          rw [hpc, Option.some_inj] at hpc'
          subst hpc'
          cases hpers
          exact hsid rfl
        refine Or.inl ⟨c', pc, (hother c' hc).trans hpc', persisting_mono ?_ hpers⟩
        intro hown
        exact (howing _).mpr ⟨hown, hsid⟩
      · have hc : c' ≠ c := by
          rintro rfl
          rw [hpc, Option.some_inj] at hpc'
          subst hpc'
          cases hv
        exact Or.inr (Or.inl ⟨c', pc, (hother c' hc).trans hpc', hv⟩)
      · refine Or.inr (Or.inr ⟨by rw [hs']; exact hstored, ?_⟩)
        intro c' pc record hpc' hv
        rcases hsaves c' pc _ hpc' hv with heq | hold
        · cases heq
          exact hsid rfl
        · exact hnone c' pc record hold hv
  · intro sid' hsid'
    have hdeleted : sid' ∈ s.deleted := by
      rw [hs'] at hsid'
      exact hsid'
    obtain ⟨hr, hgone, hnone⟩ := h.deleted sid' hdeleted
    refine ⟨hframe.removed' hr, by rw [hs']; exact hgone, ?_⟩
    intro c' pc record hpc' hv
    rcases hsaves c' pc _ hpc' hv with heq | hold
    · cases heq
      exact hr.2 (mem_of_lookup hst)
    · exact hnone c' pc record hold hv

theorem RecInv.save_lock (h : RecInv s) {c' : ℕ} {pc : RecordCall} {v : Uuid × SavedRecord}
    (hpc : s.calls.lookup c' = some pc) (hv : saving pc = some v) : s.persistLock = some c' := by
  have hok := h.calls c' pc hpc
  cases pc with
  | save sid record closing => exact hok.1
  | _ => cases hv

/-- INTERNAL: the one call that may write to the store does, for one session, and goes on.
SRC: engine.rs:440-446, 625-626, 803-806 -/
theorem RecInv.stores (h : RecInv s) {pc : RecordCall} (hpc : s.calls.lookup c = some pc) (sid : Uuid)
    {closing : Option Closing} (hreg : registering pc = none)
    (hpers : persisting s.owing c pc = none) (hsave : ∀ v, saving pc = some v → v.1 = sid)
    (hcl : ∀ cl, closing = some cl → Unwanted s cl.1)
    (hlock : ∀ c', s.persistLock = some c' → c' = c)
    (hcalls : s'.calls = updateCall s.calls c (closing.map RecordCall.closeIndex))
    (hsessions : s'.sessions = s.sessions) (hhome : s'.home = s.home)
    (hnextId : s'.nextId = s.nextId) (howing : s'.owing = s.owing) (hcalm : Calm s')
    (hpanes : s'.paneWindow = s.paneWindow) (hwindows : s'.windowSession = s.windowSession)
    (hentries : s'.entries = s.entries)
    (hothers : ∀ sid', sid' ≠ sid → s'.store.lookup sid' = s.store.lookup sid')
    (hcurrent : ∀ st, s.sessions.lookup sid = some st →
      Persists s sid ∨ s'.store.lookup sid = some st.record)
    (hdeleted : ∀ sid' ∈ s'.deleted, Removed s sid' ∧ s'.store.lookup sid' = none) : RecInv s' := by
  have hother := lookup_other _ hcalls
  have hpolicy : ∀ sid' ps, closing.map RecordCall.closeIndex ≠ some (.policyEach sid' ps) := by
    intro sid' ps hnext
    cases closing <;> cases hnext
  have hnosave : ∀ c' pc v, s'.calls.lookup c' = some pc → saving pc ≠ some v := by
    intro c' pc' v hpc' hv
    by_cases hc : c' = c
    · subst hc
      rw [lookup_next _ hcalls] at hpc'
      obtain ⟨cl, -, rfl⟩ := Option.map_eq_some_iff.mp hpc'
      cases hv
    · rw [hother c' hc] at hpc'
      exact hc (hlock c' (h.save_lock hpc' hv))
  have hwanted : ∀ sid' q, Wanted s' sid' q → Wanted s sid' q := fun sid' q hq =>
    wanted_of_quiet _ hcalls hsessions howing (fun sid'' ps hnext => absurd hnext (hpolicy sid'' ps)) hq
  have hframe : Frame c s s' := by
    refine ⟨hother, Nat.le_of_eq hnextId.symm, ?_, ?_, ?_, ?_, ?_⟩
    · intro q v hq
      rw [hhome]
      exact hq
    · intro sid' hr
      rw [hsessions]
      exact hr.2
    · rintro sid' q - ⟨st', v, hst', hmem⟩
      rw [hsessions] at hst'
      exact ⟨st', v, hst', hmem⟩
    · exact fun sid' q _ hq => hwanted sid' q hq
    · intro c' hc hl
      exact absurd (hlock c' hl) hc
  have hpersists : ∀ sid', Persists s sid' → Persists s' sid' := by
    rintro sid' ⟨c', pc', hpc', hp⟩
    have hc : c' ≠ c := by
      rintro rfl
      rw [hpc, Option.some_inj] at hpc'
      subst hpc'
      rw [hpers] at hp
      cases hp
    exact ⟨c', pc', (hother c' hc).trans hpc', by rw [howing]; exact hp⟩
  refine ⟨hcalm, h.shape.of_eq hsessions hhome hnextId, hframe.maps h.maps hpanes hwindows, ?_, ?_, ?_,
    ?_⟩
  · apply hframe.callsOk h
    intro pc' hpc'
    rw [lookup_next _ hcalls] at hpc'
    obtain ⟨cl, hcl', rfl⟩ := Option.map_eq_some_iff.mp hpc'
    exact hframe.unwanted (hcl cl hcl')
  · intro sid' p hq
    rcases h.registered sid' p (hwanted sid' p hq) with hp | ⟨c', pc', hpc', hr⟩
    · left
      rw [hentries]
      exact hp
    · have hc : c' ≠ c := by
        rintro rfl
        rw [hpc, Option.some_inj] at hpc'
        subst hpc'
        rw [hreg] at hr
        cases hr
      exact Or.inr ⟨c', pc', (hother c' hc).trans hpc', hr⟩
  · intro sid' st' hst'
    rw [hsessions] at hst'
    by_cases hsid : sid' = sid
    · subst hsid
      rcases hcurrent st' hst' with hp | hstored
      · exact Or.inl (hpersists sid' hp)
      · exact Or.inr (Or.inr ⟨hstored, fun c' pc' record hpc' => hnosave c' pc' _ hpc'⟩)
    · rcases h.saved sid' st' hst' with hp | ⟨c', pc', hpc', hv⟩ | ⟨hstored, -⟩
      · exact Or.inl (hpersists sid' hp)
      · have hc := hlock c' (h.save_lock hpc' hv)
        subst hc
        rw [hpc, Option.some_inj] at hpc'
        subst hpc'
        exact absurd (hsave _ hv) hsid
      · exact Or.inr (Or.inr ⟨(hothers sid' hsid).trans hstored,
          fun c' pc' record hpc' => hnosave c' pc' _ hpc'⟩)
  · intro sid' hsid'
    obtain ⟨hr, hgone⟩ := hdeleted sid' hsid'
    exact ⟨hframe.removed' hr, hgone, fun c' pc' record hpc' => hnosave c' pc' _ hpc'⟩

/-- INTERNAL: the snapshot is written; nobody else has written since it was taken.
SRC: engine.rs:1054, 440-446 -/
theorem RecInv.saves (h : RecInv s) {sid : Uuid} {record : SavedRecord} {closing : Option Closing}
    (hpc : s.calls.lookup c = some (.save sid record closing)) {s' : RecordState}
    (hs' : s' = { s with
      store := s.store.insert sid record
      persistLock := none }.afterPersist c closing) : RecInv s' := by
  obtain ⟨hlock, hclosing⟩ := h.calls c _ hpc
  have hstore : s'.store = s.store.insert sid record := by
    rw [hs']
    cases closing <;> rfl
  have hsame : s'.sessions = s.sessions ∧ s'.home = s.home ∧ s'.nextId = s.nextId ∧
      s'.owing = s.owing ∧ Calm s' ∧ s'.paneWindow = s.paneWindow ∧
      s'.windowSession = s.windowSession ∧ s'.entries = s.entries ∧ s'.deleted = s.deleted := by
    rw [hs']
    cases closing <;> exact ⟨rfl, rfl, rfl, rfl, h.calm, rfl, rfl, rfl, rfl⟩
  obtain ⟨hsessions, hhome, hnextId, howing, hcalm, hpanes, hwindows, hentries, hdeleted⟩ := hsame
  refine h.stores hpc sid rfl rfl ?_ hclosing ?_ (by rw [hs', calls_afterPersist]) hsessions
    hhome hnextId howing hcalm hpanes hwindows hentries ?_ ?_ ?_
  · rintro v ⟨rfl⟩
    rfl
  · intro c' hl
    rw [hlock, Option.some_inj] at hl
    exact hl.symm
  · intro sid' hne
    rw [hstore, AList.lookup_insert_ne hne]
  · intro st hst
    rcases h.saved sid st hst with hp | ⟨c', pc', hpc', hv⟩ | ⟨-, hnone⟩
    · exact Or.inl hp
    · have hc := h.save_lock hpc' hv
      rw [hlock, Option.some_inj] at hc
      subst hc
      rw [hpc, Option.some_inj] at hpc'
      subst hpc'
      cases hv
      right
      rw [hstore]
      exact AList.lookup_insert _
    · exact absurd rfl (hnone c _ record hpc)
  · intro sid' hmem
    rw [hdeleted] at hmem
    obtain ⟨hr, hgone, hnone⟩ := h.deleted sid' hmem
    have hne : sid' ≠ sid := by
      rintro rfl
      exact hnone c _ record hpc rfl
    exact ⟨hr, by rw [hstore, AList.lookup_insert_ne hne]; exact hgone⟩

/-- INTERNAL: the record of a removed session is deleted, when no save is on its way.
SRC: engine.rs:625-626, 803-806 -/
theorem RecInv.deletes (h : RecInv s) {sid : Uuid} {closing : Option Closing}
    (hpc : s.calls.lookup c = some (.delete sid closing)) (hfree : s.persistLock = none)
    {s' : RecordState}
    (hs' : s' = { s with
      store := s.store.erase sid
      deleted := insert sid s.deleted }.afterPersist c closing) : RecInv s' := by
  obtain ⟨hremoved, hclosing⟩ := h.calls c _ hpc
  have hstore : s'.store = s.store.erase sid := by
    rw [hs']
    cases closing <;> rfl
  have hsame : s'.sessions = s.sessions ∧ s'.home = s.home ∧ s'.nextId = s.nextId ∧
      s'.owing = s.owing ∧ Calm s' ∧ s'.paneWindow = s.paneWindow ∧
      s'.windowSession = s.windowSession ∧ s'.entries = s.entries ∧
      s'.deleted = insert sid s.deleted := by
    rw [hs']
    cases closing <;> exact ⟨rfl, rfl, rfl, rfl, h.calm, rfl, rfl, rfl, rfl⟩
  obtain ⟨hsessions, hhome, hnextId, howing, hcalm, hpanes, hwindows, hentries, hdeleted⟩ := hsame
  refine h.stores hpc sid rfl rfl ?_ hclosing ?_ (by rw [hs', calls_afterPersist]) hsessions
    hhome hnextId howing hcalm hpanes hwindows hentries ?_ ?_ ?_
  · rintro v ⟨⟩
  · intro c' hl
    rw [hfree] at hl
    cases hl
  · intro sid' hne
    rw [hstore, AList.lookup_erase_ne hne]
  · intro st hst
    exact absurd (mem_of_lookup hst) hremoved.2
  · intro sid' hmem
    rw [hdeleted, Finset.mem_insert] at hmem
    by_cases hsid : sid' = sid
    · subst hsid
      exact ⟨hremoved, by rw [hstore]; exact AList.lookup_erase ..⟩
    · obtain ⟨hr, hgone, -⟩ := h.deleted sid' (hmem.resolve_left hsid)
      exact ⟨hr, by rw [hstore, AList.lookup_erase_ne hsid]; exact hgone⟩

/-! ## The supervision forgets a pane -/

/-- INTERNAL: a pane that nobody wants leaves the supervision.
SRC: engine.rs:612, 823, 831 -/
theorem RecInv.forgets (h : RecInv s) {pc : RecordCall} (hpc : s.calls.lookup c = some pc)
    (next : Option RecordCall) (hidle : Idle s c pc)
    (hnext : ∀ pc', next = some pc' → (∀ sid ps, pc' ≠ .policyEach sid ps) ∧ saving pc' = none)
    {p : Uuid} (hp : Unwanted s p) (hcalls : s'.calls = updateCall s.calls c next)
    (hkeeps : KeepsRecords s s') (hcalm : Calm s') (hpanes : s'.paneWindow = s.paneWindow)
    (hwindows : s'.windowSession = s.windowSession) (hentries : s'.entries = s.entries.erase p)
    (hlock : s'.persistLock = s.persistLock)
    (hok : Frame c s s' → ∀ pc, next = some pc → CallOk s' c pc) : RecInv s' := by
  have hlock' : ∀ c', c' ≠ c → s.persistLock = some c' → s'.persistLock = some c' := by
    intro c' _ hl
    rw [hlock]
    exact hl
  have hduty : Dutiful c s s' next := by
    refine ⟨?_, ?_, ?_, ?_, fun pc' hpc' => (hnext pc' hpc').2⟩
    · intro sid ps heq
      exact absurd rfl ((hnext _ heq).1 sid ps)
    · intro pc' sid q hpc' hreg
      rw [(hidle.lookup hpc pc' hpc').1] at hreg
      cases hreg
    · intro pc' sid hpc' hpers
      rw [(hidle.lookup hpc pc' hpc').2.1] at hpers
      cases hpers
    · exact fun pc' hpc' => (hidle.lookup hpc pc' hpc').2.2
  have hframe : Frame c s s' := frame_of_quiet next hcalls hkeeps hduty.policy hlock'
  refine h.quiet next hcalls hkeeps hcalm (hframe.maps h.maps hpanes hwindows) hlock' ?_ hduty hok
  intro sid q hq hmem
  rw [hentries, Finset.mem_erase]
  refine ⟨?_, hmem⟩
  rintro rfl
  exact hp.2 sid hq

theorem Maps.shrink (h : Maps s) (hhome : s'.home = s.home)
    (hpanes : ∀ p w, s'.paneWindow.lookup p = some w → s.paneWindow.lookup p = some w)
    (hwindows : ∀ w sid, s'.windowSession.lookup w = some sid →
      s.windowSession.lookup w = some sid) : Maps s' where
  panes p w hp := by
    rw [hhome]
    exact h.panes p w (hpanes p w hp)
  windows w sid hw := by
    rw [hhome]
    exact h.windows w sid (hwindows w sid hw)

/-- INTERNAL: the reverse index gives the window and the session a pane was made in.
SRC: engine.rs:401-413 -/
theorem RecInv.home_of_index (h : RecInv s) {p w sid : Uuid}
    (hindex : s.windowAndSessionForPane p = some (w, sid)) : s.home.lookup p = some (w, sid) := by
  obtain ⟨w', hw, hrest⟩ := Option.bind_eq_some_iff.mp hindex
  obtain ⟨sid', hsid, heq⟩ := Option.bind_eq_some_iff.mp hrest
  cases heq
  obtain ⟨sid₁, h₁⟩ := h.maps.panes p w hw
  obtain ⟨q, h₂⟩ := h.maps.windows w sid hsid
  rw [h.shape.functional p q w sid₁ sid h₁ h₂] at h₁
  exact h₁

end Steps

end Tymux.Analysis.Records
