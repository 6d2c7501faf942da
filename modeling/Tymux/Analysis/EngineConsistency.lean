import Tymux.Analysis.EngineInvariant
import Tymux.Lib.Keyed

/-!
# Layouts, panes and processes under concurrent calls

Every step of every call keeps `EngineInv`, and so does every run in which the steps are
`StepOk`. In a state in which both locks are free the leaves of the layouts are then the keys
of the panes map exactly if no call stands between its two updates, and in a state with no
call in flight every running process belongs to a leaf (`engine_consistency`).
-/

set_option autoImplicit false

namespace Tymux.Analysis

open Tymux.Model Tymux.Lib EngineState

section Steps

variable {s s' : EngineState} {c : ℕ} {pc : Call}

/-! ## Every step of a call -/

theorem EngineInv.withSessions_some (h : EngineInv s) {k : Option EngineState}
    (hstep : s.withSessions c k = some s') : s.sessionsLock = none ∧ k = some s' := by
  unfold withSessions at hstep
  rw [h.maps.unpoisoned.1] at hstep
  by_cases hlock : s.sessionsLock = none
  · exact ⟨hlock, by simpa [hlock] using hstep⟩
  · simp [hlock] at hstep

theorem EngineInv.withPanes_some (h : EngineInv s) {k : Option EngineState}
    (hstep : s.withPanes c k = some s') : s.panesLock = none ∧ k = some s' := by
  unfold withPanes at hstep
  rw [h.maps.unpoisoned.2] at hstep
  by_cases hlock : s.panesLock = none
  · exact ⟨hlock, by simpa [hlock] using hstep⟩
  · simp [hlock] at hstep

theorem windowIn_insert {sessions : Sessions} {sid x sid' : Uuid} {st : SessionState}
    (h : WindowIn (sessions.insert sid st) x sid') :
    WindowIn sessions x sid' ∨ x ∈ st.windows.map SessionWindow.id := by
  obtain ⟨st', hst', hx⟩ := h
  by_cases heq : sid' = sid
  · rw [heq, AList.lookup_insert, Option.some_inj] at hst'
    exact Or.inr (hst' ▸ hx)
  · rw [AList.lookup_insert_ne heq] at hst'
    exact Or.inl ⟨st', hst', hx⟩

theorem lookup_insert_none {sessions : Sessions} {sid x : Uuid} {st : SessionState}
    (h : sessions.lookup x = none) :
    (sessions.insert sid st).lookup x = none ∨ x = sid := by
  by_cases heq : x = sid
  · exact Or.inr heq
  · exact Or.inl (by rw [AList.lookup_insert_ne heq, h])

theorem lookup_erase_none {sessions : Sessions} {sid x : Uuid} (h : sessions.lookup x = none) :
    (sessions.erase sid).lookup x = none := by
  by_cases heq : x = sid
  · rw [heq, AList.lookup_erase]
  · rw [AList.lookup_erase_ne heq, h]

/-- SRC: engine.rs:503-504 -/
theorem EngineInv.createInsertSession (h : EngineInv s) {p w sid : Uuid}
    (hpc : s.calls.lookup c = some (.createInsertSession p w sid)) (hfree : s.sessionsLock = none) :
    EngineInv ({ s with sessions := s.sessions.insert sid ⟨[newWindow w p], w⟩ }.goto c
      (.createInsertPane p w sid)) := by
  have hcall := h.calls c _ hpc
  have hfresh : ∀ x, x = p ∨ x = w ∨ x = sid → Unused s x := by
    intro x hx
    apply (hcall.fresh x _).2
    simpa [freshIds] using hx
  have hlayout := layout_createSession h.maps.layout (hfresh sid (by simp)).session
    (hfresh w (by simp)).window (hfresh p (by simp)).leaf w
  have hmove := h.addLeaf hpc (.createInsertPane p w sid) s.sessionsLock
    hlayout.1 hlayout.2 ?_ ?_ (by simp [freshIds]) (by simp [spawnedPane]) rfl rfl rfl rfl
    ⟨rfl, rfl⟩ (by simp) (by simp [lockedPane]) hfree (by simp [holdsSessionsLock]) rfl
  · exact hmove
  · intro x sid' hx
    rcases windowIn_insert hx with hx | hx
    · exact Or.inl hx
    · right
      have hxw : x = w := by simpa [newWindow] using hx
      simp [freshIds, hxw]
  · intro x hx
    rcases lookup_insert_none hx with hx | hx
    · exact Or.inl hx
    · exact Or.inr (by simp [freshIds, hx])

/-- SRC: engine.rs:689-716 -/
theorem EngineInv.splitLayout (h : EngineInv s) {target p w sid : Uuid} {o : Orientation}
    {st : SessionState} {windows : List SessionWindow}
    (hpc : s.calls.lookup c = some (.splitLayout target o p w sid)) (hfree : s.sessionsLock = none)
    (hst : s.sessions.lookup sid = some st)
    (hsplit : splitWindow target o p w st.windows = some (some windows)) :
    EngineInv ({ s with sessions := s.sessions.insert sid { st with windows } }.goto c
      (.splitInsertPane p w sid)) := by
  have hcall := h.calls c _ hpc
  have hfresh : Unused s p := (hcall.fresh p (by simp [freshIds])).2
  have hlayout := layout_splitPane h.maps.layout hst hsplit hfresh.leaf st.activeWindowId
  have hids := (splitWindow_spec st.windows hsplit (h.maps.layout.trees sid st hst)
    fun v hv => hfresh.leaf v ⟨sid, st, hst, hv⟩).1
  have hmove := h.addLeaf hpc (.splitInsertPane p w sid) s.sessionsLock
    hlayout.1 hlayout.2 ?_ ?_ (by simp [freshIds]) (by simp [spawnedPane]) rfl rfl rfl rfl
    ⟨rfl, rfl⟩ (by simp) (by simp [lockedPane]) hfree (by simp [holdsSessionsLock]) rfl
  · exact hmove
  · -- the windows keep their names
    rintro x sid' ⟨st', hst', hx⟩
    left
    by_cases heq : sid' = sid
    · rw [heq, AList.lookup_insert, Option.some_inj] at hst'
      rw [heq]
      refine ⟨st, hst, ?_⟩
      rw [← hst', hids] at hx
      exact hx
    · rw [AList.lookup_insert_ne heq] at hst'
      exact ⟨st', hst', hx⟩
  · intro x hx
    rcases lookup_insert_none hx with hx | heq
    · exact Or.inl hx
    · rw [heq, hst] at hx
      cases hx

/-- SRC: engine.rs:864-871 -/
theorem EngineInv.windowLayout (h : EngineInv s) {p w sid : Uuid} {st : SessionState}
    (hpc : s.calls.lookup c = some (.windowLayout sid p w)) (hfree : s.sessionsLock = none)
    (hst : s.sessions.lookup sid = some st) :
    EngineInv ({ s with
      sessions := s.sessions.insert sid ⟨st.windows ++ [newWindow w p], w⟩
      sessionsLock := some c }.goto c (.windowInsertPane sid p w)) := by
  have hcall := h.calls c _ hpc
  have hfresh : ∀ x, x = p ∨ x = w → Unused s x := by
    intro x hx
    apply (hcall.fresh x _).2
    simpa [freshIds] using hx
  have hlayout := layout_createWindow h.maps.layout hst (hfresh w (by simp)).window
    (hfresh p (by simp)).leaf w
  have hmove := h.addLeaf hpc (.windowInsertPane sid p w) (some c)
    hlayout.1 hlayout.2 ?_ ?_ (by simp [freshIds]) (by simp [spawnedPane]) rfl rfl rfl rfl
    ⟨rfl, rfl⟩ (by simp) (by simp [lockedPane]) hfree (by simp) rfl
  · exact hmove
  · rintro x sid' ⟨st', hst', hx⟩
    by_cases heq : sid' = sid
    · rw [heq, AList.lookup_insert, Option.some_inj] at hst'
      rw [← hst', List.map_append, List.mem_append] at hx
      rcases hx with hx | hx
      · rw [heq]
        exact Or.inl ⟨st, hst, hx⟩
      · right
        have hxw : x = w := by simpa [newWindow] using hx
        simp [freshIds, hxw]
    · rw [AList.lookup_insert_ne heq] at hst'
      exact Or.inl ⟨st', hst', hx⟩
  · intro x hx
    rcases lookup_insert_none hx with hx | heq
    · exact Or.inl hx
    · rw [heq, hst] at hx
      cases hx

/-- SRC: engine.rs:747-803 -/
theorem EngineInv.closeLayout (h : EngineInv s) {p w sid : Uuid} {st : SessionState}
    {r : List SessionWindow × Option Uuid}
    (hpc : s.calls.lookup c = some (.closeLayout p w sid)) (hfree : s.sessionsLock = none)
    (hst : s.sessions.lookup sid = some st) (hclose : closeWindow p w st.windows = some r)
    (active : Uuid) :
    EngineInv ({ s with
      sessions := s.sessions.insert sid ⟨r.1, active⟩
      sessionsLock := some c }.goto c (.closeSnapshot p r.2)) := by
  have hcall := h.calls c _ hpc
  have hlayout := layout_closePane h.maps.layout hst hclose (hcall.placed p w rfl) active
  have hsub := (closeWindow_spec st.windows hclose (h.maps.layout.ids sid st hst)
    (h.maps.layout.trees sid st hst)).1
  have hmove := h.removeLeaves hpc (.closeSnapshot p r.2) (some c) hlayout.1
    (by simpa [erasingPanes] using hlayout.2) ?_ ?_ ?_ ⟨rfl, rfl, rfl⟩ ⟨rfl, rfl, rfl, rfl⟩ hfree
    (fun _ => rfl) rfl
  · exact hmove
  · rintro x sid' ⟨st', hst', hx⟩
    by_cases heq : sid' = sid
    · rw [heq, AList.lookup_insert, Option.some_inj] at hst'
      rw [← hst'] at hx
      rw [heq]
      exact ⟨st, hst, hsub.subset hx⟩
    · rw [AList.lookup_insert_ne heq] at hst'
      exact ⟨st', hst', hx⟩
  · intro x hx
    rcases lookup_insert_none hx with hx | heq
    · exact hx
    · rw [heq, hst] at hx
      cases hx
  · intro x hx
    exact Or.inr (by simpa [touchedPanes, erasingPanes, placedPane] using hx)

/-- INTERNAL: the last pane of a session takes the session along.
SRC: engine.rs:776-789 -/
theorem EngineInv.closeLayout_last (h : EngineInv s) {p w sid : Uuid} {st : SessionState}
    {windowClosed : Option Uuid}
    (hpc : s.calls.lookup c = some (.closeLayout p w sid)) (hfree : s.sessionsLock = none)
    (hst : s.sessions.lookup sid = some st)
    (hclose : closeWindow p w st.windows = some ([], windowClosed)) :
    EngineInv ({ s with sessions := s.sessions.erase sid }.goto c (.closeIndex p windowClosed)) := by
  have hcall := h.calls c _ hpc
  have hlayout := (layout_closePane h.maps.layout hst hclose (hcall.placed p w rfl) w).2
  have hholds : ∀ q v, Holds (s.sessions.erase sid) q v ↔ Holds s.sessions q v ∧ q ≠ p := by
    intro q v
    rw [← hlayout, holds_erase, holds_insert]
    simp [WindowsHold]
  have hmove := h.removeLeaves hpc (.closeIndex p windowClosed) s.sessionsLock
    (h.maps.layout.erase sid) (by simpa [erasingPanes] using hholds)
    (fun x sid' hx => (windowIn_erase hx).2) (fun x hx => lookup_erase_none hx) ?_ ⟨rfl, rfl, rfl⟩
    ⟨rfl, rfl, rfl, rfl⟩ hfree (by simp [holdsSessionsLock]) rfl
  · exact hmove
  · intro x hx
    exact Or.inr (by simpa [touchedPanes, erasingPanes, placedPane] using hx)

/-- SRC: engine.rs:588-606 -/
theorem EngineInv.killLayout (h : EngineInv s) {sid : Uuid} {st : SessionState}
    (hpc : s.calls.lookup c = some (.killLayout sid)) (hfree : s.sessionsLock = none)
    (hst : s.sessions.lookup sid = some st) :
    EngineInv ({ s with sessions := s.sessions.erase sid }.goto c
      (.killIndex (st.windows.map SessionWindow.id) st.leaves)) := by
  have hmove := h.removeLeaves hpc (.killIndex (st.windows.map SessionWindow.id) st.leaves)
    s.sessionsLock (h.maps.layout.erase sid) (layout_killSession h.maps.layout hst)
    (fun x sid' hx => (windowIn_erase hx).2) (fun x hx => lookup_erase_none hx) ?_ ⟨rfl, rfl, rfl⟩
    ⟨rfl, rfl, rfl, rfl⟩ hfree (by simp [holdsSessionsLock]) rfl
  · exact hmove
  · intro x hx
    obtain ⟨v, hv⟩ := mem_session_leaves.mp hx
    exact Or.inl ⟨v, sid, st, hst, hv⟩

/-- INTERNAL: the lookup of a pane that is to be closed.
SRC: engine.rs:743-746 -/
theorem EngineInv.closeLookup (h : EngineInv s) {p w sid : Uuid}
    (hpc : s.calls.lookup c = some (.closeLookup p))
    (hfound : s.windowAndSessionForPane p = some (w, sid)) :
    EngineInv (s.goto c (.closeLayout p w sid)) := by
  have hw : s.paneWindow.lookup p = some w := by
    unfold windowAndSessionForPane at hfound
    simp only [Option.bind_eq_bind, Option.bind_eq_some_iff] at hfound
    obtain ⟨w', hw', sid', -, heq⟩ := hfound
    cases heq
    exact hw'
  have hknown : ∀ x, Unused s x → x ≠ p := by
    rintro x hu rfl
    exact hu.index (AList.lookup_isSome.mp (by rw [hw]; rfl))
  have htouched : touchedPanes (.closeLayout p w sid) = [p] := rfl
  apply h.frame hpc (some (.closeLayout p w sid)) rfl {}
  · intro pc₁ hpc₁
    cases hpc₁
    refine ⟨⟨by simp [freshIds], by simp [freshIds], ?_, ?_, by simp [insertingPane],
      by simp [erasingPanes], by simp [lockedPane], by simp⟩, by simp [holdsSessionsLock],
      by simp [holdsPanesLock], ?_, by simp [freshIds]⟩
    · intro x hx
      rw [htouched, List.mem_singleton] at hx
      by_contra hge
      exact hknown x (h.maps.supply x (Nat.not_lt.mp hge)) hx
    · intro q v hq
      cases hq
      exact h.maps.index p w hw
    · intro c₂ pc₂ hne hpc₂
      refine ⟨by simp [freshIds], by simp [freshIds], ?_, by simp [insertingPane]⟩
      intro x hx hx'
      rw [htouched, List.mem_singleton] at hx'
      exact hknown x ((h.calls c₂ pc₂ hpc₂).fresh x hx).2 hx'
  · simp [insertingPane]
  · simp [erasingPanes]
  · simp [spawnedPane]

/-- INTERNAL: nobody else holds a lock that the call holds. -/
theorem EngineInv.sessionsLock_mine (h : EngineInv s) (hpc : s.calls.lookup c = some pc)
    (hheld : holdsSessionsLock pc = true) {c₂ : ℕ} (hne : c₂ ≠ c) : s.sessionsLock ≠ some c₂ := by
  intro hlock
  rw [h.sessionsLock c pc hpc hheld, Option.some_inj] at hlock
  exact hne hlock.symm

/-- INTERNAL: the index learns where the call put its pane. -/
theorem lookup_insert_placed {m : AList fun _ : Uuid => Uuid} {q v p w : Uuid}
    (h : (m.insert q v).lookup p = some w) : m.lookup p = some w ∨ some (q, v) = some (p, w) := by
  by_cases heq : p = q
  · rw [heq, AList.lookup_insert, Option.some_inj] at h
    exact Or.inr (by rw [heq, h])
  · rw [AList.lookup_insert_ne heq] at h
    exact Or.inl h

theorem lookup_erase_some {m : AList fun _ : Uuid => Uuid} {q p w : Uuid}
    (h : (m.erase q).lookup p = some w) : m.lookup p = some w := by
  exact (lookup_of_erase h).2

theorem mem_insert_live {panes : AList fun _ : Uuid => PaneEntry} {set : Finset Uuid} {q p : Uuid}
    (hlive : panes.lookup q = some .live) (h : p ∈ insert q set) :
    p ∈ set ∨ panes.lookup p = some .live := by
  rcases Finset.mem_insert.mp h with heq | hin
  · exact Or.inr (heq ▸ hlive)
  · exact Or.inl hin

/-- INTERNAL: a dead pane is revived in place.
SRC: engine.rs:955-1010 -/
theorem EngineInv.revive (h : EngineInv s) {p : Uuid} {ps : List Uuid}
    (hpc : s.calls.lookup c = some (.startEach (p :: ps))) (hp : s.panes.lookup p = some .dead) :
    EngineInv ({ s with
      panes := s.panes.insert p .live
      supervised := insert p s.supervised
      running := insert p s.running }.goto c (.startEach ps)) := by
  have hlive : (s.panes.insert p .live).lookup p = some .live := AList.lookup_insert _
  refine h.proceed hpc {} rfl
    { panes := ?_
      live := ?_
      supervised := fun q hq => mem_insert_live hlive hq
      running := fun q hq => mem_insert_live hlive hq } (by simp [freshIds])
    (by simp [holdsSessionsLock]) (by simp [holdsPanesLock])
  · intro q
    have hin : p ∈ s.panes := AList.lookup_isSome.mp (by rw [hp]; rfl)
    refine (AList.mem_insert _).trans ⟨?_, Or.inr⟩
    rintro (heq | hq)
    · exact heq ▸ hin
    · exact hq
  · intro q hq
    by_cases heq : q = p
    · rw [heq]
      exact hlive
    · exact (AList.lookup_insert_ne heq).trans hq

/-- SRC: engine.rs:921-1010 -/
theorem EngineInv.startEach (h : EngineInv s) {ps : List Uuid}
    (hpc : s.calls.lookup c = some (.startEach ps)) {spawns : Bool}
    (hstep : s.advanceCall c spawns (.startEach ps) = some s') : EngineInv s' := by
  have hgoto : ∀ {p ps' next}, ps = p :: ps' → next = Call.startEach ps' ∨
      next = Call.startSupervised p ps' → EngineInv (s.goto c next) := by
    rintro p ps' next rfl (rfl | rfl)
    · exact h.proceed hpc {} rfl {} (by simp [freshIds]) (by simp [holdsSessionsLock])
        (by simp [holdsPanesLock])
    · exact h.proceed hpc {} rfl {} (by simp [freshIds]) (by simp [holdsSessionsLock])
        (by simp [holdsPanesLock])
  cases ps with
  | nil =>
      cases hstep
      exact h.finishes hpc rfl {} ⟨rfl, rfl, rfl⟩
  | cons p ps =>
      obtain ⟨-, hk⟩ := h.withPanes_some hstep
      cases hp : s.panes.lookup p with
      | none =>
          simp only [hp] at hk
          cases hk
          exact hgoto rfl (Or.inl rfl)
      | some entry =>
          cases entry with
          | live =>
              simp only [hp] at hk
              split_ifs at hk
              · cases hk
                exact hgoto rfl (Or.inl rfl)
              · cases hk
                exact hgoto rfl (Or.inr rfl)
          | dead =>
              simp only [hp] at hk
              split_ifs at hk
              · cases hk
                exact h.revive hpc hp
              · cases hk
                exact hgoto rfl (Or.inl rfl)

/-- INTERNAL: **every step of a call keeps the invariant.** -/
theorem EngineInv.advance (h : EngineInv s) (hpc : s.calls.lookup c = some pc) {spawns : Bool}
    (hok : CallOk s pc) (hstep : s.advanceCall c spawns pc = some s') : EngineInv s' := by
  cases pc with
  | createInsertSession p w sid =>
      obtain ⟨hfree, hk⟩ := h.withSessions_some hstep
      cases hk
      exact h.createInsertSession hpc hfree
  | createInsertPane p w sid =>
      obtain ⟨-, hk⟩ := h.withPanes_some hstep
      cases hk
      exact h.insertPane hpc (.createRegister p w sid) rfl rfl rfl ⟨rfl, rfl, rfl⟩ ⟨rfl, rfl, rfl⟩
        rfl (by simp) rfl rfl hok
  | createRegister p w sid =>
      cases hstep
      exact h.proceed hpc {} rfl { supervised := fun q hq => mem_insert_live hok hq }
        (by simp [freshIds]) (by simp [holdsSessionsLock]) (by simp [holdsPanesLock])
  | createIndex p w sid =>
      cases hstep
      exact h.finishes hpc rfl { index := fun q v hq => lookup_insert_placed hq } ⟨rfl, rfl, rfl⟩
  | splitLookup target o p =>
      obtain ⟨⟨w, sid⟩, hfound⟩ := Option.isSome_iff_exists.mp hok
      simp only [advanceCall, hfound, Option.some_inj] at hstep
      cases hstep
      exact h.proceed hpc {} rfl {} (by simp [touchedPanes, erasingPanes, placedPane])
        (by simp [holdsSessionsLock]) (by simp [holdsPanesLock])
  | splitLayout target o p w sid =>
      obtain ⟨hfree, hk⟩ := h.withSessions_some hstep
      obtain ⟨st, windows, hst, hsplit⟩ := hok
      simp only [hst, hsplit, Option.some_inj] at hk
      cases hk
      exact h.splitLayout hpc hfree hst hsplit
  | splitInsertPane p w sid =>
      obtain ⟨-, hk⟩ := h.withPanes_some hstep
      cases hk
      exact h.insertPane hpc (.splitRegister p w sid) rfl rfl rfl ⟨rfl, rfl, rfl⟩ ⟨rfl, rfl, rfl⟩
        rfl (by simp) rfl rfl hok
  | splitRegister p w sid =>
      cases hstep
      exact h.proceed hpc {} rfl { supervised := fun q hq => mem_insert_live hok hq }
        (by simp [freshIds]) (by simp [holdsSessionsLock]) (by simp [holdsPanesLock])
  | splitIndex p w sid =>
      cases hstep
      exact h.proceed hpc {} rfl { index := fun q v hq => lookup_insert_placed hq }
        (by simp [freshIds]) (by simp [holdsSessionsLock]) (by simp [holdsPanesLock])
  | splitSnapshot sid =>
      obtain ⟨hfree, hk⟩ := h.withSessions_some hstep
      cases hk
      refine h.proceed hpc {} rfl { locks := ?_ } (by simp [freshIds]) (fun _ => rfl)
        (by simp [holdsPanesLock])
      intro c₂ _
      exact ⟨fun hl => by simp [hfree] at hl, id⟩
  | splitSnapshotPanes sid =>
      obtain ⟨-, hk⟩ := h.withPanes_some hstep
      have hsome : (s.sessions.lookup sid).isSome = true := hok
      rw [if_pos hsome] at hk
      cases hk
      refine h.finishes hpc rfl { locks := ?_ } ⟨rfl, rfl, rfl⟩
      intro c₂ hne
      exact ⟨fun hl => absurd hl (h.sessionsLock_mine hpc rfl hne), id⟩
  | closeLookup p =>
      unfold advanceCall at hstep
      cases hfound : s.windowAndSessionForPane p with
      | none =>
          simp only [hfound] at hstep
          cases hstep
          exact h.finishes hpc rfl {} ⟨rfl, rfl, rfl⟩
      | some found =>
          simp only [hfound] at hstep
          cases hstep
          exact h.closeLookup hpc hfound
  | closeLayout p w sid =>
      obtain ⟨hfree, hk⟩ := h.withSessions_some hstep
      cases hst : s.sessions.lookup sid with
      | none =>
          simp only [hst] at hk
          cases hk
          exact h.finishes hpc rfl {} ⟨rfl, rfl, rfl⟩
      | some st =>
          simp only [hst] at hk
          cases hclose : closeWindow p w st.windows with
          | none =>
              simp only [hclose] at hk
              cases hk
              exact h.finishes hpc rfl {} ⟨rfl, rfl, rfl⟩
          | some r =>
              obtain ⟨windows, windowClosed⟩ := r
              cases windows with
              | nil =>
                  simp only [hclose] at hk
                  cases hk
                  exact h.closeLayout_last hpc hfree hst hclose
              | cons win windows =>
                  simp only [hclose] at hk
                  cases hk
                  exact h.closeLayout hpc hfree hst hclose _
  | closeSnapshot p windowClosed =>
      obtain ⟨-, hk⟩ := h.withPanes_some hstep
      cases hk
      refine h.proceed hpc {} rfl { locks := ?_ } (by simp [freshIds])
        (by simp [holdsSessionsLock]) (by simp [holdsPanesLock])
      intro c₂ hne
      exact ⟨fun hl => absurd hl (h.sessionsLock_mine hpc rfl hne), id⟩
  | closeIndex p windowClosed =>
      cases hstep
      exact h.proceed hpc {} rfl { index := fun q v hq => Or.inl (lookup_erase_some hq) }
        (by simp [freshIds]) (by simp [holdsSessionsLock]) (by simp [holdsPanesLock])
  | closePanes p =>
      obtain ⟨-, hk⟩ := h.withPanes_some hstep
      cases hk
      exact h.erasePane hpc none rfl ⟨rfl, rfl, rfl, rfl⟩ (by simp) (fun _ => rfl)
  | windowLayout sid p w =>
      obtain ⟨hfree, hk⟩ := h.withSessions_some hstep
      obtain ⟨st, hst⟩ := Option.isSome_iff_exists.mp hok
      simp only [hst] at hk
      cases hk
      exact h.windowLayout hpc hfree hst
  | windowInsertPane sid p w =>
      obtain ⟨-, hk⟩ := h.withPanes_some hstep
      cases hk
      -- the sessions lock has kept the new leaf in place
      have hleaf := mem_leafIds.mpr ((h.calls c _ hpc).locked p rfl)
      refine h.insertPane hpc (.windowRegister sid p w) rfl rfl rfl ⟨rfl, rfl, rfl⟩ ⟨rfl, rfl, rfl⟩
        rfl ?_ rfl rfl (Or.inl hleaf)
      intro sid' q v heq
      cases heq
      rfl
  | windowRegister sid p w =>
      cases hstep
      have hlive := (h.calls c _ hpc).registering sid p w rfl
      exact h.proceed hpc {} rfl { supervised := fun q hq => mem_insert_live hlive hq }
        (by simp [freshIds]) (fun _ => h.sessionsLock c _ hpc rfl) (by simp [holdsPanesLock])
  | windowIndex sid p w =>
      cases hstep
      exact h.proceed hpc {} rfl { index := fun q v hq => lookup_insert_placed hq }
        (by simp [freshIds]) (fun _ => h.sessionsLock c _ hpc rfl) (by simp [holdsPanesLock])
  | windowSnapshot =>
      obtain ⟨-, hk⟩ := h.withPanes_some hstep
      cases hk
      refine h.finishes hpc rfl { locks := ?_ } ⟨rfl, rfl, rfl⟩
      intro c₂ hne
      exact ⟨fun hl => absurd hl (h.sessionsLock_mine hpc rfl hne), id⟩
  | killLayout sid =>
      obtain ⟨hfree, hk⟩ := h.withSessions_some hstep
      cases hst : s.sessions.lookup sid with
      | none =>
          simp only [hst] at hk
          cases hk
          exact h.finishes hpc rfl {} ⟨rfl, rfl, rfl⟩
      | some st =>
          simp only [hst] at hk
          cases hk
          exact h.killLayout hpc hfree hst
  | killIndex windows ps =>
      cases hstep
      exact h.proceed hpc {} rfl { index := fun q v hq => Or.inl (lookup_foldl_erase ps _ hq) }
        (by simp [freshIds]) (by simp [holdsSessionsLock]) (by simp [holdsPanesLock])
  | killPanes ps =>
      obtain ⟨hfree, hk⟩ := h.withPanes_some hstep
      cases hk
      refine h.proceed hpc {} rfl { locks := ?_ } (by simp [freshIds])
        (by simp [holdsSessionsLock]) (fun _ => rfl)
      intro c₂ _
      exact ⟨id, fun hl => by simp [hfree] at hl⟩
  | killEach ps =>
      cases ps with
      | nil =>
          cases hstep
          refine h.finishes hpc rfl { locks := ?_ } ⟨rfl, rfl, rfl⟩
          intro c₂ hne
          refine ⟨id, fun hl => ?_⟩
          rw [h.panesLock c _ hpc rfl, Option.some_inj] at hl
          exact absurd hl.symm hne
      | cons p ps =>
          cases hstep
          refine h.erasePane hpc (some (.killEach ps)) rfl ⟨rfl, rfl, rfl, rfl⟩ ?_ (by simp)
          intro pc' heq
          cases heq
          exact ⟨rfl, rfl, rfl, rfl, rfl, rfl, fun _ => rfl⟩
  | reviveCollect sid =>
      obtain ⟨-, hk⟩ := h.withSessions_some hstep
      cases hst : s.sessions.lookup sid with
      | none =>
          simp only [hst] at hk
          cases hk
          exact h.finishes hpc rfl {} ⟨rfl, rfl, rfl⟩
      | some st =>
          simp only [hst] at hk
          cases hk
          exact h.proceed hpc {} rfl {} (by simp [freshIds]) (by simp [holdsSessionsLock])
            (by simp [holdsPanesLock])
  | reviveCheck ps =>
      obtain ⟨-, hk⟩ := h.withPanes_some hstep
      split_ifs at hk
      · cases hk
        exact h.finishes hpc rfl {} ⟨rfl, rfl, rfl⟩
      · cases hk
        exact h.proceed hpc {} rfl {} (by simp [freshIds]) (by simp [holdsSessionsLock])
          (by simp [holdsPanesLock])
  | startEach ps => exact h.startEach hpc hstep
  | startSupervised p ps =>
      simp only [advanceCall] at hstep
      split_ifs at hstep with hrun
      · cases hstep
        have hlive := h.maps.supervised p hrun.2
        exact h.proceed hpc {} rfl { running := fun q hq => mem_insert_live hlive hq }
          (by simp [freshIds]) (by simp [holdsSessionsLock]) (by simp [holdsPanesLock])
      · cases hstep
        exact h.proceed hpc {} rfl {} (by simp [freshIds]) (by simp [holdsSessionsLock])
          (by simp [holdsPanesLock])

/-- INTERNAL: a call begins, with ids that nobody has seen. -/
theorem EngineInv.enter (h : EngineInv s) (hc : s.calls.lookup c = none) (first : Call)
    {running : Finset Uuid} {nextId : Uuid} (hsupply : s.nextId ≤ nextId)
    (hfresh : ∀ x ∈ freshIds first, s.nextId ≤ x ∧ x < nextId) (hnodup : (freshIds first).Nodup)
    (htouched : touchedPanes first = [])
    (hnone : insertingPane first = none ∧ lockedPane first = none)
    (hlocks : holdsSessionsLock first = false ∧ holdsPanesLock first = false)
    (hrunning : ∀ p ∈ running, p ∈ s.running ∨ spawnedPane first = some p) :
    EngineInv { s with running, nextId, calls := s.calls.insert c first } := by
  have helse : ∀ {P : Call → Prop}, (∃ c' pc', s.calls.lookup c' = some pc' ∧ P pc') →
      Elsewhere s c P := by
    rintro P ⟨c', pc', hpc', hP⟩
    refine ⟨c', pc', ?_, hpc', hP⟩
    rintro rfl
    rw [hc] at hpc'
    cases hpc'
  have hplaced : placedPane first = none := by
    cases hp : placedPane first with
    | none => rfl
    | some pw => simp [touchedPanes, hp] at htouched
  have herasing : erasingPanes first = [] := by
    unfold touchedPanes at htouched
    exact (List.append_eq_nil_iff.mp htouched).1
  have hold : ∀ {x}, s.nextId ≤ x →
      Unused { s with running, nextId, calls := s.calls.insert c first } x := by
    intro x hx
    exact (h.maps.supply x hx).congr rfl (fun _ => Iff.rfl) id
  refine h.move (some first) rfl ⟨h.maps.layout, h.maps.unpoisoned, ?_, h.maps.index,
    h.maps.supervised⟩ ?_ ?_ (fun _ _ => ⟨id, id⟩) ?_ ?_ ?_
  · exact fun x hx => hold (hsupply.trans hx)
  · intro pc₁ hpc₁
    cases hpc₁
    refine ⟨⟨?_, hnodup, by simp [htouched], by simp [hplaced], by simp [hnone.1],
      by simp [herasing], by simp [hnone.2], ?_⟩, by simp [hlocks.1], by simp [hlocks.2], ?_⟩
    · exact fun x hx => ⟨(hfresh x hx).2, hold (hfresh x hx).1⟩
    · intro sid p w heq
      have hlocked := hnone.2
      rw [heq] at hlocked
      cases hlocked
    · intro c₂ pc₂ _ hpc₂
      have hinv := h.calls c₂ pc₂ hpc₂
      refine ⟨?_, ?_, by simp [htouched], by simp [hnone.1]⟩
      · exact fun x hx hx' => absurd (hinv.fresh x hx').1 (Nat.not_lt.mpr (hfresh x hx).1)
      · exact fun x hx hx' => absurd (hinv.touched x hx') (Nat.not_lt.mpr (hfresh x hx).1)
  · intro c₂ pc₂ _ hpc₂
    exact (h.calls c₂ pc₂ hpc₂).congr rfl (fun _ => Iff.rfl) (fun _ => id) (fun _ _ => id) hsupply
  · intro p w hp
    rcases h.leaves p w hp with hin | hins
    · exact Or.inl hin
    · exact Or.inr (Or.inr (helse (mem_insertingIds.mp hins)))
  · intro p hp
    rcases h.panes p hp with hin | her
    · exact Or.inl hin
    · exact Or.inr (Or.inr (helse (mem_erasingIds.mp her)))
  · intro p hp
    rcases hrunning p hp with hrun | hsp
    · rcases h.running p hrun with hin | hins | hsp
      · exact Or.inl hin
      · obtain ⟨c', pc', hpc', hins⟩ := mem_insertingIds.mp hins
        exact Or.inr (Or.inr (helse ⟨c', pc', hpc', Or.inl hins⟩))
      · obtain ⟨c', pc', hpc', hsp⟩ := hsp
        exact Or.inr (Or.inr (helse ⟨c', pc', hpc', Or.inr hsp⟩))
    · exact Or.inr (Or.inl ⟨first, rfl, Or.inr hsp⟩)

/-- INTERNAL: a call begins with the spawn of its pane. -/
theorem EngineInv.enter_spawn (h : EngineInv s) (hc : s.spawn.calls.lookup c = none) (first : Call)
    (hspawned : spawnedPane first = some s.nextId)
    (hfresh : freshIds first ⊆ [s.nextId, s.nextId + 1, s.nextId + 2])
    (hnodup : (freshIds first).Nodup) (htouched : touchedPanes first = [])
    (hnone : insertingPane first = none ∧ lockedPane first = none)
    (hlocks : holdsSessionsLock first = false ∧ holdsPanesLock first = false) :
    EngineInv (s.spawn.goto c first) := by
  have hrange : ∀ n x : ℕ, x ∈ [n, n + 1, n + 2] → n ≤ x ∧ x < n + 3 := by
    intro n x hx
    simp only [List.mem_cons, List.not_mem_nil, or_false] at hx
    omega
  refine h.enter hc first (Nat.le_add_right s.nextId 3) (fun x hx => hrange _ x (hfresh hx)) hnodup
    htouched hnone hlocks ?_
  intro p hp
  rcases Finset.mem_insert.mp hp with heq | hin
  · exact Or.inr (heq ▸ hspawned)
  · exact Or.inl hin

/-- INTERNAL: a process exits, or the supervisor starts one again. -/
theorem EngineInv.setRunning (h : EngineInv s) {running : Finset Uuid}
    (hrunning : ∀ p ∈ running, p ∈ s.running ∨ p ∈ s.supervised) :
    EngineInv { s with running } := by
  refine ⟨⟨h.maps.layout, h.maps.unpoisoned, ?_, h.maps.index, h.maps.supervised⟩, ?_, h.compat,
    h.sessionsLock, h.panesLock, h.leaves, h.panes, ?_⟩
  · exact fun x hx => (h.maps.supply x hx).congr rfl (fun _ => Iff.rfl) id
  · intro c₂ pc₂ hpc₂
    exact (h.calls c₂ pc₂ hpc₂).congr rfl (fun _ => Iff.rfl) (fun _ => id) (fun _ _ => id) le_rfl
  · intro p hp
    rcases hrunning p hp with hrun | hsup
    · exact h.running p hrun
    · exact Or.inl (h.maps.supervised p hsup)

theorem begin_some {first : Call} (hbegin : s.begin c first = some s') :
    s.calls.lookup c = none ∧ s' = s.goto c first := by
  unfold EngineState.begin at hbegin
  split_ifs at hbegin with hc
  exact ⟨AList.lookup_eq_none.mpr hc, (Option.some_inj.mp hbegin).symm⟩

/-- INTERNAL: **every step keeps the invariant.** -/
theorem EngineInv.step (h : EngineInv s) {e : EngineEvent} (hok : StepOk s e)
    (hstep : s.step e = some s') : EngineInv s' := by
  cases e with
  | createSession c =>
      obtain ⟨hc, rfl⟩ := begin_some hstep
      exact h.enter_spawn hc (.createInsertSession s.nextId (s.nextId + 1) (s.nextId + 2)) rfl
        (by simp [freshIds]) (by simp [freshIds]) rfl ⟨rfl, rfl⟩ ⟨rfl, rfl⟩
  | splitPane c target o =>
      obtain ⟨hc, rfl⟩ := begin_some hstep
      exact h.enter_spawn hc (.splitLookup target o s.nextId) rfl (by simp [freshIds])
        (by simp [freshIds]) rfl ⟨rfl, rfl⟩ ⟨rfl, rfl⟩
  | createWindow c sid =>
      obtain ⟨hc, rfl⟩ := begin_some hstep
      exact h.enter_spawn hc (.windowLayout sid s.nextId (s.nextId + 1)) rfl
        (by simp [freshIds]) (by simp [freshIds]) rfl ⟨rfl, rfl⟩ ⟨rfl, rfl⟩
  | closePane c p =>
      obtain ⟨hc, rfl⟩ := begin_some hstep
      exact h.enter hc (.closeLookup p) le_rfl (by simp [freshIds]) (by simp [freshIds]) rfl
        ⟨rfl, rfl⟩ ⟨rfl, rfl⟩ (fun _ => Or.inl)
  | killSession c sid =>
      obtain ⟨hc, rfl⟩ := begin_some hstep
      exact h.enter hc (.killLayout sid) le_rfl (by simp [freshIds]) (by simp [freshIds]) rfl
        ⟨rfl, rfl⟩ ⟨rfl, rfl⟩ (fun _ => Or.inl)
  | startPane c p =>
      obtain ⟨hc, rfl⟩ := begin_some hstep
      exact h.enter hc (.startEach [p]) le_rfl (by simp [freshIds]) (by simp [freshIds]) rfl
        ⟨rfl, rfl⟩ ⟨rfl, rfl⟩ (fun _ => Or.inl)
  | reviveSession c sid =>
      obtain ⟨hc, rfl⟩ := begin_some hstep
      exact h.enter hc (.reviveCollect sid) le_rfl (by simp [freshIds]) (by simp [freshIds]) rfl
        ⟨rfl, rfl⟩ ⟨rfl, rfl⟩ (fun _ => Or.inl)
  | advance c spawns =>
      obtain ⟨pc, hpc, hadv⟩ := Option.bind_eq_some_iff.mp hstep
      exact h.advance hpc (hok pc hpc) hadv
  | exit p =>
      simp only [EngineState.step] at hstep
      split_ifs at hstep
      cases hstep
      exact h.setRunning fun q hq => Or.inl (Finset.mem_of_mem_erase hq)
  | restartDue p =>
      simp only [EngineState.step] at hstep
      split_ifs at hstep with hp
      cases hstep
      refine h.setRunning fun q hq => ?_
      rcases Finset.mem_insert.mp hq with heq | hin
      · exact Or.inr (heq ▸ hp.1)
      · exact Or.inl hin

end Steps

/-! ## The loaded engine -/

/-- Records of an earlier daemon that passed their validation: no pane is in two windows, no
window in two sessions, and the ids are not given out again. -/
structure Loadable (sessions : Sessions) (nextId : Uuid) : Prop where
  layout : LayoutInv sessions
  panes : ∀ p w, Holds sessions p w → p < nextId
  windows : ∀ w sid, WindowIn sessions w sid → w < nextId
  sessions : ∀ sid ∈ sessions, sid < nextId

theorem mem_foldl_insert_dead (ids : List Uuid) (m : AList fun _ : Uuid => PaneEntry) {p : Uuid} :
    p ∈ ids.foldl (fun m x => m.insert x .dead) m ↔ p ∈ ids ∨ p ∈ m := by
  induction ids generalizing m with
  | nil => simp
  | cons x ids ih =>
      rw [List.foldl_cons, ih, AList.mem_insert, List.mem_cons]
      tauto

theorem mem_loaded_panes {sessions : Sessions} {nextId p : Uuid} :
    p ∈ (loaded sessions nextId).panes ↔ ∃ w, Holds sessions p w := by
  have hleaf : p ∈ (loaded sessions nextId).leafIds ↔ ∃ w, Holds sessions p w := mem_leafIds
  rw [← hleaf]
  refine (mem_foldl_insert_dead _ _).trans ⟨?_, Or.inl⟩
  rintro (hin | hin)
  · exact hin
  · exact absurd hin (AList.notMem_empty p)

theorem loaded_paneWindow {sessions : Sessions} {nextId p w : Uuid}
    (h : (loaded sessions nextId).paneWindow.lookup p = some w) : Holds sessions p w := by
  rcases Lib.lookup_foldl_insert _ _ h with hin | hempty
  · rw [List.mem_flatMap] at hin
    obtain ⟨⟨sid, st⟩, hmem, hin⟩ := hin
    rw [List.mem_flatMap] at hin
    obtain ⟨win, hwin, hin⟩ := hin
    obtain ⟨q, hq, heq⟩ := List.mem_map.mp hin
    cases heq
    exact ⟨sid, st, AList.mem_lookup_iff.mpr hmem, win, hwin, rfl, hq⟩
  · rw [AList.lookup_empty] at hempty
    cases hempty

/-- INTERNAL: the engine starts in order. -/
theorem engineInv_loaded {sessions : Sessions} {nextId : Uuid} (h : Loadable sessions nextId) :
    EngineInv (loaded sessions nextId) := by
  have hcalls : ∀ c, (loaded sessions nextId).calls.lookup c = none := AList.lookup_empty
  have hnone : ∀ {c pc}, ¬ (loaded sessions nextId).calls.lookup c = some pc := by
    intro c pc hpc
    rw [hcalls] at hpc
    cases hpc
  have hunused : ∀ x, nextId ≤ x → Unused (loaded sessions nextId) x := by
    intro x hx
    have hleaf : ∀ w, ¬ Holds sessions x w := fun w hw => absurd (h.panes x w hw) (Nat.not_lt.mpr hx)
    refine ⟨hleaf, ?_, ?_, ?_, ?_⟩
    · exact fun sid hw => absurd (h.windows x sid hw) (Nat.not_lt.mpr hx)
    · exact AList.lookup_eq_none.mpr fun hin => absurd (h.sessions x hin) (Nat.not_lt.mpr hx)
    · rw [mem_loaded_panes]
      exact fun ⟨w, hw⟩ => hleaf w hw
    · intro hin
      obtain ⟨w, hw⟩ := Option.isSome_iff_exists.mp (AList.lookup_isSome.mpr hin)
      exact hleaf w (loaded_paneWindow hw)
  refine ⟨⟨h.layout, ⟨rfl, rfl⟩, hunused, ?_, ?_⟩, ?_, ?_, ?_, ?_, ?_, ?_, ?_⟩
  · exact fun p w hp v hv => h.layout.single p v w hv (loaded_paneWindow hp)
  · exact fun p hp => absurd hp (Finset.notMem_empty p)
  · exact fun c pc hpc => absurd hpc hnone
  · exact fun c c' pc pc' _ hpc => absurd hpc hnone
  · exact fun c pc hpc => absurd hpc hnone
  · exact fun c pc hpc => absurd hpc hnone
  · exact fun p w hp => Or.inl (mem_loaded_panes.mpr ⟨w, hp⟩)
  · exact fun p hp => Or.inl (mem_loaded_panes.mp hp)
  · exact fun p hp => absurd hp (Finset.notMem_empty p)

/-! ## Runs -/

/-- The leaves of the layouts are the keys of the panes. -/
def Consistent (s : EngineState) : Prop := ∀ id, id ∈ s.leafIds ↔ id ∈ s.panes

/-- No call stands between its two updates: no pane that is about to be inserted is a leaf, and
no pane that is about to be erased is in the panes. -/
def GapFree (s : EngineState) : Prop :=
  (∀ id ∈ insertingIds s, id ∉ s.leafIds) ∧ ∀ id ∈ erasingIds s, id ∉ s.panes

/-- Every step of the run is `StepOk` where it is taken. -/
def RunOk (s : EngineState) : List EngineEvent → Prop
  | [] => True
  | e :: es => StepOk s e ∧ ∀ s', s.step e = some s' → RunOk s' es

theorem engineInv_run {s s' : EngineState} (h : EngineInv s) {es : List EngineEvent}
    (hok : RunOk s es) (hrun : Lib.run EngineState.step s es = some s') : EngineInv s' := by
  induction es generalizing s with
  | nil =>
      rw [Lib.run_nil, Option.some_inj] at hrun
      exact hrun ▸ h
  | cons e es ih =>
      rw [Lib.run_cons, Option.bind_eq_some_iff] at hrun
      obtain ⟨s₁, hs₁, hrest⟩ := hrun
      exact ih (h.step hok.1 hs₁) (hok.2 s₁ hs₁) hrest

theorem EngineInv.consistent_iff {s : EngineState} (h : EngineInv s) :
    Consistent s ↔ GapFree s := by
  constructor
  · intro hcons
    refine ⟨?_, ?_⟩
    · intro id hid hleaf
      obtain ⟨c, pc, hpc, hins⟩ := mem_insertingIds.mp hid
      exact (h.calls c pc hpc).inserting id hins ((hcons id).mp hleaf)
    · intro id hid hpane
      obtain ⟨c, pc, hpc, her⟩ := mem_erasingIds.mp hid
      obtain ⟨w, hw⟩ := mem_leafIds.mp ((hcons id).mpr hpane)
      exact (h.calls c pc hpc).erasing id her w hw
  · rintro ⟨hins, her⟩ id
    constructor
    · intro hleaf
      obtain ⟨w, hw⟩ := mem_leafIds.mp hleaf
      rcases h.leaves id w hw with hin | hid
      · exact hin
      · exact absurd hleaf (hins id hid)
    · intro hpane
      rcases h.panes id hpane with hw | hid
      · exact mem_leafIds.mpr hw
      · exact absurd hpane (her id hid)

theorem EngineInv.running_placed {s : EngineState} (h : EngineInv s) (hidle : s.calls = ∅)
    {p : Uuid} (hp : p ∈ s.running) : p ∈ s.leafIds := by
  have hnone : ∀ {c pc}, ¬ s.calls.lookup c = some pc := by
    intro c pc hpc
    rw [hidle, AList.lookup_empty] at hpc
    cases hpc
  rcases h.running p hp with hlive | hid | ⟨c, pc, hpc, -⟩
  · have hin : p ∈ s.panes := AList.lookup_isSome.mp (by rw [hlive]; rfl)
    rcases h.panes p hin with hw | hid
    · exact mem_leafIds.mpr hw
    · obtain ⟨c, pc, hpc, -⟩ := mem_erasingIds.mp hid
      exact absurd hpc hnone
  · obtain ⟨c, pc, hpc, -⟩ := mem_insertingIds.mp hid
    exact absurd hpc hnone
  · exact absurd hpc hnone

/-- INTERNAL: **the layouts, the panes and the processes.** Along every run in which no call
leaves a process behind, the leaves are the keys of the panes in exactly the states in which
no call stands between its two updates, whether the locks are free or not, and once no call is
in flight every running process belongs to a window of a session. -/
theorem engine_consistency {sessions : Sessions} {nextId : Uuid} (h : Loadable sessions nextId)
    (es : List EngineEvent) (hok : RunOk (loaded sessions nextId) es) {s : EngineState}
    (hrun : Lib.run EngineState.step (loaded sessions nextId) es = some s) :
    (Consistent s ↔ GapFree s) ∧ (s.calls = ∅ → ∀ id ∈ s.running, id ∈ s.leafIds) := by
  have hinv := engineInv_run (engineInv_loaded h) hok hrun
  exact ⟨hinv.consistent_iff, fun hidle id hid => hinv.running_placed hidle hid⟩

theorem loadable_empty : Loadable ∅ 0 := by
  have hnone : ∀ sid (st : SessionState), ¬ (∅ : Sessions).lookup sid = some st := by
    intro sid st h
    rw [AList.lookup_empty] at h
    cases h
  refine ⟨⟨?_, ?_, ?_, ?_⟩, ?_, ?_, ?_⟩
  · exact fun sid st h => absurd h (hnone sid st)
  · exact fun sid st h => absurd h (hnone sid st)
  · exact fun w sid sid' ⟨st, h, _⟩ => absurd h (hnone sid st)
  · exact fun p w w' ⟨sid, st, h, _⟩ => absurd h (hnone sid st)
  · exact fun p w ⟨sid, st, h, _⟩ => absurd h (hnone sid st)
  · exact fun w sid ⟨st, h, _⟩ => absurd h (hnone sid st)
  · exact fun sid h => absurd h (AList.notMem_empty sid)

/-- A `create_session` from its spawn to its return. -/
def createSessionRun : List EngineEvent :=
  [.createSession 0, .advance 0 true, .advance 0 true, .advance 0 true, .advance 0 true]

theorem engine_consistency_createSession :
    ∃ s, Lib.run EngineState.step (loaded ∅ 0) createSessionRun = some s ∧
      s.calls = ∅ ∧ s.running = {0} ∧ (Consistent s ↔ GapFree s) ∧
      (s.calls = ∅ → ∀ id ∈ s.running, id ∈ s.leafIds) := by
  refine ⟨_, rfl, rfl, rfl, engine_consistency loadable_empty createSessionRun ?_ rfl⟩
  refine ⟨trivial, ?_⟩
  intro s₁ h₁
  cases h₁
  refine ⟨?_, ?_⟩
  · intro pc h
    cases h
    trivial
  intro s₂ h₂
  cases h₂
  refine ⟨?_, ?_⟩
  · intro pc h
    cases h
    exact Or.inl (by decide)
  intro s₃ h₃
  cases h₃
  refine ⟨?_, ?_⟩
  · intro pc h
    cases h
    rfl
  intro s₄ h₄
  cases h₄
  refine ⟨?_, ?_⟩
  · intro pc h
    cases h
    trivial
  intro s₅ h₅
  trivial

/-- INTERNAL: a reader between the two updates of `create_session` finds a leaf without a pane,
and a `split_pane` of an unknown pane leaves its process behind. -/
theorem engine_inconsistent :
    (∃ s, Lib.run EngineState.step (loaded ∅ 0) [.createSession 0, .advance 0 true] = some s ∧
      s.sessionsLock = none ∧ s.panesLock = none ∧ ¬ Consistent s) ∧
    ∃ s, Lib.run EngineState.step (loaded ∅ 0)
        [.splitPane 0 7 .horizontal, .advance 0 true] = some s ∧
      s.calls = ∅ ∧ 0 ∈ s.running ∧ 0 ∉ s.leafIds := by
  refine ⟨⟨_, rfl, rfl, rfl, ?_⟩, _, rfl, rfl, by decide, by decide⟩
  · intro hcons
    have hpane := (hcons 0).mp (by decide)
    revert hpane
    decide
end Tymux.Analysis
