import Tymux.Analysis.PolicySteps

/-!
# Policy changes over whole runs

Each step of the splits, the closes and the policy change keeps `PolicyInv`. The one step with a
condition is that of `set_session_restart_policy` that looks a pane up in the supervision.
-/

set_option autoImplicit false

namespace Tymux.Analysis.Policies

open Tymux.Model Tymux.Lib Records PolicyState

/-! ## The policy change -/

section Setter

variable {s s' : PolicyState}

/-- The step keeps the calls, the index and what the policy change is about. -/
structure SameCalls (s s' : PolicyState) : Prop where
  calls : s'.calls = s.calls
  paneWindow : s'.paneWindow = s.paneWindow
  windowSession : s'.windowSession = s.windowSession
  home : s'.home = s.home
  nextId : s'.nextId = s.nextId
  before : ∀ p ∈ s'.attempt.before, p ∈ s.attempt.before ∨ p ∈ s.supervision

/-- INTERNAL: a step that changes no layout and registers no pane. -/
theorem PolicyInv.sets (h : PolicyInv s) (hsame : SameCalls s s') (hshape : Shape (toRecord s'))
    (hleaf : ∀ sid p, p ∈ s'.leavesOf sid → p ∈ s.leavesOf sid)
    (hsup : ∀ p ∈ s'.supervision, p ∈ s.supervision) (hsetter : SetterOk s'.followed) :
    PolicyInv s'.followed := by
  have hframe : Frame none s s' := by
    refine ⟨fun c _ => by rw [hsame.calls], Nat.le_of_eq hsame.nextId.symm, ?_,
      fun sid p _ hp => hleaf sid p hp, fun p hp => Or.inl (hsup p hp), hsame.before⟩
    intro p v hp
    rw [hsame.home]
    exact hp
  refine hframe.policyInv h hshape (hframe.maps h.maps hsame.paneWindow hsame.windowSession) ?_ hsetter
  rintro c pc ⟨⟩

/-- INTERNAL: only the stage of the policy change, the store and the persist lock change. -/
theorem PolicyInv.stages (h : PolicyInv s) (hsame : SameCalls s s')
    (hsessions : s'.sessions = s.sessions) (hsup : s'.supervision = s.supervision)
    (hsetter : SetterOk s'.followed) : PolicyInv s'.followed := by
  refine h.sets hsame (h.shape.of_eq hsessions hsame.home hsame.nextId) ?_ ?_ hsetter
  · intro sid p hp
    rw [leavesOf_of_eq hsessions] at hp
    exact hp
  · intro p hp
    exact hsup ▸ hp

theorem mem_of_followed {p : Uuid} (hp : p ∈ s.followed.attempt.throughout) :
    p ∈ s.attempt.throughout :=
  (List.mem_filter.mp hp).1

/-- A snapshot of the session shows its default and the policies of its leaves. -/
theorem shows_snapshot {st : NamedSession}
    (hst : s.sessions.lookup s.attempt.session = some st)
    (hthroughout : ∀ p ∈ s.attempt.throughout, p ∈ s.leavesOf s.attempt.session)
    (hdefault : DefaultSet s) (hpanes : PanesSet s) :
    Shows s.attempt (s.snapshotPersistedRecord st) := by
  refine ⟨?_, ?_⟩
  · have heq := hdefault st hst
    unfold PolicyRecord.default snapshotPersistedRecord
    rw [← heq]
    by_cases hplain : st.defaultRestartPolicy = RestartPolicy.default
    · simp [Option.filter, hplain]
    · simp [Option.filter, hplain]
  · intro happly p hp
    obtain ⟨sup, hsup, hpolicy⟩ := hpanes happly p hp
    obtain ⟨st', hst', hleaf⟩ := mem_leavesOf.mp (hthroughout p hp)
    rw [hst, Option.some_inj] at hst'
    subst hst'
    refine ⟨sup.persisted, List.mem_map.mpr ⟨p, hleaf, ?_⟩, hpolicy⟩
    rw [hsup]
    rfl

theorem setPolicy_policy (sup : PaneSupervisor) (policy : RestartPolicy) :
    (sup.setPolicy policy).policy = policy := by
  unfold PaneSupervisor.setPolicy
  dsimp only
  split <;> rfl

/-- INTERNAL: the next pane gets the policy.
SRC: engine.rs:1150-1154 -/
theorem PolicyInv.setsPane (h : PolicyInv s) {session pane : Uuid} {policy : RestartPolicy}
    {panes : List Uuid} (hstage : s.setter = .each session policy (pane :: panes))
    {sup : PaneSupervisor} (hsup : s.supervision.lookup pane = some sup)
    (hs' : s' = { s with
      supervision := s.supervision.insert pane (sup.setPolicy policy)
      setter := .each session policy panes }) : PolicyInv s'.followed := by
  have hok := h.setter
  unfold SetterOk at hok
  rw [hstage] at hok
  obtain ⟨hsession, hpolicy, hvalid, hdefault, hpanes⟩ := hok
  subst hs'
  refine h.sets ⟨rfl, rfl, rfl, rfl, rfl, fun _ hp => Or.inl hp⟩ (h.shape.of_eq rfl rfl rfl)
    (fun _ _ hp => hp) ?_ ⟨hsession, hpolicy, hvalid, hdefault, ?_⟩
  · intro p hp
    obtain rfl | hold := (AList.mem_insert s.supervision).mp hp
    · exact AList.lookup_isSome.mp (by rw [hsup]; rfl)
    · exact hold
  · intro happly p hp
    by_cases heq : p = pane
    · subst heq
      exact Or.inr ⟨_, AList.lookup_insert _, setPolicy_policy sup policy⟩
    · obtain hmem | ⟨old, hold, hset⟩ := hpanes happly p (mem_of_followed hp)
      · exact Or.inl ((List.mem_cons.mp hmem).resolve_left heq)
      · exact Or.inr ⟨old, (AList.lookup_insert_ne heq).trans hold, hset⟩

/-- INTERNAL: `set_session_restart_policy`, where each pane is found.
SRC: engine.rs:1129-1157 -/
theorem policyInv_setter (h : PolicyInv s) (hfinds : FindsEntry s .set)
    (hstep : s.advanceSetter = some s') : PolicyInv s'.followed := by
  have hok := h.setter
  unfold SetterOk at hok
  unfold advanceSetter at hstep
  split at hstep
  case h_1 session policy applyToExisting hstage =>
      rw [hstage] at hok
      obtain ⟨hsession, hpolicy, happly, hvalid, hunchanged⟩ := hok
      split at hstep
      case h_1 =>
          cases hstep
          exact h.stages ⟨rfl, rfl, rfl, rfl, rfl, fun _ hp => Or.inl hp⟩ rfl rfl hunchanged
      case h_2 st hst =>
          cases hstep
          have hsane : Sane ({ st with defaultRestartPolicy := policy } : NamedSession).windows :=
            h.shape.sane session st hst
          have hinto : ∀ t : PolicyState, t.sessions = s.sessions.insert session
              { st with defaultRestartPolicy := policy } → ∀ sid p,
              p ∈ t.leavesOf sid → p ∈ s.leavesOf sid := by
            intro t ht sid p hp
            obtain ⟨rfl, hleaf⟩ | ⟨-, hold⟩ := (mem_leavesOf_insert ht).mp hp
            · exact mem_leavesOf.mpr ⟨st, hst, hleaf⟩
            · exact hold
          refine h.sets ⟨rfl, rfl, rfl, rfl, rfl, fun _ hp => Or.inl hp⟩
            (h.shape.change hst hsane (fun _ he => he) rfl rfl rfl) (hinto _ rfl) (fun _ hp => hp)
            ⟨hsession, hpolicy, hvalid, ?_, ?_⟩
          · intro st' hst'
            have hlookup : (s.sessions.insert session
                { st with defaultRestartPolicy := policy }).lookup s.attempt.session = some st' := hst'
            rw [hsession, AList.lookup_insert, Option.some_inj] at hlookup
            rw [← hlookup]
            exact hpolicy.symm
          · intro happly' p hp
            left
            have hflag : applyToExisting = true := happly ▸ happly'
            rw [if_pos hflag]
            have hleaf := h.throughout p (List.mem_filter.mp hp).1
            rw [hsession] at hleaf
            obtain ⟨st', hst', hmem⟩ := mem_leavesOf.mp hleaf
            rw [hst, Option.some_inj] at hst'
            exact hst' ▸ hmem
  case h_2 session policy hstage =>
      rw [hstage] at hok
      obtain ⟨hsession, hpolicy, -, hdefault, hpanes⟩ := hok
      cases hstep
      refine h.stages ⟨rfl, rfl, rfl, rfl, rfl, fun _ hp => Or.inl hp⟩ rfl rfl
        ⟨hsession, hdefault, ?_⟩
      intro happly p hp
      obtain hnil | hset := hpanes happly p (mem_of_followed hp)
      · cases hnil
      · exact hpolicy ▸ hset
  case h_3 session policy pane panes hstage =>
      rw [hstage] at hok
      obtain ⟨-, -, hvalid, -, -⟩ := hok
      obtain ⟨sup, hsup⟩ := Option.isSome_iff_exists.mp
        (AList.lookup_isSome.mpr (hfinds pane (by unfold nextPane; rw [hstage]; rfl)))
      have hset : s.setPolicy pane policy =
          .ok (s.supervision.insert pane (sup.setPolicy policy)) := by
        unfold setPolicy
        rw [hvalid, hsup]
      rw [hset] at hstep
      cases hstep
      exact h.setsPane hstage hsup rfl
  case h_4 session hstage =>
      rw [hstage] at hok
      obtain ⟨hsession, hdefault, hpanes⟩ := hok
      have hpanes' : PanesSet s.followed := fun happly p hp => hpanes happly p (mem_of_followed hp)
      split at hstep
      case isTrue => cases hstep
      case isFalse =>
          split at hstep
          case h_1 hnone =>
              cases hstep
              refine h.stages ⟨rfl, rfl, rfl, rfl, rfl, fun _ hp => Or.inl hp⟩ rfl rfl
                ⟨hdefault, hpanes', ?_⟩
              intro hmem
              have hmem' : session ∈ s.sessions := hsession ▸ hmem
              rw [← AList.lookup_isSome, hnone] at hmem'
              cases hmem'
          case h_2 st hst =>
              cases hstep
              rw [← hsession] at hst
              have hshows := shows_snapshot hst h.throughout hdefault hpanes
              exact h.stages ⟨rfl, rfl, rfl, rfl, rfl, fun _ hp => Or.inl hp⟩ rfl rfl
                ⟨hsession, hdefault, hpanes', hshows.1,
                  fun happly p hp => hshows.2 happly p (mem_of_followed hp)⟩
  case h_5 session record hstage =>
      rw [hstage] at hok
      obtain ⟨hsession, hdefault, hpanes, hshows⟩ := hok
      cases hstep
      refine h.stages ⟨rfl, rfl, rfl, rfl, rfl, fun _ hp => Or.inl hp⟩ rfl rfl
        ⟨hdefault, fun happly p hp => hpanes happly p (mem_of_followed hp), fun _ => ?_⟩
      refine ⟨record, ?_, hshows.1, fun happly p hp => hshows.2 happly p (mem_of_followed hp)⟩
      show (s.store.insert session record).lookup s.attempt.session = some record
      rw [hsession, AList.lookup_insert]
  case h_6 => cases hstep
  case h_7 => cases hstep

/-- INTERNAL: the policy change begins.
SRC: engine.rs:1129-1137 -/
theorem policyInv_beginSetter (h : PolicyInv s) (session : Uuid) (policy : RestartPolicy)
    (applyToExisting : Bool) :
    PolicyInv (s.beginSetter session policy applyToExisting).followed := by
  have hunchanged : Unchanged (s.beginSetter session policy applyToExisting).followed := by
    refine ⟨?_, ?_⟩
    · intro st hst
      have hlookup : s.sessions.lookup session = some st := hst
      show (s.sessions.lookup session).map NamedSession.defaultRestartPolicy = _
      rw [hlookup]
      rfl
    · intro p before sup hbefore hsup
      have hsup' : s.supervision.lookup p = some sup := hsup
      rw [show s.supervision.lookup p = some before from hbefore, Option.some_inj] at hsup'
      rw [hsup']
  refine h.stages ⟨rfl, rfl, rfl, rfl, rfl, fun _ hp => Or.inr hp⟩ rfl rfl ?_
  unfold SetterOk
  cases hvalid : policy.validate with
  | error invalid =>
      have hsetter : (s.beginSetter session policy applyToExisting).followed.setter =
          .returned (.error (.invalidRestartPolicy invalid)) := by
        simp only [beginSetter, followed, hvalid]
      rw [hsetter]
      exact hunchanged
  | ok u =>
      have hsetter : (s.beginSetter session policy applyToExisting).followed.setter =
          .collect session policy applyToExisting := by
        simp only [beginSetter, followed, hvalid]
      rw [hsetter]
      exact ⟨rfl, rfl, rfl, hvalid, hunchanged⟩

end Setter

/-! ## Creations and other steps -/

section Others

variable {s s' : PolicyState}

theorem setterOk_idle (h : s.setter = .idle) : SetterOk s := by
  unfold SetterOk
  rw [h]
  trivial

theorem persistNow_eq (s : PolicyState) (session : Uuid) :
    ∃ store, s.persistNow session = { s with store } := by
  unfold persistNow
  cases s.sessions.lookup session with
  | none => exact ⟨s.store, rfl⟩
  | some st => exact ⟨_, rfl⟩

/-- INTERNAL: a session or a window is created, with one pane, while no policy is being set.
SRC: engine.rs:448-525, engine.rs:851-893 -/
theorem PolicyInv.creates (h : PolicyInv s) (hidle : s.setter = .idle) {session window pane : Uuid}
    {st : NamedSession} {sup : PaneSupervisor} {n : ℕ} {store : AList fun _ : Uuid => PolicyRecord}
    (hpane : s.nextId ≤ pane ∧ pane < n) (hwindow : s.nextId ≤ window ∧ window < n)
    (hsession : session < n) (hsane : Sane st.windows)
    (hplaces : ∀ e ∈ places st.windows, e = (pane, window) ∨
      ∃ old, s.sessions.lookup session = some old ∧ e ∈ places old.windows)
    (hs' : s' = { s with
      sessions := s.sessions.insert session st
      nextId := n
      paneWindow := s.paneWindow.insert pane window
      windowSession := s.windowSession.insert window session
      supervision := s.supervision.insert pane sup
      home := s.home.insert pane (window, session)
      store := store }) : PolicyInv s'.followed := by
  have hle : s.nextId ≤ n := Nat.le_of_lt (Nat.lt_of_le_of_lt hpane.1 hpane.2)
  have hkeep : ∀ p v, s.home.lookup p = some v → (s.home.insert pane (window, session)).lookup p
      = some v := by
    intro p v hp
    rw [AList.lookup_insert_ne]
    · exact hp
    · rintro rfl
      exact absurd (h.shape.known p v.1 v.2 hp).1 (Nat.not_lt.mpr hpane.1)
  subst hs'
  have hframe : Frame none s { s with
      sessions := s.sessions.insert session st
      nextId := n
      paneWindow := s.paneWindow.insert pane window
      windowSession := s.windowSession.insert window session
      supervision := s.supervision.insert pane sup
      home := s.home.insert pane (window, session)
      store := store } := by
    refine ⟨fun _ _ => rfl, hle, hkeep, ?_, ?_, fun _ hp => Or.inl hp⟩
    · intro sid p hp hmem
      obtain ⟨rfl, hleaf⟩ | ⟨-, hold⟩ := (mem_leavesOf_insert rfl).mp hmem
      · obtain ⟨w, hw⟩ := mem_leaves.mp hleaf
        obtain heq | ⟨old, hold, hmem'⟩ := hplaces _ hw
        · cases heq
          exact absurd hp (Nat.not_lt.mpr hpane.1)
        · exact mem_leavesOf.mpr ⟨old, hold, mem_leaves.mpr ⟨w, hmem'⟩⟩
      · exact hold
    · intro p hp
      obtain rfl | hold := (AList.mem_insert s.supervision).mp hp
      · exact Or.inr (Or.inl hpane)
      · exact Or.inl hold
  have hnew : (s.home.insert pane (window, session)).lookup pane = some (window, session) :=
    AList.lookup_insert _
  refine hframe.policyInv h ?_ ⟨?_, ?_⟩ (by rintro c pc ⟨⟩) ?_
  · refine h.shape.grow hpane.1 hwindow.2 ?_ hpane.2 hle hsession hsane hplaces rfl rfl
    intro q sid hq
    exact absurd (h.shape.known q window sid hq).2.1 (Nat.not_lt.mpr hwindow.1)
  · intro p w hp
    obtain ⟨rfl, rfl⟩ | hold := lookup_of_insert hp
    · exact ⟨session, hnew⟩
    · exact (h.maps.panes p w hold).imp fun sid hsid => hkeep p _ hsid
  · intro w sid hw
    obtain ⟨rfl, rfl⟩ | hold := lookup_of_insert hw
    · exact ⟨pane, hnew⟩
    · exact (h.maps.windows w sid hold).imp fun q hq => hkeep q _ hq
  · exact setterOk_idle hidle

theorem policyInv_createSession (h : PolicyInv s) (hidle : s.setter = .idle) (name : String)
    (policy : RestartPolicy) (now : ℕ) :
    PolicyInv (s.createSession name policy now).followed := by
  obtain ⟨store, hstore⟩ := persistNow_eq { s.setSession s.nextId
      ⟨name, [RecordState.newWindow (s.nextId + 1) "0" (s.nextId + 2)], s.nextId + 1, policy⟩ with
    nextId := s.nextId + 3
    paneWindow := s.paneWindow.insert (s.nextId + 2) (s.nextId + 1)
    windowSession := s.windowSession.insert (s.nextId + 1) s.nextId
    supervision := s.supervision.insert (s.nextId + 2) (registered policy now)
    home := s.home.insert (s.nextId + 2) (s.nextId + 1, s.nextId) } s.nextId
  refine h.creates hidle ?_ ?_ ?_ (by exact sane_new _ _ _) ?_ hstore
  · exact ⟨Nat.le_add_right _ 2, Nat.lt_succ_self _⟩
  · exact ⟨Nat.le_add_right _ 1, Nat.lt_add_of_pos_right Nat.zero_lt_two⟩
  · exact Nat.lt_add_of_pos_right (Nat.zero_lt_succ 2)
  · intro e he
    exact Or.inl (List.mem_singleton.mp he)

theorem policyInv_createWindow (h : PolicyInv s) (hidle : s.setter = .idle) (session : Uuid)
    (now : ℕ) : PolicyInv (s.createWindow session now).followed := by
  unfold createWindow
  cases hst : s.sessions.lookup session with
  | none =>
      exact h.stages ⟨rfl, rfl, rfl, rfl, rfl, fun _ hp => Or.inl hp⟩ rfl rfl (setterOk_idle hidle)
  | some st =>
      obtain ⟨store, hstore⟩ := persistNow_eq { s.setSession session
          (RecordState.addWindow st s.nextId (s.nextId + 1)) with
        nextId := s.nextId + 2
        paneWindow := s.paneWindow.insert (s.nextId + 1) s.nextId
        windowSession := s.windowSession.insert s.nextId session
        supervision := s.supervision.insert (s.nextId + 1)
          (registered st.defaultRestartPolicy now)
        home := s.home.insert (s.nextId + 1) (s.nextId, session) } session
      have hsane := h.shape.sane session st hst
      have hsane' : Sane (RecordState.addWindow st s.nextId (s.nextId + 1)).windows :=
        hsane.add _ (h.shape.notMem_windows hst (Nat.le_refl _))
          (h.shape.notMem_panes hst (Nat.le_succ _))
      refine h.creates hidle ?_ ?_ ?_ hsane' ?_ hstore
      · exact ⟨Nat.le_succ _, Nat.lt_succ_self _⟩
      · exact ⟨Nat.le_refl _, Nat.lt_add_of_pos_right Nat.zero_lt_two⟩
      · exact Nat.lt_of_lt_of_le (h.shape.lookup_lt hst) (Nat.le_add_right _ 2)
      · intro e he
        have he' : e ∈ places st.windows ++ places [RecordState.newWindow s.nextId
            (toString st.windows.length) (s.nextId + 1)] := places_append _ _ ▸ he
        obtain hold | hnew := List.mem_append.mp he'
        · exact Or.inr ⟨st, hst, hold⟩
        · exact Or.inl (List.mem_singleton.mp hnew)

/-- INTERNAL: a pane exits, or is restarted, stopped or started. -/
theorem PolicyInv.supervises (h : PolicyInv s) (hnot : ∀ r, s.setter ≠ .returned r) {pane : Uuid}
    {sup next : PaneSupervisor} (hsup : s.supervision.lookup pane = some sup)
    (hpolicy : next.policy = sup.policy)
    (hs' : s' = { s with supervision := s.supervision.insert pane next }) :
    PolicyInv s'.followed := by
  have hkept : Kept s { s with supervision := s.supervision.insert pane next } := by
    refine ⟨rfl, rfl, fun _ st hst => ⟨st, hst, rfl⟩, ?_, ?_⟩
    · intro p sup' _ hlookup
      obtain ⟨rfl, rfl⟩ | hold := lookup_of_insert hlookup
      · exact ⟨sup, hsup, hpolicy.symm⟩
      · exact ⟨sup', hold, rfl⟩
    · rintro sid p policy - ⟨old, hold, heq⟩
      by_cases hp : p = pane
      · subst hp
        rw [hsup, Option.some_inj] at hold
        subst hold
        exact ⟨next, AList.lookup_insert _, hpolicy.trans heq⟩
      · exact ⟨old, (AList.lookup_insert_ne hp).trans hold, heq⟩
  subst hs'
  refine h.sets ⟨rfl, rfl, rfl, rfl, rfl, fun _ hp => Or.inl hp⟩ (h.shape.of_eq rfl rfl rfl)
    (fun _ _ hp => hp) ?_ (hkept.setterOk h.setter hnot)
  intro p hp
  obtain rfl | hold := (AList.mem_insert s.supervision).mp hp
  · exact AList.lookup_isSome.mp (by rw [hsup]; rfl)
  · exact hold

end Others

/-! ## Runs -/

theorem policyInv_init : PolicyInv init where
  shape := by
    refine ⟨?_, ?_, ?_, ?_, fun _ _ => rfl⟩
    · rintro sid st ⟨⟩
    · rintro sid st p w ⟨⟩
    · rintro p p' w sid sid' ⟨⟩
    · rintro p w sid ⟨⟩
  maps := ⟨by rintro p w ⟨⟩, by rintro w sid ⟨⟩⟩
  calls := by rintro c pc ⟨⟩
  apart := by rintro c c' pc pc' p ⟨⟩
  supervision := by rintro p ⟨⟩
  before := by rintro p ⟨⟩
  throughout := by rintro p ⟨⟩
  setter := trivial

theorem settled_not_returned (s : PolicyState) (r : Except CallError Unit) :
    s.settled.setter ≠ .returned r := by
  unfold settled atRest
  cases s.setter <;> simp

theorem settled_of_atRest {s : PolicyState} (h : s.settled.atRest = true) :
    s.settled.setter = .idle := by
  unfold settled atRest at h ⊢
  cases hstage : s.setter with
  | idle => rfl
  | returned r => rfl
  | _ => simp [hstage] at h

theorem policyInv_settled {s : PolicyState} (h : PolicyInv s) : PolicyInv s.settled where
  shape := h.shape
  maps := h.maps
  calls := by
    intro c pc hpc
    have hok := h.calls c pc hpc
    cases pc <;> exact hok
  apart := h.apart
  supervision := h.supervision
  before := h.before
  throughout := h.throughout
  setter := by
    cases hrest : s.atRest with
    | true =>
        apply setterOk_idle
        unfold settled
        rw [hrest]
        rfl
    | false =>
        have heq : s.settled = s := by
          unfold settled
          rw [hrest]
          rfl
        rw [heq]
        exact h.setter

theorem findsEntry_settled {s : PolicyState} {e : PolicyEvent} (h : FindsEntry s e) :
    FindsEntry s.settled e := by
  cases e with
  | set =>
      intro pane hpane
      apply h pane
      unfold nextPane settled at hpane
      cases hrest : s.atRest with
      | true => simp [hrest] at hpane
      | false => simpa [nextPane, hrest] using hpane
  | _ => trivial

/-- INTERNAL: a split or a close begins. -/
theorem PolicyInv.begins {s s' : PolicyState} (h : PolicyInv s)
    (hnot : ∀ r, s.setter ≠ .returned r) {c : ℕ} {pc : PolicyCall} (hok : ∀ t, CallOk t pc)
    (hreg : registering pc = none) (hstep : s.begin c pc = some s') : PolicyInv s'.followed := by
  unfold PolicyState.begin at hstep
  split at hstep
  case isTrue => cases hstep
  case isFalse =>
      cases hstep
      refine h.moves (some pc) hnot rfl ⟨rfl, rfl, rfl, rfl, rfl, rfl⟩ rfl rfl ?_
      rintro pc' ⟨rfl⟩
      exact ⟨hok _, hreg⟩

/-- INTERNAL: one event, after a call that has returned is over. -/
theorem policyInv_act {s s' : PolicyState} {e : PolicyEvent} (h : PolicyInv s)
    (hnot : ∀ r, s.setter ≠ .returned r) (hidle : s.atRest = true → s.setter = .idle)
    (hfinds : FindsEntry s e) (hstep : s.act e = some s') : PolicyInv s'.followed := by
  unfold act at hstep
  split at hstep
  case h_1 name policy now =>
      split at hstep
      case h_1 hrest _ =>
          cases hstep
          exact policyInv_createSession h (hidle hrest) name policy now
      case h_2 hrest _ =>
          cases hstep
          exact h.stages ⟨rfl, rfl, rfl, rfl, rfl, fun _ hp => Or.inl hp⟩ rfl rfl
            (setterOk_idle (hidle hrest))
      case h_3 => cases hstep
  case h_2 session now =>
      split at hstep
      case isTrue hrest =>
          cases hstep
          exact policyInv_createWindow h (hidle hrest) session now
      case isFalse => cases hstep
  case h_3 => exact h.begins hnot (by intro t; trivial) rfl hstep
  case h_4 => exact h.begins hnot (by intro t; trivial) rfl hstep
  case h_5 c now =>
      obtain ⟨pc, hpc, hadvance⟩ := Option.bind_eq_some_iff.mp hstep
      unfold advanceCall at hadvance
      cases pc with
      | splitLookup | splitLayout | splitRegister | splitIndex =>
          exact policyInv_split h hnot hpc hadvance
      | closeLookup | closeLayout | closeIndex | closePanes =>
          exact policyInv_close h hnot hpc hadvance
      | persist | save | delete => exact policyInv_persist h hnot hpc hadvance
  case h_6 session policy applyToExisting =>
      split at hstep
      case isTrue =>
          cases hstep
          exact policyInv_beginSetter h session policy applyToExisting
      case isFalse => cases hstep
  case h_7 => exact policyInv_setter h hfinds hstep
  case h_8 pane next =>
      split at hstep
      case h_1 => cases hstep
      case h_2 sup hsup =>
          split at hstep
          case isTrue hpolicy =>
              cases hstep
              exact h.supervises hnot hsup hpolicy rfl
          case isFalse => cases hstep

/-- INTERNAL: one step. -/
theorem policyInv_step {s s' : PolicyState} {e : PolicyEvent} (h : PolicyInv s)
    (hfinds : FindsEntry s e) (hstep : step s e = some s') : PolicyInv s' := by
  obtain ⟨t, ht, rfl⟩ := Option.map_eq_some_iff.mp hstep
  exact policyInv_act (policyInv_settled h) (settled_not_returned s) settled_of_atRest
    (findsEntry_settled hfinds) ht

/-- In every run in which each pane that is given the policy is found in the supervision, a
`set_session_restart_policy` that returns has changed everything or nothing.
SRC: engine.rs:1127-1157, supervision.rs:322-345 -/
theorem policy_all_or_nothing {es : List PolicyEvent} {s : PolicyState}
    (hrun : run step init es = some s) (hfinds : Along step FindsEntry init es) :
    AllOrNothing s := by
  have hinv : PolicyInv s := run_invariant_along PolicyInv
    (fun s e s' h hP hstep => policyInv_step h hP hstep) policyInv_init hfinds hrun
  exact hinv.setter.allOrNothing

def alwaysPolicy : RestartPolicy := { RestartPolicy.default with mode := .always }

/-- A session with two windows gets the policy while its second pane is being closed. -/
def setWhileClosing : List PolicyEvent :=
  [.createSession "main" RestartPolicy.default 0, .createWindow 0 1,
    .setSessionRestartPolicy 0 alwaysPolicy true, .set, .closePane 0 4, .advance 0 2, .advance 0 3,
    .set, .set, .set, .set, .set]

theorem policy_all_or_nothing_closing : ∃ s, run step init setWhileClosing = some s ∧
    s.setter = .returned (.ok ()) ∧ AllOrNothing s := by
  have hmap : (run step init setWhileClosing).map PolicyState.setter =
      some (.returned (.ok ())) := by decide +kernel
  obtain ⟨s, hrun, hsetter⟩ := Option.map_eq_some_iff.mp hmap
  exact ⟨s, hrun, hsetter, policy_all_or_nothing hrun (by decide +kernel)⟩

/-- The second pane is closed between the list of the panes and its turn. -/
def closedBeforeItsTurn : List PolicyEvent :=
  [.createSession "main" RestartPolicy.default 0, .createWindow 0 1,
    .setSessionRestartPolicy 0 alwaysPolicy true, .set, .closePane 0 4, .advance 0 2, .advance 0 3,
    .advance 0 4, .advance 0 5, .advance 0 6, .advance 0 7, .set, .set]

/-- The call returns `PaneNotFound` with the default changed.
SRC: engine.rs:1147-1154 -/
theorem policy_not_all_or_nothing :
    ¬ ∀ es s, run step init es = some s → AllOrNothing s := by
  intro hall
  have hmap : (run step init closedBeforeItsTurn).map (fun s => (s.setter, s.attempt.defaultBefore,
      (s.sessions.lookup s.attempt.session).map NamedSession.defaultRestartPolicy)) =
      some (.returned (.error (.paneNotFound 4)), some RestartPolicy.default,
        some alwaysPolicy) := by decide +kernel
  obtain ⟨s, hrun, heq⟩ := Option.map_eq_some_iff.mp hmap
  simp only [Prod.mk.injEq] at heq
  obtain ⟨hsetter, hbefore, hafter⟩ := heq
  obtain ⟨st, hst, hdefault⟩ := Option.map_eq_some_iff.mp hafter
  have hnothing := hall _ s hrun
  unfold AllOrNothing at hnothing
  rw [hsetter] at hnothing
  have hsame := hnothing.1 st hst
  rw [hbefore, hdefault] at hsame
  revert hsame
  decide

end Tymux.Analysis.Policies
