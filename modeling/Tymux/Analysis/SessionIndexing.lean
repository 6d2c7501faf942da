import Tymux.Model.Records
import Tymux.Lib.Total

/-!
# `sessions[&session_id]`

`close_pane` and `create_window` hold the sessions lock from where they find the session to where
they index it. `split_pane` gives the lock back in between, so there the session is found again only
if nobody removed it in the meantime.
-/

set_option autoImplicit false

namespace Tymux.Analysis.Records

open Tymux.Model Tymux.Lib RecordState

/-- The session that a split has changed and is yet to index. -/
def splitting : RecordCall → Option Uuid
  | .splitPane session _ _ | .splitRegister session _ _ | .splitIndex session _ _
  | .splitSnapshot session | .splitSnapshotPanes session => some session
  | _ => none

/-- The session that a call has found under the lock that it still holds. -/
def foundSession : RecordCall → Option Uuid
  | .closeSnapshot session _ | .windowPane session _ _ | .windowRegister session _ _
  | .windowIndex session _ _ | .windowSnapshot session => some session
  | _ => none

def holdsSessions : RecordCall → Bool
  | .splitSnapshotPanes _ | .closeSnapshot _ _ | .windowPane _ _ _ | .windowRegister _ _ _
  | .windowIndex _ _ _ | .windowSnapshot _ | .persistPanes _ _ => true
  | _ => false

/-- The session that the call removes in its next step.
SRC: engine.rs:588-594, engine.rs:788-789 -/
def removing (s : RecordState) : RecordCall → Option Uuid
  | .killLayout session => some session
  | .closeLayout pane window session =>
    match (s.sessions.lookup session).bind fun st => closeWindow pane window st.windows with
    | some ([], _) => some session
    | _ => none
  | _ => none

/-- No session is removed that a split is yet to index. -/
def Apart (s : RecordState) : RecordEvent → Prop
  | .advance c => ∀ pc session, s.calls.lookup c = some pc → removing s pc = some session →
      ∀ c' pc', s.calls.lookup c' = some pc' → splitting pc' ≠ some session
  | _ => True

/-- The event indexes no session that is not there. -/
def Found (s : RecordState) (e : RecordEvent) : Prop :=
  ∀ session, s.indexed e = some session → session ∈ s.sessions

instance (s : RecordState) (e : RecordEvent) : Decidable (Found s e) :=
  decidable_of_iff (∀ session ∈ s.indexed e, session ∈ s.sessions) Iff.rfl

instance (s : RecordState) (session : Uuid) :
    Decidable (∀ c pc, s.calls.lookup c = some pc → splitting pc ≠ some session) :=
  decidable_of_iff (∀ e ∈ s.calls.entries, splitting e.2 ≠ some session)
    ⟨fun h c pc hpc => h ⟨c, pc⟩ (AList.mem_lookup_iff.mp hpc),
      fun h e he => h e.1 e.2 (AList.mem_lookup_iff.mpr he)⟩

instance (s : RecordState) : ∀ e : RecordEvent, Decidable (Apart s e)
  | .advance c =>
    decidable_of_iff (∀ pc ∈ s.calls.lookup c, ∀ session ∈ removing s pc,
        ∀ c' pc', s.calls.lookup c' = some pc' → splitting pc' ≠ some session)
      ⟨fun h pc session hpc hsession => h pc hpc session hsession,
        fun h pc hpc session hsession => h pc session hpc hsession⟩
  | .createSession .. | .splitPane .. | .closePane .. | .createWindow .. | .killSession ..
  | .setSessionRestartPolicy .. | .supervisionPersist .. | .recomputeWindow .. => isTrue trivial

/-- What holds of a call in progress. -/
structure IndexedCall (s : RecordState) (c : ℕ) (pc : RecordCall) : Prop where
  splitting : ∀ session, splitting pc = some session → session ∈ s.sessions
  found : ∀ session, foundSession pc = some session → session ∈ s.sessions
  lock : holdsSessions pc = true → s.sessionsLock = some c

def IndexInv (s : RecordState) : Prop :=
  ∀ c pc, s.calls.lookup c = some pc → IndexedCall s c pc

/-- INTERNAL: a step of `c` that keeps what the other calls rely on. -/
theorem IndexInv.move {s s' : RecordState} (hs : IndexInv s) {c : ℕ} (next : Option RecordCall)
    (hcalls : s'.calls = updateCall s.calls c next)
    (hkept : ∀ c' pc, c' ≠ c → s.calls.lookup c' = some pc → ∀ session,
      splitting pc = some session ∨ foundSession pc = some session → session ∈ s.sessions →
        session ∈ s'.sessions)
    (hlock : ∀ c', c' ≠ c → s.sessionsLock = some c' → s'.sessionsLock = some c')
    (hnext : ∀ pc, next = some pc → IndexedCall s' c pc) : IndexInv s' := by
  unfold IndexInv
  rw [hcalls]
  apply forall_updateCall _ hnext
  intro c' pc hne hpc
  have hcall := hs c' pc hpc
  refine ⟨fun session h => ?_, fun session h => ?_, fun h => hlock c' hne (hcall.lock h)⟩
  · exact hkept c' pc hne hpc session (Or.inl h) (hcall.splitting session h)
  · exact hkept c' pc hne hpc session (Or.inr h) (hcall.found session h)

/-- INTERNAL: a step of `c` that removes no session. -/
theorem IndexInv.keep {s s' : RecordState} (hs : IndexInv s) {c : ℕ} (next : Option RecordCall)
    (hcalls : s'.calls = updateCall s.calls c next)
    (hsessions : ∀ session ∈ s.sessions, session ∈ s'.sessions)
    (hlock : ∀ c', c' ≠ c → s.sessionsLock = some c' → s'.sessionsLock = some c')
    (hnext : ∀ pc, next = some pc → IndexedCall s' c pc) : IndexInv s' :=
  hs.move next hcalls (fun _ _ _ _ session _ h => hsessions session h) hlock hnext

/-- INTERNAL: the session lock is free, and `c` removes a session that no split is yet to index. -/
theorem IndexInv.remove {s s' : RecordState} (hs : IndexInv s) {c : ℕ} (next : Option RecordCall)
    (hcalls : s'.calls = updateCall s.calls c next) (hfree : s.sessionsLock = none) {session : Uuid}
    (hsessions : s'.sessions = s.sessions.erase session)
    (hapart : ∀ c' pc, s.calls.lookup c' = some pc → splitting pc ≠ some session)
    (hnext : ∀ pc, next = some pc → IndexedCall s' c pc) : IndexInv s' := by
  apply hs.move next hcalls _ _ hnext
  · intro c' pc _ hpc session' hsession hmem
    rw [hsessions, AList.mem_erase]
    refine ⟨?_, hmem⟩
    rintro rfl
    obtain hsplit | hfound := hsession
    · exact hapart c' pc hpc hsplit
    · have hholds : holdsSessions pc = true := by
        cases pc <;> first | rfl | cases hfound
      have hheld := (hs c' pc hpc).lock hholds
      rw [hfree] at hheld
      cases hheld
  · intro c' _ hheld
    rw [hfree] at hheld
    cases hheld

theorem indexInv_panic {s : RecordState} (hs : IndexInv s) (c : ℕ) : IndexInv (s.panic c) := by
  apply hs.keep none rfl
  · exact fun session h => h
  · intro c' hne hheld
    show (if s.sessionsLock = some c then none else s.sessionsLock) = some c'
    rw [if_neg, hheld]
    rw [hheld, Option.some_inj]
    exact hne
  · intro pc h
    cases h

/-! ## Taking a lock -/

theorem withSessions_cases {s s' : RecordState} {c : ℕ} {k : Option RecordState}
    (h : s.withSessions c k = some s') :
    s' = s.panic c ∨ s.sessionsPoisoned = false ∧ s.sessionsLock = none ∧ k = some s' := by
  unfold withSessions at h
  split at h
  case isTrue => exact Or.inl (Option.some_inj.mp h).symm
  case isFalse hpoisoned =>
      split at h
      case isTrue hfree => exact Or.inr ⟨Bool.eq_false_iff.mpr hpoisoned, hfree, h⟩
      case isFalse => cases h

theorem withPanes_cases {s s' : RecordState} {c : ℕ} {k : Option RecordState}
    (h : s.withPanes c k = some s') :
    s' = s.panic c ∨ s.panesPoisoned = false ∧ s.panesLock = none ∧ k = some s' := by
  unfold withPanes at h
  split at h
  case isTrue => exact Or.inl (Option.some_inj.mp h).symm
  case isFalse hpoisoned =>
      split at h
      case isTrue hfree => exact Or.inr ⟨Bool.eq_false_iff.mpr hpoisoned, hfree, h⟩
      case isFalse => cases h

theorem withPersist_cases {s s' : RecordState} {c : ℕ} {k : Option RecordState}
    (h : s.withPersist c k = some s') :
    s' = s.panic c ∨ s.persistPoisoned = false ∧ s.persistLock = none ∧ k = some s' := by
  unfold withPersist at h
  split at h
  case isTrue => exact Or.inl (Option.some_inj.mp h).symm
  case isFalse hpoisoned =>
      split at h
      case isTrue hfree => exact Or.inr ⟨Bool.eq_false_iff.mpr hpoisoned, hfree, h⟩
      case isFalse => cases h

/-! ## The calls -/

/-- A call that relies on no session and holds no lock of them. -/
theorem indexedCall_free (s : RecordState) (c : ℕ) {pc : RecordCall} (hsplit : splitting pc = none)
    (hfound : foundSession pc = none) (hholds : holdsSessions pc = false) : IndexedCall s c pc where
  splitting := fun session h => by rw [hsplit] at h; cases h
  found := fun session h => by rw [hfound] at h; cases h
  lock := fun h => by rw [hholds] at h; cases h

/-- A split that has changed its session. -/
theorem indexedCall_splitting {s : RecordState} {c : ℕ} {pc : RecordCall} {session : Uuid}
    (hsplit : splitting pc = some session) (hfound : foundSession pc = none)
    (hmem : session ∈ s.sessions) (hlock : holdsSessions pc = true → s.sessionsLock = some c) :
    IndexedCall s c pc where
  splitting := fun session' h => by
    rw [hsplit, Option.some_inj] at h
    exact h ▸ hmem
  found := fun session' h => by rw [hfound] at h; cases h
  lock := hlock

/-- A call that holds the sessions lock since it found its session. -/
theorem indexedCall_found {s : RecordState} {c : ℕ} {pc : RecordCall} {session : Uuid}
    (hsplit : splitting pc = none) (hfound : foundSession pc = some session)
    (hmem : session ∈ s.sessions) (hlock : s.sessionsLock = some c) : IndexedCall s c pc where
  splitting := fun session' h => by rw [hsplit] at h; cases h
  found := fun session' h => by
    rw [hfound, Option.some_inj] at h
    exact h ▸ hmem
  lock := fun _ => hlock

theorem IndexInv.goto_free {s s' : RecordState} (hs : IndexInv s) {c : ℕ} {pc : RecordCall}
    (hcalls : s'.calls = s.calls.insert c pc)
    (hsessions : ∀ session ∈ s.sessions, session ∈ s'.sessions)
    (hlock : ∀ c', c' ≠ c → s.sessionsLock = some c' → s'.sessionsLock = some c')
    (hsplit : splitting pc = none) (hfound : foundSession pc = none)
    (hholds : holdsSessions pc = false) : IndexInv s' := by
  apply hs.keep (some pc) hcalls hsessions hlock
  rintro pc' ⟨rfl⟩
  exact indexedCall_free s' c hsplit hfound hholds

theorem IndexInv.finish {s : RecordState} (hs : IndexInv s) (c : ℕ) : IndexInv (s.finish c) := by
  apply hs.keep none rfl
  · exact fun session h => h
  · exact fun c' _ h => h
  · intro pc h
    cases h

theorem mem_insert_session {s : RecordState} {session : Uuid} {st : NamedSession} :
    ∀ x ∈ s.sessions, x ∈ s.sessions.insert session st := by
  intro x hx
  rw [AList.mem_insert]
  exact Or.inr hx

theorem indexInv_create {s s' : RecordState} (hs : IndexInv s) {c : ℕ} {pc : RecordCall}
    (h : s.advanceCreate c pc = some s') : IndexInv s' := by
  unfold advanceCreate at h
  split at h
  case h_1 name policy =>
      obtain rfl | ⟨_, _, h⟩ := withSessions_cases h
      · exact indexInv_panic hs c
      · cases h
        exact hs.goto_free rfl mem_insert_session (fun _ _ h => h) rfl rfl rfl
  case h_2 session window pane =>
      obtain rfl | ⟨_, _, h⟩ := withPanes_cases h
      · exact indexInv_panic hs c
      · cases h
        exact hs.goto_free rfl (fun _ h => h) (fun _ _ h => h) rfl rfl rfl
  case h_3 session window pane =>
      cases h
      exact hs.goto_free rfl (fun _ h => h) (fun _ _ h => h) rfl rfl rfl
  case h_4 session window pane =>
      cases h
      exact hs.goto_free rfl (fun _ h => h) (fun _ _ h => h) rfl rfl rfl
  case h_5 => cases h

/-- A split goes on with the session it changed. -/
theorem IndexInv.goto_splitting {s s' : RecordState} (hs : IndexInv s) {c : ℕ}
    {pc' : RecordCall} {session : Uuid} (hcalls : s'.calls = s.calls.insert c pc')
    (hsessions : ∀ x ∈ s.sessions, x ∈ s'.sessions)
    (hlock : ∀ c', c' ≠ c → s.sessionsLock = some c' → s'.sessionsLock = some c')
    (hsplit : splitting pc' = some session) (hfound : foundSession pc' = none)
    (hmem : session ∈ s'.sessions) (hheld : holdsSessions pc' = true → s'.sessionsLock = some c) :
    IndexInv s' := by
  apply hs.keep (some pc') hcalls hsessions hlock
  rintro pc'' ⟨rfl⟩
  exact indexedCall_splitting hsplit hfound hmem hheld

theorem releases {s : RecordState} {c : ℕ} (hheld : s.sessionsLock = some c)
    (lock : Option ℕ) : ∀ c', c' ≠ c → s.sessionsLock = some c' → lock = some c' := by
  intro c' hne h
  rw [hheld, Option.some_inj] at h
  exact absurd h.symm hne

theorem takes {s : RecordState} (hfree : s.sessionsLock = none) (c : ℕ) (lock : Option ℕ) :
    ∀ c', c' ≠ c → s.sessionsLock = some c' → lock = some c' := by
  intro c' _ h
  rw [hfree] at h
  cases h

theorem indexInv_split {s s' : RecordState} (hs : IndexInv s) {c : ℕ} {pc : RecordCall}
    (hpc : s.calls.lookup c = some pc) (h : s.advanceSplit c pc = some s') : IndexInv s' := by
  have hcall := hs c pc hpc
  unfold advanceSplit at h
  split at h
  case h_1 target orientation =>
      split at h
      case h_1 =>
          cases h
          exact hs.finish c
      case h_2 window session hfound =>
          cases h
          exact hs.goto_free rfl (fun _ h => h) (fun _ _ h => h) rfl rfl rfl
  case h_2 target orientation window session =>
      obtain rfl | ⟨_, hfree, h⟩ := withSessions_cases h
      · exact indexInv_panic hs c
      · split at h
        case h_1 =>
            cases h
            exact hs.finish c
        case h_2 st hst =>
            dsimp only at h
            split at h
            case h_1 =>
                cases h
                refine hs.keep none rfl (fun _ h => h) (takes hfree c _) ?_
                intro pc' hpc'
                cases hpc'
            case h_2 =>
                cases h
                exact hs.finish c
            case h_3 windows hwindows =>
                cases h
                refine hs.goto_splitting rfl mem_insert_session (fun _ _ h => h) rfl rfl ?_ ?_
                · exact AList.mem_insert _ |>.mpr (Or.inl rfl)
                · intro hholds
                  cases hholds
  case h_3 session window pane =>
      obtain rfl | ⟨_, _, h⟩ := withPanes_cases h
      · exact indexInv_panic hs c
      · cases h
        exact hs.goto_splitting rfl (fun _ h => h) (fun _ _ h => h) rfl rfl
          (hcall.splitting session rfl) Bool.noConfusion
  case h_4 session window pane =>
      cases h
      exact hs.goto_splitting rfl (fun _ h => h) (fun _ _ h => h) rfl rfl
        (hcall.splitting session rfl) Bool.noConfusion
  case h_5 session window pane =>
      cases h
      exact hs.goto_splitting rfl (fun _ h => h) (fun _ _ h => h) rfl rfl
        (hcall.splitting session rfl) Bool.noConfusion
  case h_6 session =>
      obtain rfl | ⟨_, hfree, h⟩ := withSessions_cases h
      · exact indexInv_panic hs c
      · cases h
        exact hs.goto_splitting rfl (fun _ h => h) (takes hfree c _) rfl rfl
          (hcall.splitting session rfl) (fun _ => rfl)
  case h_7 session =>
      obtain rfl | ⟨_, _, h⟩ := withPanes_cases h
      · exact indexInv_panic hs c
      · split at h
        case isTrue =>
            cases h
            exact hs.goto_free rfl (fun _ h => h) (releases (hcall.lock rfl) _) rfl rfl rfl
        case isFalse hnot => exact absurd (hcall.splitting session rfl) hnot
  case h_8 => cases h

/-- A call goes on with the session it found under the lock. -/
theorem IndexInv.goto_found {s s' : RecordState} (hs : IndexInv s) {c : ℕ} {pc' : RecordCall}
    {session : Uuid} (hcalls : s'.calls = s.calls.insert c pc')
    (hsessions : ∀ x ∈ s.sessions, x ∈ s'.sessions)
    (hlock : ∀ c', c' ≠ c → s.sessionsLock = some c' → s'.sessionsLock = some c')
    (hsplit : splitting pc' = none) (hfound : foundSession pc' = some session)
    (hmem : session ∈ s'.sessions) (hheld : s'.sessionsLock = some c) : IndexInv s' := by
  apply hs.keep (some pc') hcalls hsessions hlock
  rintro pc'' ⟨rfl⟩
  exact indexedCall_found hsplit hfound hmem hheld

theorem indexInv_close {s s' : RecordState} (hs : IndexInv s) {c : ℕ} {pc : RecordCall}
    (hpc : s.calls.lookup c = some pc) (hapart : Apart s (.advance c))
    (h : s.advanceClose c pc = some s') : IndexInv s' := by
  have hcall := hs c pc hpc
  unfold advanceClose at h
  split at h
  case h_1 pane =>
      split at h
      case h_1 =>
          cases h
          exact hs.finish c
      case h_2 window session hfound =>
          cases h
          exact hs.goto_free rfl (fun _ h => h) (fun _ _ h => h) rfl rfl rfl
  case h_2 pane window session =>
      obtain rfl | ⟨_, hfree, h⟩ := withSessions_cases h
      · exact indexInv_panic hs c
      · split at h
        case h_1 =>
            cases h
            exact hs.finish c
        case h_2 st hst =>
            split at h
            case h_1 =>
                cases h
                exact hs.finish c
            case h_2 windowClosed hclosed =>
                cases h
                have hremoving : removing s (.closeLayout pane window session) = some session := by
                  simp only [removing, hst, Option.bind_some, hclosed]
                apply hs.remove (some _) rfl hfree rfl (hapart _ session hpc hremoving)
                rintro pc' ⟨rfl⟩
                exact indexedCall_free _ c rfl rfl rfl
            case h_3 w ws windowClosed hclosed =>
                cases h
                refine hs.goto_found rfl mem_insert_session (takes hfree c _) rfl rfl ?_ rfl
                exact AList.mem_insert _ |>.mpr (Or.inl rfl)
  case h_3 session closing =>
      obtain rfl | ⟨_, _, h⟩ := withPanes_cases h
      · exact indexInv_panic hs c
      · split at h
        case isTrue =>
            cases h
            exact hs.goto_free rfl (fun _ h => h) (releases (hcall.lock rfl) _) rfl rfl rfl
        case isFalse hnot => exact absurd (hcall.found session rfl) hnot
  case h_4 pane windowClosed =>
      cases h
      exact hs.goto_free rfl (fun _ h => h) (fun _ _ h => h) rfl rfl rfl
  case h_5 pane =>
      obtain rfl | ⟨_, _, h⟩ := withPanes_cases h
      · exact indexInv_panic hs c
      · cases h
        exact IndexInv.finish (s := { s with entries := s.entries.erase pane })
          (fun c' pc' h => ⟨(hs c' pc' h).splitting, (hs c' pc' h).found, (hs c' pc' h).lock⟩) c
  case h_6 => cases h

theorem indexInv_window {s s' : RecordState} (hs : IndexInv s) {c : ℕ} {pc : RecordCall}
    (hpc : s.calls.lookup c = some pc) (h : s.advanceWindow c pc = some s') : IndexInv s' := by
  have hcall := hs c pc hpc
  unfold advanceWindow at h
  split at h
  case h_1 session =>
      obtain rfl | ⟨_, hfree, h⟩ := withSessions_cases h
      · exact indexInv_panic hs c
      · split at h
        case h_1 =>
            cases h
            exact hs.finish c
        case h_2 st hst =>
            cases h
            refine hs.goto_found rfl mem_insert_session (takes hfree c _) rfl rfl ?_ rfl
            exact AList.mem_insert _ |>.mpr (Or.inl rfl)
  case h_2 session window pane =>
      obtain rfl | ⟨_, _, h⟩ := withPanes_cases h
      · exact indexInv_panic hs c
      · cases h
        exact hs.goto_found rfl (fun _ h => h) (fun _ _ h => h) rfl rfl (hcall.found session rfl)
          (hcall.lock rfl)
  case h_3 session window pane =>
      cases h
      exact hs.goto_found rfl (fun _ h => h) (fun _ _ h => h) rfl rfl (hcall.found session rfl)
        (hcall.lock rfl)
  case h_4 session window pane =>
      cases h
      exact hs.goto_found rfl (fun _ h => h) (fun _ _ h => h) rfl rfl (hcall.found session rfl)
        (hcall.lock rfl)
  case h_5 session =>
      obtain rfl | ⟨_, _, h⟩ := withPanes_cases h
      · exact indexInv_panic hs c
      · split at h
        case isTrue =>
            cases h
            exact hs.goto_free rfl (fun _ h => h) (releases (hcall.lock rfl) _) rfl rfl rfl
        case isFalse hnot => exact absurd (hcall.found session rfl) hnot
  case h_6 => cases h

theorem indexInv_kill {s s' : RecordState} (hs : IndexInv s) {c : ℕ} {pc : RecordCall}
    (hpc : s.calls.lookup c = some pc) (hapart : Apart s (.advance c))
    (h : s.advanceKill c pc = some s') : IndexInv s' := by
  unfold advanceKill at h
  split at h
  case h_1 session =>
      obtain rfl | ⟨_, hfree, h⟩ := withSessions_cases h
      · exact indexInv_panic hs c
      · split at h
        case h_1 =>
            cases h
            exact hs.finish c
        case h_2 st hst =>
            cases h
            apply hs.remove (some _) rfl hfree rfl (hapart _ session hpc rfl)
            rintro pc' ⟨rfl⟩
            exact indexedCall_free _ c rfl rfl rfl
  case h_2 session windows panes =>
      cases h
      exact hs.goto_free rfl (fun _ h => h) (fun _ _ h => h) rfl rfl rfl
  case h_3 session panes =>
      obtain rfl | ⟨_, _, h⟩ := withPanes_cases h
      · exact indexInv_panic hs c
      · cases h
        exact hs.goto_free rfl (fun _ h => h) (fun _ _ h => h) rfl rfl rfl
  case h_4 session =>
      cases h
      exact hs.goto_free rfl (fun _ h => h) (fun _ _ h => h) rfl rfl rfl
  case h_5 session pane panes =>
      cases h
      exact hs.goto_free rfl (fun _ h => h) (fun _ _ h => h) rfl rfl rfl
  case h_6 => cases h

theorem indexInv_change {s s' : RecordState} (hs : IndexInv s) {c : ℕ} {pc : RecordCall}
    (h : s.advanceChange c pc = some s') : IndexInv s' := by
  unfold advanceChange at h
  split at h
  case h_1 session policy applyToExisting =>
      obtain rfl | ⟨_, _, h⟩ := withSessions_cases h
      · exact indexInv_panic hs c
      · split at h
        case h_1 =>
            cases h
            exact hs.finish c
        case h_2 st hst =>
            cases h
            exact hs.goto_free rfl mem_insert_session (fun _ _ h => h) rfl rfl rfl
  case h_2 session =>
      cases h
      exact hs.goto_free rfl (fun _ h => h) (fun _ _ h => h) rfl rfl rfl
  case h_3 session pane panes =>
      split at h
      case isTrue =>
          cases h
          exact hs.goto_free rfl (fun _ h => h) (fun _ _ h => h) rfl rfl rfl
      case isFalse =>
          cases h
          exact hs.finish c
  case h_4 pane =>
      split at h
      case h_1 =>
          cases h
          exact hs.finish c
      case h_2 =>
          cases h
          exact hs.goto_free rfl (fun _ h => h) (fun _ _ h => h) rfl rfl rfl
  case h_5 window rows cols =>
      split at h
      case h_1 =>
          cases h
          exact hs.finish c
      case h_2 =>
          cases h
          exact hs.goto_free rfl (fun _ h => h) (fun _ _ h => h) rfl rfl rfl
  case h_6 session window rows cols =>
      obtain rfl | ⟨_, _, h⟩ := withSessions_cases h
      · exact indexInv_panic hs c
      · split at h
        case h_1 =>
            cases h
            exact hs.finish c
        case h_2 st hst =>
            split at h
            case isTrue =>
                cases h
                exact hs.goto_free rfl mem_insert_session (fun _ _ h => h) rfl rfl rfl
            case isFalse =>
                cases h
                exact hs.finish c
  case h_7 => cases h

theorem IndexInv.afterPersist {s s' : RecordState} (hs : IndexInv s) (c : ℕ)
    (closing : Option Closing) (hcalls : s'.calls = s.calls) (hsessions : s'.sessions = s.sessions)
    (hlock : ∀ c', c' ≠ c → s.sessionsLock = some c' → s'.sessionsLock = some c') :
    IndexInv (s'.afterPersist c closing) := by
  have hmem : ∀ x ∈ s.sessions, x ∈ s'.sessions := by
    rw [hsessions]
    exact fun x h => h
  cases closing with
  | none =>
      refine hs.keep none ?_ hmem hlock fun pc h => ?_
      · show s'.calls.erase c = s.calls.erase c
        rw [hcalls]
      · cases h
  | some closing =>
      have hgoto : (s'.goto c (.closeIndex closing)).calls =
          s.calls.insert c (.closeIndex closing) := by
        rw [← hcalls]
        rfl
      exact hs.goto_free hgoto hmem hlock rfl rfl rfl

theorem indexInv_persist {s s' : RecordState} (hs : IndexInv s) {c : ℕ} {pc : RecordCall}
    (hpc : s.calls.lookup c = some pc) (h : s.advancePersist c pc = some s') : IndexInv s' := by
  have hcall := hs c pc hpc
  unfold advancePersist at h
  split at h
  case h_1 session closing =>
      obtain rfl | ⟨_, _, h⟩ := withPersist_cases h
      · exact indexInv_panic hs c
      · cases h
        exact hs.goto_free rfl (fun _ h => h) (fun _ _ h => h) rfl rfl rfl
  case h_2 session closing =>
      obtain rfl | ⟨_, hfree, h⟩ := withSessions_cases h
      · exact indexInv_panic hs c
      · cases h
        refine hs.keep (some _) rfl (fun _ h => h) (takes hfree c _) ?_
        rintro pc' ⟨rfl⟩
        exact ⟨fun _ h => (nomatch h), fun _ h => (nomatch h), fun _ => rfl⟩
  case h_3 session closing =>
      obtain rfl | ⟨_, _, h⟩ := withPanes_cases h
      · exact indexInv_panic hs c
      · split at h
        case h_1 =>
            cases h
            exact hs.afterPersist c closing rfl rfl (releases (hcall.lock rfl) _)
        case h_2 st hst =>
            cases h
            exact hs.goto_free rfl (fun _ h => h) (releases (hcall.lock rfl) _) rfl rfl rfl
  case h_4 session record closing =>
      cases h
      exact hs.afterPersist c closing rfl rfl (fun _ _ h => h)
  case h_5 session closing =>
      obtain rfl | ⟨_, _, h⟩ := withPersist_cases h
      · exact indexInv_panic hs c
      · cases h
        exact hs.afterPersist c closing rfl rfl (fun _ _ h => h)
  case h_6 => cases h

theorem indexInv_advance {s s' : RecordState} (hs : IndexInv s) {c : ℕ}
    (hapart : Apart s (.advance c)) (h : s.step (.advance c) = some s') : IndexInv s' := by
  simp only [RecordState.step, Option.bind_eq_some_iff] at h
  obtain ⟨pc, hpc, h⟩ := h
  unfold advanceCall at h
  split at h
  all_goals first
    | exact indexInv_create hs h
    | exact indexInv_split hs hpc h
    | exact indexInv_close hs hpc hapart h
    | exact indexInv_window hs hpc h
    | exact indexInv_kill hs hpc hapart h
    | exact indexInv_change hs h
    | exact indexInv_persist hs hpc h

theorem indexInv_begin {s s' : RecordState} (hs : IndexInv s) {c : ℕ} {pc : RecordCall}
    (hsplit : splitting pc = none) (hfound : foundSession pc = none)
    (hholds : holdsSessions pc = false) (h : s.begin c pc = some s') : IndexInv s' := by
  unfold RecordState.begin at h
  split at h
  case isTrue => cases h
  case isFalse =>
      cases h
      exact hs.goto_free rfl (fun _ h => h) (fun _ _ h => h) hsplit hfound hholds

theorem indexInv_beginValid {s s' : RecordState} (hs : IndexInv s) {c : ℕ} {pc : RecordCall}
    {policy : RestartPolicy} (hsplit : splitting pc = none) (hfound : foundSession pc = none)
    (hholds : holdsSessions pc = false) (h : s.beginValid c policy pc = some s') :
    IndexInv s' := by
  unfold RecordState.beginValid at h
  split at h
  case h_1 =>
      cases h
      exact hs
  case h_2 => exact indexInv_begin hs hsplit hfound hholds h

theorem indexInv_step {s s' : RecordState} {e : RecordEvent} (hs : IndexInv s) (he : Apart s e)
    (h : s.step e = some s') : IndexInv s' := by
  cases e with
  | createSession c name policy => exact indexInv_beginValid hs rfl rfl rfl h
  | splitPane c target orientation => exact indexInv_begin hs rfl rfl rfl h
  | closePane c pane => exact indexInv_begin hs rfl rfl rfl h
  | createWindow c session => exact indexInv_begin hs rfl rfl rfl h
  | killSession c session => exact indexInv_begin hs rfl rfl rfl h
  | setSessionRestartPolicy c session policy applyToExisting =>
      exact indexInv_beginValid hs rfl rfl rfl h
  | supervisionPersist c pane => exact indexInv_begin hs rfl rfl rfl h
  | recomputeWindow c window rows cols => exact indexInv_begin hs rfl rfl rfl h
  | advance c => exact indexInv_advance hs he h

theorem found_of_indexInv {s : RecordState} (hs : IndexInv s) (e : RecordEvent) : Found s e := by
  intro session hindexed
  unfold indexed at hindexed
  split at hindexed
  case h_2 => cases hindexed
  case h_1 c =>
      split at hindexed
      case isTrue => cases hindexed
      case isFalse =>
          split at hindexed
          case h_1 session' hpc =>
              cases hindexed
              exact (hs c _ hpc).splitting session rfl
          case h_2 session' closing hpc =>
              cases hindexed
              exact (hs c _ hpc).found session rfl
          case h_3 session' hpc =>
              cases hindexed
              exact (hs c _ hpc).found session rfl
          case h_4 => cases hindexed

/-- **In a run in which no session is removed between the layout change of a split and its
snapshot, every session that is indexed is there.** -/
theorem indexing_finds_session {s : RecordState} (hidle : s.calls = ∅) {es : List RecordEvent}
    (hapart : Along RecordState.step Apart s es) : Along RecordState.step Found s es := by
  have hs : IndexInv s := by
    intro c pc hpc
    rw [hidle] at hpc
    cases hpc
  apply hapart.of_invariant (I := IndexInv) _ _ hs
  · intro s e s' hs he h
    exact indexInv_step hs he h
  · intro s e hs _
    exact found_of_indexInv hs e

/-- A session is made, and its pane is split while a window is added to it. -/
def splitAndWindow : List RecordEvent :=
  .createSession 0 "main" .default :: List.replicate 8 (.advance 0) ++
    [.splitPane 1 2 .vertical, .createWindow 2 0, .advance 1, .advance 1, .advance 2] ++
    List.replicate 4 (.advance 2) ++ List.replicate 5 (.advance 1)

theorem indexing_finds_session_splitAndWindow :
    Along RecordState.step Found .init splitAndWindow :=
  indexing_finds_session rfl (by decide +kernel)

/-- The session is killed between the layout change of a split and its snapshot. -/
def killedSplit : List RecordEvent :=
  .createSession 0 "main" .default :: List.replicate 8 (.advance 0) ++
    [.splitPane 1 2 .vertical, .advance 1, .advance 1, .killSession 2 0, .advance 2] ++
    List.replicate 5 (.advance 1)

/-- The split indexes a session that is gone, and poisons both locks. -/
theorem killedSplit_not_found :
    ¬ Along RecordState.step Found .init killedSplit ∧
      (run RecordState.step .init killedSplit).map (fun s => (s.sessionsPoisoned, s.panesPoisoned)) =
        some (true, true) := by
  constructor
  · decide +kernel
  · decide +kernel

end Tymux.Analysis.Records
