import Tymux.Analysis.RecordShape
import Tymux.Analysis.EngineIndices

/-!
# The stored records are current

A call that changes a session persists it afterwards, and `persist_session` holds the persist lock
from its snapshot to its save. So a stored record is the current one, or a save of the current one
is on its way, or some call is going to persist the session (`Saved`). The one change without a
persist of its own is that of a policy whose call ends early, at a pane that the supervision does
not know: such a pane is about to be registered by a call that persists the session, or it was
closed by one that has done so since.
-/

set_option autoImplicit false

namespace Tymux.Analysis.Records

open Tymux.Model Tymux.Lib RecordState

/-! ## What the calls in progress are going to do -/

/-- The session that a call is going to persist. -/
def persisting (owing : Finset (ℕ × Uuid)) (c : ℕ) : RecordCall → Option Uuid
  | .createPane session _ _ | .createRegister session _ _ | .createIndex session _ _
  | .splitPane session _ _ | .splitRegister session _ _ | .splitIndex session _ _
  | .splitSnapshot session | .splitSnapshotPanes session | .closeSnapshot session _
  | .windowPane session _ _ | .windowRegister session _ _ | .windowIndex session _ _
  | .windowSnapshot session | .persist session _ | .persistSessions session _
  | .persistPanes session _ => some session
  | .policyEach session _ => if (c, session) ∈ owing then some session else none
  | _ => none

/-- The pane that a call is going to register, with its session. -/
def registering : RecordCall → Option (Uuid × Uuid)
  | .createPane session _ pane | .createRegister session _ pane | .splitPane session _ pane
  | .splitRegister session _ pane | .windowPane session _ pane
  | .windowRegister session _ pane => some (session, pane)
  | _ => none

def saving : RecordCall → Option (Uuid × SavedRecord)
  | .save session record _ => some (session, record)
  | _ => none

/-- A call that registers a pane persists its session. -/
theorem persisting_of_registering {pc : RecordCall} {sid p : Uuid}
    (h : registering pc = some (sid, p)) (owing : Finset (ℕ × Uuid)) (c : ℕ) :
    persisting owing c pc = some sid := by
  unfold registering at h
  split at h
  all_goals cases h
  all_goals rfl

/-- A call that sets the policy of panes persists the session if its change is in no snapshot yet. -/
theorem persisting_policyEach {owing : Finset (ℕ × Uuid)} {c : ℕ} {session sid : Uuid}
    {panes : List Uuid} :
    persisting owing c (.policyEach session panes) = some sid ↔
      session = sid ∧ (c, session) ∈ owing := by
  simp [persisting, and_comm]

theorem persisting_mono {owing owing' : Finset (ℕ × Uuid)} {c : ℕ} {pc : RecordCall} {sid : Uuid}
    (howing : (c, sid) ∈ owing → (c, sid) ∈ owing') (h : persisting owing c pc = some sid) :
    persisting owing' c pc = some sid := by
  cases pc with
  | policyEach session panes =>
      obtain ⟨rfl, hmem⟩ := persisting_policyEach.mp h
      exact persisting_policyEach.mpr ⟨rfl, howing hmem⟩
  | _ => exact h

def LeafOf (s : RecordState) (sid p : Uuid) : Prop :=
  ∃ st w, s.sessions.lookup sid = some st ∧ (p, w) ∈ places st.windows

/-- The pane is a leaf of the session, or on the list of a call whose change of the policy is in no
snapshot yet. -/
def Wanted (s : RecordState) (sid p : Uuid) : Prop :=
  LeafOf s sid p ∨ sid ∈ s.sessions ∧ ∃ c panes,
    s.calls.lookup c = some (.policyEach sid panes) ∧ (c, sid) ∈ s.owing ∧ p ∈ panes

def Registered (s : RecordState) (sid p : Uuid) : Prop :=
  p ∈ s.entries ∨ ∃ c pc, s.calls.lookup c = some pc ∧ registering pc = some (sid, p)

def Persists (s : RecordState) (sid : Uuid) : Prop :=
  ∃ c pc, s.calls.lookup c = some pc ∧ persisting s.owing c pc = some sid

/-- The record is stored or on its way, or there is going to be a newer one. -/
def Saved (s : RecordState) (sid : Uuid) (record : SavedRecord) : Prop :=
  Persists s sid ∨ (∃ c pc, s.calls.lookup c = some pc ∧ saving pc = some (sid, record)) ∨
    s.store.lookup sid = some record ∧
      ∀ c pc record', s.calls.lookup c = some pc → saving pc ≠ some (sid, record')

def Removed (s : RecordState) (sid : Uuid) : Prop := sid < s.nextId ∧ sid ∉ s.sessions

/-- Nobody looks the pane up in the supervision any more. -/
def Unwanted (s : RecordState) (p : Uuid) : Prop := p < s.nextId ∧ ∀ sid, ¬ Wanted s sid p

/-- The pane has been taken out of its session. -/
def TakenOut (s : RecordState) (sid p : Uuid) : Prop :=
  (∃ w, s.home.lookup p = some (w, sid)) ∧ ¬ LeafOf s sid p

/-- What a call relies on between two of its steps. -/
def CallOk (s : RecordState) (c : ℕ) : RecordCall → Prop
  | .createPane sid w p | .createRegister sid w p | .createIndex sid w p | .splitPane sid w p
  | .splitRegister sid w p | .splitIndex sid w p | .windowPane sid w p | .windowRegister sid w p
  | .windowIndex sid w p | .closeLayout p w sid => s.home.lookup p = some (w, sid)
  | .splitLayout _ _ w sid => ∃ q, s.home.lookup q = some (w, sid)
  | .closeSnapshot sid closing => TakenOut s sid closing.1
  | .persist sid closing => ∀ cl, closing = some cl → TakenOut s sid cl.1
  | .persistSessions sid closing | .persistPanes sid closing =>
      s.persistLock = some c ∧ ∀ cl, closing = some cl → TakenOut s sid cl.1
  | .save _ _ closing => s.persistLock = some c ∧ ∀ cl, closing = some cl → Unwanted s cl.1
  | .delete sid closing => Removed s sid ∧ ∀ cl, closing = some cl → Unwanted s cl.1
  | .closeIndex closing => Unwanted s closing.1
  | .closePanes p => Unwanted s p
  | .killIndex sid _ ps | .killPanes sid ps | .killEach sid ps =>
      Removed s sid ∧ ∀ p ∈ ps, ∃ w, s.home.lookup p = some (w, sid)
  | .policyEach sid ps => sid < s.nextId ∧ ∀ p ∈ ps, ∃ w, s.home.lookup p = some (w, sid)
  | .resizeLookup _ rows cols | .resizeWindow _ _ rows cols => rows ≤ u16Max ∧ cols ≤ u16Max
  | _ => True

def Calm (s : RecordState) : Prop :=
  s.sessionsPoisoned = false ∧ s.panesPoisoned = false ∧ s.persistPoisoned = false

/-- The reverse index says where panes and windows were made. -/
structure Maps (s : RecordState) : Prop where
  panes : ∀ p w, s.paneWindow.lookup p = some w → ∃ sid, s.home.lookup p = some (w, sid)
  windows : ∀ w sid, s.windowSession.lookup w = some sid → ∃ q, s.home.lookup q = some (w, sid)

structure RecInv (s : RecordState) : Prop where
  calm : Calm s
  shape : Shape s
  maps : Maps s
  calls : ∀ c pc, s.calls.lookup c = some pc → CallOk s c pc
  registered : ∀ sid p, Wanted s sid p → Registered s sid p
  saved : ∀ sid st, s.sessions.lookup sid = some st → Saved s sid st.record
  deleted : ∀ sid ∈ s.deleted, Removed s sid ∧ s.store.lookup sid = none ∧
    ∀ c pc record, s.calls.lookup c = some pc → saving pc ≠ some (sid, record)

theorem mem_of_lookup {s : RecordState} {sid : Uuid} {st : NamedSession}
    (h : s.sessions.lookup sid = some st) : sid ∈ s.sessions :=
  AList.lookup_isSome.mp (by rw [h]; rfl)

theorem LeafOf.mem {s : RecordState} {sid p : Uuid} (h : LeafOf s sid p) : sid ∈ s.sessions := by
  obtain ⟨st, w, hst, -⟩ := h
  exact mem_of_lookup hst

theorem Wanted.mem {s : RecordState} {sid p : Uuid} (h : Wanted s sid p) : sid ∈ s.sessions := by
  rcases h with hleaf | ⟨hmem, -⟩
  · exact hleaf.mem
  · exact hmem

/-- INTERNAL: whoever wants a pane wants it in the session it was made in. -/
theorem RecInv.home_of_wanted {s : RecordState} (h : RecInv s) {sid p : Uuid}
    (hp : Wanted s sid p) : ∃ w, s.home.lookup p = some (w, sid) := by
  rcases hp with ⟨st, w, hst, hplace⟩ | ⟨-, c, panes, hpc, -, hmem⟩
  · exact ⟨w, h.shape.home sid st p w hst hplace⟩
  · exact (h.calls c _ hpc).2 p hmem

theorem RecInv.wanted_session {s : RecordState} (h : RecInv s) {sid sid' p w : Uuid}
    (hhome : s.home.lookup p = some (w, sid)) (hp : Wanted s sid' p) : sid' = sid := by
  obtain ⟨w', hw'⟩ := h.home_of_wanted hp
  rw [hhome] at hw'
  cases hw'
  rfl

/-! ## What a step leaves to the other calls -/

structure Frame (c : ℕ) (s s' : RecordState) : Prop where
  others : ∀ c', c' ≠ c → s'.calls.lookup c' = s.calls.lookup c'
  nextId : s.nextId ≤ s'.nextId
  home : ∀ p v, s.home.lookup p = some v → s'.home.lookup p = some v
  removed : ∀ sid, Removed s sid → sid ∉ s'.sessions
  leaf : ∀ sid p, p < s.nextId → LeafOf s' sid p → LeafOf s sid p
  wanted : ∀ sid p, p < s.nextId → Wanted s' sid p → Wanted s sid p
  lock : ∀ c', c' ≠ c → s.persistLock = some c' → s'.persistLock = some c'

namespace Frame

variable {c : ℕ} {s s' : RecordState}

theorem removed' (h : Frame c s s') {sid : Uuid} (hr : Removed s sid) : Removed s' sid :=
  ⟨Nat.lt_of_lt_of_le hr.1 h.nextId, h.removed sid hr⟩

theorem unwanted (h : Frame c s s') {p : Uuid} (hp : Unwanted s p) : Unwanted s' p :=
  ⟨Nat.lt_of_lt_of_le hp.1 h.nextId, fun sid hw => hp.2 sid (h.wanted sid p hp.1 hw)⟩

theorem takenOut (h : Frame c s s') (hshape : Shape s) {sid p : Uuid} (hp : TakenOut s sid p) :
    TakenOut s' sid p := by
  obtain ⟨⟨w, hw⟩, hleaf⟩ := hp
  exact ⟨⟨w, h.home p _ hw⟩, fun hl => hleaf (h.leaf sid p (hshape.known p w sid hw).1 hl)⟩

/-- INTERNAL: a call keeps what it relies on when another one takes a step. -/
theorem callOk (h : Frame c s s') (hshape : Shape s) {c' : ℕ} (hc : c' ≠ c) {pc : RecordCall}
    (hok : CallOk s c' pc) : CallOk s' c' pc := by
  cases pc with
  | splitLayout target o w sid =>
      obtain ⟨q, hq⟩ := hok
      exact ⟨q, h.home q _ hq⟩
  | closeSnapshot sid closing => exact h.takenOut hshape hok
  | persist sid closing => exact fun cl hcl => h.takenOut hshape (hok cl hcl)
  | persistSessions sid closing =>
      exact ⟨h.lock c' hc hok.1, fun cl hcl => h.takenOut hshape (hok.2 cl hcl)⟩
  | persistPanes sid closing =>
      exact ⟨h.lock c' hc hok.1, fun cl hcl => h.takenOut hshape (hok.2 cl hcl)⟩
  | save sid record closing =>
      exact ⟨h.lock c' hc hok.1, fun cl hcl => h.unwanted (hok.2 cl hcl)⟩
  | delete sid closing => exact ⟨h.removed' hok.1, fun cl hcl => h.unwanted (hok.2 cl hcl)⟩
  | closeIndex closing => exact h.unwanted hok
  | closePanes p => exact h.unwanted hok
  | killIndex sid ws ps =>
      exact ⟨h.removed' hok.1, fun p hp => (hok.2 p hp).imp fun w hw => h.home p _ hw⟩
  | killPanes sid ps =>
      exact ⟨h.removed' hok.1, fun p hp => (hok.2 p hp).imp fun w hw => h.home p _ hw⟩
  | killEach sid ps =>
      exact ⟨h.removed' hok.1, fun p hp => (hok.2 p hp).imp fun w hw => h.home p _ hw⟩
  | policyEach sid ps =>
      exact ⟨Nat.lt_of_lt_of_le hok.1 h.nextId,
        fun p hp => (hok.2 p hp).imp fun w hw => h.home p _ hw⟩
  | resizeLookup window rows cols => exact hok
  | resizeWindow sid window rows cols => exact hok
  | createPane sid w p => exact h.home p _ hok
  | createRegister sid w p => exact h.home p _ hok
  | createIndex sid w p => exact h.home p _ hok
  | splitPane sid w p => exact h.home p _ hok
  | splitRegister sid w p => exact h.home p _ hok
  | splitIndex sid w p => exact h.home p _ hok
  | windowPane sid w p => exact h.home p _ hok
  | windowRegister sid w p => exact h.home p _ hok
  | windowIndex sid w p => exact h.home p _ hok
  | closeLayout p w sid => exact h.home p _ hok
  | _ => trivial

theorem callsOk (h : Frame c s s') (hinv : RecInv s)
    (hnext : ∀ pc, s'.calls.lookup c = some pc → CallOk s' c pc) :
    ∀ c' pc, s'.calls.lookup c' = some pc → CallOk s' c' pc := by
  intro c' pc hpc
  by_cases hc : c' = c
  · subst hc
    exact hnext pc hpc
  · rw [h.others c' hc] at hpc
    exact h.callOk hinv.shape hc (hinv.calls c' pc hpc)

theorem maps (h : Frame c s s') (hmaps : Maps s) (hpanes : s'.paneWindow = s.paneWindow)
    (hwindows : s'.windowSession = s.windowSession) : Maps s' where
  panes p w hp := by
    rw [hpanes] at hp
    exact (hmaps.panes p w hp).imp fun sid hsid => h.home p _ hsid
  windows w sid hw := by
    rw [hwindows] at hw
    exact (hmaps.windows w sid hw).imp fun q hq => h.home q _ hq

end Frame

/-! ## Steps that keep the sessions -/

section Quiet

variable {c : ℕ} {s s' : RecordState} (next : Option RecordCall)

theorem lookup_next (hcalls : s'.calls = updateCall s.calls c next) : s'.calls.lookup c = next := by
  rw [hcalls, lookup_updateCall_self]

theorem lookup_other (hcalls : s'.calls = updateCall s.calls c next) (c' : ℕ) (hc : c' ≠ c) :
    s'.calls.lookup c' = s.calls.lookup c' := by
  rw [hcalls, lookup_updateCall_of_ne hc]

/-- The step changes neither a session nor a stored record. -/
structure KeepsRecords (s s' : RecordState) : Prop where
  sessions : s'.sessions = s.sessions
  home : s'.home = s.home
  nextId : s'.nextId = s.nextId
  owing : s'.owing = s.owing
  store : s'.store = s.store
  deleted : s'.deleted = s.deleted

/-- The call that takes the step does not forget what it is to do. -/
structure Dutiful (c : ℕ) (s s' : RecordState) (next : Option RecordCall) : Prop where
  policy : ∀ sid ps, next = some (.policyEach sid ps) →
    ∃ ps', s.calls.lookup c = some (.policyEach sid ps') ∧ ps ⊆ ps'
  registering : ∀ pc sid p, s.calls.lookup c = some pc → registering pc = some (sid, p) →
    p ∈ s'.entries ∨ next.bind Records.registering = some (sid, p)
  persisting : ∀ pc sid, s.calls.lookup c = some pc → persisting s.owing c pc = some sid →
    sid ∈ s.sessions → next.bind (Records.persisting s.owing c) = some sid ∨
      ∃ c' pc', c' ≠ c ∧ s.calls.lookup c' = some pc' ∧ Records.persisting s.owing c' pc' = some sid
  saving : ∀ pc, s.calls.lookup c = some pc → saving pc = none
  saving' : ∀ pc, next = some pc → Records.saving pc = none

theorem wanted_of_quiet (hcalls : s'.calls = updateCall s.calls c next)
    (hsessions : s'.sessions = s.sessions) (howing : s'.owing = s.owing)
    (hpolicy : ∀ sid ps, next = some (.policyEach sid ps) →
      ∃ ps', s.calls.lookup c = some (.policyEach sid ps') ∧ ps ⊆ ps') {sid p : Uuid}
    (h : Wanted s' sid p) : Wanted s sid p := by
  rcases h with ⟨st, w, hst, hplace⟩ | ⟨hmem, c', panes, hpc, hown, hp⟩
  · rw [hsessions] at hst
    exact Or.inl ⟨st, w, hst, hplace⟩
  · rw [hsessions] at hmem
    rw [howing] at hown
    refine Or.inr ⟨hmem, c', ?_⟩
    by_cases hc : c' = c
    · subst hc
      rw [lookup_next next hcalls] at hpc
      obtain ⟨ps', hpc', hsub⟩ := hpolicy sid panes hpc
      exact ⟨ps', hpc', hown, hsub hp⟩
    · rw [lookup_other next hcalls c' hc] at hpc
      exact ⟨panes, hpc, hown, hp⟩

theorem frame_of_quiet (hcalls : s'.calls = updateCall s.calls c next) (hkeeps : KeepsRecords s s')
    (hpolicy : ∀ sid ps, next = some (.policyEach sid ps) →
      ∃ ps', s.calls.lookup c = some (.policyEach sid ps') ∧ ps ⊆ ps')
    (hlock : ∀ c', c' ≠ c → s.persistLock = some c' → s'.persistLock = some c') : Frame c s s' where
  others := lookup_other next hcalls
  nextId := Nat.le_of_eq hkeeps.nextId.symm
  home p v hp := by rw [hkeeps.home]; exact hp
  removed sid hr := by rw [hkeeps.sessions]; exact hr.2
  leaf sid p _ hl := by
    unfold LeafOf at hl ⊢
    rw [hkeeps.sessions] at hl
    exact hl
  wanted sid p _ hw := wanted_of_quiet next hcalls hkeeps.sessions hkeeps.owing hpolicy hw
  lock := hlock

/-- INTERNAL: a step that changes neither a session nor the stored records. -/
theorem RecInv.quiet (h : RecInv s) (hcalls : s'.calls = updateCall s.calls c next)
    (hkeeps : KeepsRecords s s') (hcalm : Calm s') (hmaps : Maps s')
    (hlock : ∀ c', c' ≠ c → s.persistLock = some c' → s'.persistLock = some c')
    (hentries : ∀ sid p, Wanted s sid p → p ∈ s.entries → p ∈ s'.entries)
    (hduty : Dutiful c s s' next)
    (hok : Frame c s s' → ∀ pc, next = some pc → CallOk s' c pc) : RecInv s' := by
  have hframe : Frame c s s' := frame_of_quiet next hcalls hkeeps hduty.policy hlock
  obtain ⟨hsessions, hhome, hnextId, howing, hstore, hdeleted⟩ := hkeeps
  have hself := lookup_next next hcalls
  have hother := lookup_other next hcalls
  have hsaves : ∀ c' pc v, s'.calls.lookup c' = some pc → saving pc = some v →
      c' ≠ c ∧ s.calls.lookup c' = some pc := by
    intro c' pc v hpc hsave
    have hc : c' ≠ c := by
      rintro rfl
      rw [hself] at hpc
      rw [hduty.saving' pc hpc] at hsave
      cases hsave
    rw [hother c' hc] at hpc
    exact ⟨hc, hpc⟩
  refine ⟨hcalm, h.shape.of_eq hsessions hhome hnextId, hmaps, ?_, ?_, ?_, ?_⟩
  · apply hframe.callsOk h
    intro pc hpc
    rw [hself] at hpc
    exact hok hframe pc hpc
  · intro sid p hw
    have hold := wanted_of_quiet next hcalls hsessions howing hduty.policy hw
    rcases h.registered sid p hold with hp | ⟨c', pc, hpc, hreg⟩
    · exact Or.inl (hentries sid p hold hp)
    · by_cases hc : c' = c
      · subst hc
        rcases hduty.registering pc sid p hpc hreg with hp | hnext
        · exact Or.inl hp
        · obtain ⟨pc', hpc', hreg'⟩ := Option.bind_eq_some_iff.mp hnext
          exact Or.inr ⟨c', pc', hself.trans hpc', hreg'⟩
      · exact Or.inr ⟨c', pc, (hother c' hc).trans hpc, hreg⟩
  · intro sid st hst
    rw [hsessions] at hst
    rcases h.saved sid st hst with ⟨c', pc, hpc, hpers⟩ | ⟨c', pc, hpc, hsave⟩ | ⟨hstored, hnone⟩
    · have hfound : ∃ c'' pc'', s'.calls.lookup c'' = some pc'' ∧
          persisting s.owing c'' pc'' = some sid := by
        by_cases hc : c' = c
        · subst hc
          rcases hduty.persisting pc sid hpc hpers (mem_of_lookup hst) with
            hnext | ⟨c'', pc'', hc'', hpc'', hpers''⟩
          · obtain ⟨pc', hpc', hpers'⟩ := Option.bind_eq_some_iff.mp hnext
            exact ⟨c', pc', hself.trans hpc', hpers'⟩
          · exact ⟨c'', pc'', (hother c'' hc'').trans hpc'', hpers''⟩
        · exact ⟨c', pc, (hother c' hc).trans hpc, hpers⟩
      left
      unfold Persists
      rw [howing]
      exact hfound
    · have hc : c' ≠ c := by
        rintro rfl
        rw [hduty.saving pc hpc] at hsave
        cases hsave
      exact Or.inr (Or.inl ⟨c', pc, (hother c' hc).trans hpc, hsave⟩)
    · refine Or.inr (Or.inr ⟨by rw [hstore]; exact hstored, ?_⟩)
      intro c' pc record hpc hsave
      exact hnone c' pc record (hsaves c' pc _ hpc hsave).2 hsave
  · intro sid hsid
    rw [hdeleted] at hsid
    obtain ⟨hr, hgone, hnone⟩ := h.deleted sid hsid
    refine ⟨hframe.removed' hr, by rw [hstore]; exact hgone, ?_⟩
    intro c' pc record hpc hsave
    exact hnone c' pc record (hsaves c' pc _ hpc hsave).2 hsave

/-! ### The steps of `c` -/

/-- The call stands at `pc` and goes on at `next`, with the same pane to register and the same
session to persist. -/
theorem dutiful_of_eq {pc : RecordCall} (hpc : s.calls.lookup c = some pc)
    (hpolicy : ∀ sid ps, next ≠ some (.policyEach sid ps))
    (hreg : ∀ sid p, registering pc = some (sid, p) →
      p ∈ s'.entries ∨ next.bind registering = some (sid, p))
    (hpers : ∀ sid, persisting s.owing c pc = some sid →
      next.bind (persisting s.owing c) = some sid)
    (hsave : saving pc = none) (hsave' : next.bind saving = none) : Dutiful c s s' next where
  policy sid ps hnext := absurd hnext (hpolicy sid ps)
  registering pc' sid p hpc' hr := by
    rw [hpc, Option.some_inj] at hpc'
    subst hpc'
    exact hreg sid p hr
  persisting pc' sid hpc' hp _ := by
    rw [hpc, Option.some_inj] at hpc'
    subst hpc'
    exact Or.inl (hpers sid hp)
  saving pc' hpc' := by
    rw [hpc, Option.some_inj] at hpc'
    exact hpc' ▸ hsave
  saving' pc' hnext := by
    rw [hnext] at hsave'
    exact hsave'

/-- INTERNAL: the call goes on, or returns, and nothing else changes but locks. -/
theorem RecInv.goes (h : RecInv s) (hcalls : s'.calls = updateCall s.calls c next)
    (hkeeps : KeepsRecords s s') (hcalm : Calm s') (hpanes : s'.paneWindow = s.paneWindow)
    (hwindows : s'.windowSession = s.windowSession) (hentries : s'.entries = s.entries)
    (hlock : ∀ c', c' ≠ c → s.persistLock = some c' → s'.persistLock = some c')
    (hduty : Dutiful c s s' next)
    (hok : Frame c s s' → ∀ pc, next = some pc → CallOk s' c pc) : RecInv s' := by
  have hframe : Frame c s s' := frame_of_quiet next hcalls hkeeps hduty.policy hlock
  refine h.quiet next hcalls hkeeps hcalm (hframe.maps h.maps hpanes hwindows) hlock ?_ hduty hok
  intro sid p _ hp
  rw [hentries]
  exact hp

/-- INTERNAL: only locks other than the persist lock change. -/
theorem RecInv.moves (h : RecInv s) (hcalls : s'.calls = updateCall s.calls c next)
    (hkeeps : KeepsRecords s s') (hcalm : Calm s') (hpanes : s'.paneWindow = s.paneWindow)
    (hwindows : s'.windowSession = s.windowSession) (hentries : s'.entries = s.entries)
    (hlock : s'.persistLock = s.persistLock) (hduty : Dutiful c s s' next)
    (hok : Frame c s s' → ∀ pc, next = some pc → CallOk s' c pc) : RecInv s' := by
  refine h.goes next hcalls hkeeps hcalm hpanes hwindows hentries ?_ hduty hok
  intro c' _ hl
  rw [hlock]
  exact hl

end Quiet

/-! ## Steps that change a session -/

section Changing

variable {c : ℕ} {s s' : RecordState} (next : Option RecordCall) (sid : Uuid)

/-- INTERNAL: a step that changes one session, or removes it, by a call that had nothing to do yet
and persists the session afterwards. -/
theorem RecInv.session (h : RecInv s) (hcalls : s'.calls = updateCall s.calls c next)
    (hothers : ∀ sid', sid' ≠ sid → s'.sessions.lookup sid' = s.sessions.lookup sid')
    (hstore : s'.store = s.store) (hdeleted : s'.deleted = s.deleted) (hcalm : Calm s')
    (hpanes : s'.paneWindow = s.paneWindow) (hwindows : s'.windowSession = s.windowSession)
    (hentries : s'.entries = s.entries) (howing : s.owing ⊆ s'.owing) (hframe : Frame c s s')
    (hshape : Shape s')
    (hidle : ∀ pc, s.calls.lookup c = some pc →
      registering pc = none ∧ persisting s.owing c pc = none ∧ saving pc = none)
    (hsave : ∀ pc, next = some pc → saving pc = none)
    (hpersist : sid ∈ s'.sessions → next.bind (persisting s'.owing c) = some sid)
    (hwanted : ∀ sid' p, Wanted s' sid' p →
      Wanted s sid' p ∨ next.bind registering = some (sid', p))
    (hok : ∀ pc, next = some pc → CallOk s' c pc) : RecInv s' := by
  have hself := lookup_next next hcalls
  have hother := lookup_other next hcalls
  have hsaves : ∀ c' pc v, s'.calls.lookup c' = some pc → saving pc = some v →
      c' ≠ c ∧ s.calls.lookup c' = some pc := by
    intro c' pc v hpc hv
    have hc : c' ≠ c := by
      rintro rfl
      rw [hself] at hpc
      rw [hsave pc hpc] at hv
      cases hv
    rw [hother c' hc] at hpc
    exact ⟨hc, hpc⟩
  refine ⟨hcalm, hshape, hframe.maps h.maps hpanes hwindows, ?_, ?_, ?_, ?_⟩
  · apply hframe.callsOk h
    intro pc hpc
    rw [hself] at hpc
    exact hok pc hpc
  · intro sid' p hw
    rcases hwanted sid' p hw with hold | hnew
    · rcases h.registered sid' p hold with hp | ⟨c', pc, hpc, hreg⟩
      · left
        rw [hentries]
        exact hp
      · have hc : c' ≠ c := by
          rintro rfl
          rw [(hidle pc hpc).1] at hreg
          cases hreg
        exact Or.inr ⟨c', pc, (hother c' hc).trans hpc, hreg⟩
    · obtain ⟨pc, hpc, hreg⟩ := Option.bind_eq_some_iff.mp hnew
      exact Or.inr ⟨c, pc, hself.trans hpc, hreg⟩
  · intro sid' st hst
    by_cases hsid : sid' = sid
    · subst hsid
      obtain ⟨pc, hpc, hpers⟩ := Option.bind_eq_some_iff.mp (hpersist (mem_of_lookup hst))
      exact Or.inl ⟨c, pc, hself.trans hpc, hpers⟩
    · rw [hothers sid' hsid] at hst
      rcases h.saved sid' st hst with ⟨c', pc, hpc, hpers⟩ | ⟨c', pc, hpc, hv⟩ | ⟨hstored, hnone⟩
      · have hc : c' ≠ c := by
          rintro rfl
          rw [(hidle pc hpc).2.1] at hpers
          cases hpers
        refine Or.inl ⟨c', pc, (hother c' hc).trans hpc, ?_⟩
        exact persisting_mono (fun hown => howing hown) hpers
      · have hc : c' ≠ c := by
          rintro rfl
          rw [(hidle pc hpc).2.2] at hv
          cases hv
        exact Or.inr (Or.inl ⟨c', pc, (hother c' hc).trans hpc, hv⟩)
      · refine Or.inr (Or.inr ⟨by rw [hstore]; exact hstored, ?_⟩)
        intro c' pc record hpc hv
        exact hnone c' pc record (hsaves c' pc _ hpc hv).2 hv
  · intro sid' hsid'
    rw [hdeleted] at hsid'
    obtain ⟨hr, hgone, hnone⟩ := h.deleted sid' hsid'
    refine ⟨hframe.removed' hr, by rw [hstore]; exact hgone, ?_⟩
    intro c' pc record hpc hv
    exact hnone c' pc record (hsaves c' pc _ hpc hv).2 hv

/-- INTERNAL: what stays wanted when one session has the panes it had, or fewer, or one more that
was just made. -/
theorem wanted_of_session (hcalls : s'.calls = updateCall s.calls c next)
    (hothers : ∀ sid', sid' ≠ sid → s'.sessions.lookup sid' = s.sessions.lookup sid')
    (new : Option Uuid) (hleaf : ∀ p, LeafOf s' sid p → LeafOf s sid p ∨ new = some p)
    (hpolicy : ∀ sid' ps, next ≠ some (.policyEach sid' ps)) (howing : s'.owing = s.owing)
    (hmem : ∀ c' ps, s.calls.lookup c' = some (.policyEach sid ps) → sid ∈ s'.sessions →
      sid ∈ s.sessions) {sid' p : Uuid} (h : Wanted s' sid' p) :
    Wanted s sid' p ∨ sid' = sid ∧ new = some p := by
  rcases h with hl | ⟨hmem', c', panes, hpc, hown, hp⟩
  · by_cases hsid : sid' = sid
    · subst hsid
      rcases hleaf p hl with hold | hnew
      · exact Or.inl (Or.inl hold)
      · exact Or.inr ⟨rfl, hnew⟩
    · obtain ⟨st, w, hst, hplace⟩ := hl
      rw [hothers sid' hsid] at hst
      exact Or.inl (Or.inl ⟨st, w, hst, hplace⟩)
  · have hc : c' ≠ c := by
      rintro rfl
      rw [lookup_next next hcalls] at hpc
      exact hpolicy sid' panes hpc
    rw [lookup_other next hcalls c' hc] at hpc
    rw [howing] at hown
    refine Or.inl (Or.inr ⟨?_, c', panes, hpc, hown, hp⟩)
    by_cases hsid : sid' = sid
    · subst hsid
      exact hmem c' panes hpc hmem'
    · rw [← AList.lookup_isSome] at hmem' ⊢
      rw [← hothers sid' hsid]
      exact hmem'

end Changing

end Tymux.Analysis.Records
