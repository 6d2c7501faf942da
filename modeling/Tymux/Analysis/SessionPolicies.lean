import Tymux.Model.SessionPolicy
import Tymux.Analysis.StoredRecords

/-!
# A policy change is all or nothing

While no pane leaves the supervision between the list of the panes and its turn, an error of
`set_session_restart_policy` leaves the default and every policy as they were, and with success the
default, the panes that stayed and the stored record have the new policy. A pane that does leave ends
the call early: its default is changed, and so are the panes before it, and nothing is persisted.
-/

set_option autoImplicit false

namespace Tymux.Analysis.Policies

open Tymux.Model Tymux.Lib Records PolicyState

/-! ## All or nothing -/

/-- The default and the policies are as `set_session_restart_policy` found them. -/
def Unchanged (s : PolicyState) : Prop :=
  (∀ st, s.sessions.lookup s.attempt.session = some st →
    s.attempt.defaultBefore = some st.defaultRestartPolicy) ∧
  ∀ p before sup, s.attempt.before.lookup p = some before → s.supervision.lookup p = some sup →
    sup.policy = before.policy

def DefaultSet (s : PolicyState) : Prop :=
  ∀ st, s.sessions.lookup s.attempt.session = some st →
    st.defaultRestartPolicy = s.attempt.policy

def HasPolicy (s : PolicyState) (p : Uuid) (policy : RestartPolicy) : Prop :=
  ∃ sup, s.supervision.lookup p = some sup ∧ sup.policy = policy

/-- The panes that have been in the session throughout have the policy. -/
def PanesSet (s : PolicyState) : Prop :=
  s.attempt.applyToExisting = true →
    ∀ p ∈ s.attempt.throughout, HasPolicy s p s.attempt.policy

/-- The record has the policy, as the default and for the panes. -/
def Shows (a : PolicyAttempt) (r : PolicyRecord) : Prop :=
  r.default = a.policy ∧ (a.applyToExisting = true →
    ∀ p ∈ a.throughout, ∃ state, (p, some state) ∈ r.panes ∧ state.policy = a.policy)

/-- The default, the panes and the stored record have the policy. -/
def Changed (s : PolicyState) : Prop :=
  DefaultSet s ∧ PanesSet s ∧
    (s.attempt.session ∈ s.sessions →
      ∃ r, s.store.lookup s.attempt.session = some r ∧ Shows s.attempt r)

/-- A call that returns an error has changed nothing, and one that returns without has changed it
all. -/
def AllOrNothing (s : PolicyState) : Prop :=
  match s.setter with
  | .returned (.error _) => Unchanged s
  | .returned (.ok ()) => Changed s
  | _ => True

/-! ## The invariant -/

/-- The sessions and where the panes were made, for what is known of them. -/
def toRecord (s : PolicyState) : RecordState where
  __ := RecordState.init
  sessions := s.sessions
  paneWindow := s.paneWindow
  windowSession := s.windowSession
  nextId := s.nextId
  home := s.home

/-- The pane that a call is going to register. -/
def registering : PolicyCall → Option Uuid
  | .splitRegister _ _ pane _ => some pane
  | _ => none

/-- The pane has been taken out of the layouts. -/
def Gone (s : PolicyState) (p : Uuid) : Prop := p < s.nextId ∧ ∀ sid, p ∉ s.leavesOf sid

/-- What a call relies on between two of its steps. -/
def CallOk (s : PolicyState) : PolicyCall → Prop
  | .splitLayout _ _ w sid => ∃ q, s.home.lookup q = some (w, sid)
  | .splitRegister sid w p _ =>
      s.home.lookup p = some (w, sid) ∧ p ∉ s.supervision ∧ p ∉ s.attempt.before
  | .splitIndex sid w p | .closeLayout p w sid => s.home.lookup p = some (w, sid)
  | .persist _ closing | .save _ _ closing | .delete _ closing =>
      ∀ cl, closing = some cl → Gone s cl.1
  | .closeIndex cl => Gone s cl.1
  | .closePanes p => Gone s p
  | _ => True

/-- What the policy change has done so far. -/
def SetterOk (s : PolicyState) : Prop :=
  match s.setter with
  | .idle => True
  | .collect session policy applyToExisting =>
      s.attempt.session = session ∧ s.attempt.policy = policy ∧
        s.attempt.applyToExisting = applyToExisting ∧ policy.validate = .ok () ∧ Unchanged s
  | .each session policy panes =>
      s.attempt.session = session ∧ s.attempt.policy = policy ∧ policy.validate = .ok () ∧
        DefaultSet s ∧ (s.attempt.applyToExisting = true →
          ∀ p ∈ s.attempt.throughout, p ∈ panes ∨ HasPolicy s p policy)
  | .persist session => s.attempt.session = session ∧ DefaultSet s ∧ PanesSet s
  | .save session r =>
      s.attempt.session = session ∧ DefaultSet s ∧ PanesSet s ∧ Shows s.attempt r
  | .returned (.error _) => Unchanged s
  | .returned (.ok ()) => Changed s

structure PolicyInv (s : PolicyState) : Prop where
  shape : Shape (toRecord s)
  maps : Maps (toRecord s)
  calls : ∀ c pc, s.calls.lookup c = some pc → CallOk s pc
  apart : ∀ c c' pc pc' p, s.calls.lookup c = some pc → s.calls.lookup c' = some pc' →
    registering pc = some p → registering pc' = some p → c = c'
  supervision : ∀ p ∈ s.supervision, p < s.nextId
  before : ∀ p ∈ s.attempt.before, p < s.nextId
  throughout : ∀ p ∈ s.attempt.throughout, p ∈ s.leavesOf s.attempt.session
  setter : SetterOk s

theorem SetterOk.allOrNothing {s : PolicyState} (h : SetterOk s) : AllOrNothing s := by
  unfold AllOrNothing
  unfold SetterOk at h
  split
  case h_1 e heq =>
      rw [heq] at h
      exact h
  case h_2 heq =>
      rw [heq] at h
      exact h
  case h_3 => trivial

/-! ## Leaves -/

section Leaves

variable {s s' : PolicyState} {sid p : Uuid}

theorem mem_leavesOf : p ∈ s.leavesOf sid ↔
    ∃ st, s.sessions.lookup sid = some st ∧ p ∈ st.leaves := by
  unfold leavesOf
  cases h : s.sessions.lookup sid with
  | none => simp
  | some st => simp

theorem mem_leaves {st : NamedSession} : p ∈ st.leaves ↔ ∃ w, (p, w) ∈ places st.windows := by
  unfold NamedSession.leaves
  rw [← map_fst_places, List.mem_map]
  constructor
  · rintro ⟨⟨q, w⟩, hmem, rfl⟩
    exact ⟨w, hmem⟩
  · rintro ⟨w, hmem⟩
    exact ⟨(p, w), hmem, rfl⟩

/-- A leaf is where it was made. -/
theorem PolicyInv.home_of_leaf (h : PolicyInv s) (hp : p ∈ s.leavesOf sid) :
    ∃ w, s.home.lookup p = some (w, sid) := by
  obtain ⟨st, hst, hleaf⟩ := mem_leavesOf.mp hp
  obtain ⟨w, hplace⟩ := mem_leaves.mp hleaf
  exact ⟨w, h.shape.home sid st p w hst hplace⟩

theorem leavesOf_of_eq (h : s'.sessions = s.sessions) (sid : Uuid) :
    s'.leavesOf sid = s.leavesOf sid := by
  unfold leavesOf
  rw [h]

/-- The leaves of a session that is put into the map, and of the others. -/
theorem mem_leavesOf_insert {session : Uuid} {st : NamedSession}
    (h : s'.sessions = s.sessions.insert session st) :
    p ∈ s'.leavesOf sid ↔ sid = session ∧ p ∈ st.leaves ∨ sid ≠ session ∧ p ∈ s.leavesOf sid := by
  unfold leavesOf
  rw [h]
  by_cases hsid : sid = session
  · subst hsid
    simp [AList.lookup_insert]
  · simp [AList.lookup_insert_ne hsid, hsid]

end Leaves

/-! ## What a step leaves to the other calls -/

/-- What a step keeps, of the call `own` if any. -/
structure Frame (own : Option ℕ) (s s' : PolicyState) : Prop where
  others : ∀ c, own ≠ some c → s'.calls.lookup c = s.calls.lookup c
  nextId : s.nextId ≤ s'.nextId
  home : ∀ p v, s.home.lookup p = some v → s'.home.lookup p = some v
  leaf : ∀ sid p, p < s.nextId → p ∈ s'.leavesOf sid → p ∈ s.leavesOf sid
  supervision : ∀ p ∈ s'.supervision, p ∈ s.supervision ∨ (s.nextId ≤ p ∧ p < s'.nextId) ∨
    ∃ c pc, own = some c ∧ s.calls.lookup c = some pc ∧ registering pc = some p
  before : ∀ p ∈ s'.attempt.before, p ∈ s.attempt.before ∨ p ∈ s.supervision

namespace Frame

variable {own : Option ℕ} {s s' : PolicyState}

theorem gone (h : Frame own s s') {p : Uuid} (hp : Gone s p) : Gone s' p :=
  ⟨Nat.lt_of_lt_of_le hp.1 h.nextId, fun sid hmem => hp.2 sid (h.leaf sid p hp.1 hmem)⟩

/-- A pane that a call is going to register was drawn. -/
theorem registering_lt (hinv : PolicyInv s) {c : ℕ} {pc : PolicyCall} {p : Uuid}
    (hpc : s.calls.lookup c = some pc) (hreg : registering pc = some p) : p < s.nextId := by
  have hok := hinv.calls c pc hpc
  cases pc with
  | splitRegister sid w q policy =>
      cases hreg
      exact (hinv.shape.known p w sid hok.1).1
  | _ => cases hreg

/-- INTERNAL: a call keeps what it relies on when something else takes a step. -/
theorem callOk (h : Frame own s s') (hinv : PolicyInv s) {c : ℕ} (hc : own ≠ some c)
    {pc : PolicyCall} (hpc : s.calls.lookup c = some pc) : CallOk s' pc := by
  have hok := hinv.calls c pc hpc
  cases pc with
  | splitLayout target o w sid =>
      obtain ⟨q, hq⟩ := hok
      exact ⟨q, h.home q _ hq⟩
  | splitRegister sid w p policy =>
      obtain ⟨hhome, hsup, hbefore⟩ := hok
      refine ⟨h.home p _ hhome, ?_, ?_⟩
      · intro hmem
        obtain hold | ⟨hle, -⟩ | ⟨c', pc', hown, hpc', hreg⟩ := h.supervision p hmem
        · exact hsup hold
        · exact absurd (hinv.shape.known p w sid hhome).1 (Nat.not_lt.mpr hle)
        · obtain rfl := hinv.apart c' c pc' _ p hpc' hpc hreg rfl
          exact hc hown
      · intro hmem
        obtain hold | hsup' := h.before p hmem
        · exact hbefore hold
        · exact hsup hsup'
  | splitIndex sid w p => exact h.home p _ hok
  | closeLayout p w sid => exact h.home p _ hok
  | persist sid closing => exact fun cl hcl => h.gone (hok cl hcl)
  | save sid r closing => exact fun cl hcl => h.gone (hok cl hcl)
  | delete sid closing => exact fun cl hcl => h.gone (hok cl hcl)
  | closeIndex cl => exact h.gone hok
  | closePanes p => exact h.gone hok
  | splitLookup target o => trivial
  | closeLookup p => trivial

theorem supervision_lt (h : Frame own s s') (hinv : PolicyInv s) :
    ∀ p ∈ s'.supervision, p < s'.nextId := by
  intro p hp
  obtain hold | ⟨-, hlt⟩ | ⟨c, pc, -, hpc, hreg⟩ := h.supervision p hp
  · exact Nat.lt_of_lt_of_le (hinv.supervision p hold) h.nextId
  · exact hlt
  · exact Nat.lt_of_lt_of_le (registering_lt hinv hpc hreg) h.nextId

theorem before_lt (h : Frame own s s') (hinv : PolicyInv s) :
    ∀ p ∈ s'.attempt.before, p < s'.nextId := by
  intro p hp
  obtain hold | hsup := h.before p hp
  · exact Nat.lt_of_lt_of_le (hinv.before p hold) h.nextId
  · exact Nat.lt_of_lt_of_le (hinv.supervision p hsup) h.nextId

theorem maps (h : Frame own s s') (hmaps : Maps (toRecord s))
    (hpanes : s'.paneWindow = s.paneWindow) (hwindows : s'.windowSession = s.windowSession) :
    Maps (toRecord s') where
  panes p w hp := by
    have hp' : s.paneWindow.lookup p = some w := hpanes ▸ hp
    exact (hmaps.panes p w hp').imp fun sid hsid => h.home p _ hsid
  windows w sid hw := by
    have hw' : s.windowSession.lookup w = some sid := hwindows ▸ hw
    exact (hmaps.windows w sid hw').imp fun q hq => h.home q _ hq

/-- INTERNAL: a step keeps the invariant if it keeps what the others rely on, and its call goes on
with what it relies on. -/
theorem policyInv (h : Frame own s s') (hinv : PolicyInv s) (hshape : Shape (toRecord s'))
    (hmaps : Maps (toRecord s'))
    (hself : ∀ c pc, own = some c → s'.calls.lookup c = some pc →
      CallOk s' pc ∧ ∀ p, registering pc = some p → s.nextId ≤ p)
    (hsetter : SetterOk s'.followed) : PolicyInv s'.followed where
  shape := hshape
  maps := hmaps
  calls := by
    intro c pc hpc
    have hok : CallOk s' pc := by
      by_cases hc : own = some c
      · exact (hself c pc hc hpc).1
      · exact h.callOk hinv hc ((h.others c hc).symm.trans hpc)
    cases pc <;> exact hok
  apart := by
    intro c c' pc pc' p hpc hpc' hreg hreg'
    by_cases hc : own = some c
    · by_cases hc' : own = some c'
      · exact Option.some_inj.mp (hc.symm.trans hc')
      · have hold := registering_lt hinv ((h.others c' hc').symm.trans hpc') hreg'
        exact absurd hold (Nat.not_lt.mpr ((hself c pc hc hpc).2 p hreg))
    · have hold := registering_lt hinv ((h.others c hc).symm.trans hpc) hreg
      by_cases hc' : own = some c'
      · exact absurd hold (Nat.not_lt.mpr ((hself c' pc' hc' hpc').2 p hreg'))
      · exact hinv.apart c c' pc pc' p ((h.others c hc).symm.trans hpc)
          ((h.others c' hc').symm.trans hpc') hreg hreg'
  supervision := h.supervision_lt hinv
  before := h.before_lt hinv
  throughout := fun p hp => of_decide_eq_true (List.mem_filter.mp hp).2
  setter := hsetter

end Frame

/-! ## What a step leaves to the policy change -/

structure Kept (s s' : PolicyState) : Prop where
  attempt : s'.attempt = s.attempt
  setter : s'.setter = s.setter
  default : ∀ sid st', s'.sessions.lookup sid = some st' → ∃ st, s.sessions.lookup sid = some st ∧
    st'.defaultRestartPolicy = st.defaultRestartPolicy
  policies : ∀ p sup', p ∈ s.attempt.before → s'.supervision.lookup p = some sup' →
    HasPolicy s p sup'.policy
  stays : ∀ sid p policy, p ∈ s'.leavesOf sid → HasPolicy s p policy → HasPolicy s' p policy

namespace Kept

variable {s s' : PolicyState}

theorem unchanged (h : Kept s s') (hs : Unchanged s) : Unchanged s'.followed := by
  refine ⟨?_, ?_⟩
  · intro st' hst'
    have hlookup : s'.sessions.lookup s'.attempt.session = some st' := hst'
    rw [h.attempt] at hlookup
    obtain ⟨st, hst, heq⟩ := h.default _ st' hlookup
    show s'.attempt.defaultBefore = _
    rw [h.attempt, heq]
    exact hs.1 st hst
  · intro p before sup' hbefore hsup'
    have hbefore' : s'.attempt.before.lookup p = some before := hbefore
    rw [h.attempt] at hbefore'
    have hmem : p ∈ s.attempt.before := AList.lookup_isSome.mp (by rw [hbefore']; rfl)
    obtain ⟨sup, hsup, heq⟩ := h.policies p sup' hmem hsup'
    rw [← heq]
    exact hs.2 p before sup hbefore' hsup

theorem defaultSet (h : Kept s s') (hs : DefaultSet s) : DefaultSet s'.followed := by
  intro st' hst'
  have hlookup : s'.sessions.lookup s'.attempt.session = some st' := hst'
  rw [h.attempt] at hlookup
  obtain ⟨st, hst, heq⟩ := h.default _ st' hlookup
  show _ = s'.attempt.policy
  rw [h.attempt, heq]
  exact hs st hst

/-- A pane that is still followed was so before, and is a leaf of the session. -/
theorem throughout (h : Kept s s') {p : Uuid} (hp : p ∈ s'.followed.attempt.throughout) :
    p ∈ s.attempt.throughout ∧ p ∈ s'.leavesOf s.attempt.session := by
  obtain ⟨hmem, hleaf⟩ := List.mem_filter.mp hp
  rw [h.attempt] at hmem hleaf
  exact ⟨hmem, of_decide_eq_true hleaf⟩

theorem panesSet (h : Kept s s') (hs : PanesSet s) : PanesSet s'.followed := by
  intro happly p hp
  have happly' : s'.attempt.applyToExisting = true := happly
  obtain ⟨hmem, hleaf⟩ := h.throughout hp
  show HasPolicy s' p s'.attempt.policy
  rw [h.attempt] at happly' ⊢
  exact h.stays _ p _ hleaf (hs happly' p hmem)

theorem shows_of (h : Kept s s') {r : PolicyRecord} (hs : Shows s.attempt r) :
    Shows s'.followed.attempt r := by
  obtain ⟨hdefault, hpanes⟩ := hs
  refine ⟨?_, ?_⟩
  · show _ = s'.attempt.policy
    rw [h.attempt]
    exact hdefault
  · intro happly p hp
    have happly' : s'.attempt.applyToExisting = true := happly
    rw [h.attempt] at happly'
    obtain ⟨state, hstate, heq⟩ := hpanes happly' p (h.throughout hp).1
    refine ⟨state, hstate, ?_⟩
    show _ = s'.attempt.policy
    rw [h.attempt]
    exact heq

/-- INTERNAL: the policy change goes on from where it stands. -/
theorem setterOk (h : Kept s s') (hok : SetterOk s) (hnot : ∀ r, s.setter ≠ .returned r) :
    SetterOk s'.followed := by
  have hsetter : s'.followed.setter = s.setter := h.setter
  have hattempt := h.attempt
  unfold SetterOk at hok ⊢
  rw [hsetter]
  cases hstage : s.setter with
  | idle => trivial
  | collect session policy applyToExisting =>
      rw [hstage] at hok
      obtain ⟨hsession, hpolicy, happly, hvalid, hunchanged⟩ := hok
      rw [← hattempt] at hsession hpolicy happly
      exact ⟨hsession, hpolicy, happly, hvalid, h.unchanged hunchanged⟩
  | each session policy panes =>
      rw [hstage] at hok
      obtain ⟨hsession, hpolicy, hvalid, hdefault, hpanes⟩ := hok
      rw [← hattempt] at hsession hpolicy
      refine ⟨hsession, hpolicy, hvalid, h.defaultSet hdefault, ?_⟩
      intro happly p hp
      have happly' : s'.attempt.applyToExisting = true := happly
      rw [hattempt] at happly'
      obtain ⟨hmem, hleaf⟩ := h.throughout hp
      obtain hrest | hset := hpanes happly' p hmem
      · exact Or.inl hrest
      · exact Or.inr (h.stays _ p _ hleaf hset)
  | persist session =>
      rw [hstage] at hok
      obtain ⟨hsession, hdefault, hpanes⟩ := hok
      rw [← hattempt] at hsession
      exact ⟨hsession, h.defaultSet hdefault, h.panesSet hpanes⟩
  | save session r =>
      rw [hstage] at hok
      obtain ⟨hsession, hdefault, hpanes, hshows⟩ := hok
      rw [← hattempt] at hsession
      exact ⟨hsession, h.defaultSet hdefault, h.panesSet hpanes, h.shows_of hshows⟩
  | returned r => exact absurd hstage (hnot r)

end Kept

end Tymux.Analysis.Policies
