import Tymux.Analysis.SessionPolicies

/-!
# Splits and closes during a policy change

A split or a close keeps the default and the policies, whatever the policy change has done so far:
the pane that it registers was in no supervision, and the pane that it forgets is in no layout.
-/

set_option autoImplicit false

namespace Tymux.Analysis.Policies

open Tymux.Model Tymux.Lib Records PolicyState

/-! ## Steps that keep the sessions and the policies -/

section Goes

variable {c : ℕ} {s s' : PolicyState} (next : Option PolicyCall)

/-- The step changes at most the index, the store and the calls. -/
structure Same (s s' : PolicyState) : Prop where
  sessions : s'.sessions = s.sessions
  home : s'.home = s.home
  nextId : s'.nextId = s.nextId
  supervision : s'.supervision = s.supervision
  attempt : s'.attempt = s.attempt
  setter : s'.setter = s.setter

theorem lookup_other (hcalls : s'.calls = updateCall s.calls c next) (c' : ℕ)
    (hc : some c ≠ some c') : s'.calls.lookup c' = s.calls.lookup c' := by
  rw [hcalls, lookup_updateCall_of_ne]
  rintro rfl
  exact hc rfl

theorem Same.frame (h : Same s s') (hcalls : s'.calls = updateCall s.calls c next) :
    Frame (some c) s s' where
  others := lookup_other next hcalls
  nextId := Nat.le_of_eq h.nextId.symm
  home p v hp := by
    rw [h.home]
    exact hp
  leaf sid p _ hp := by
    rw [leavesOf_of_eq h.sessions] at hp
    exact hp
  supervision p hp := Or.inl (h.supervision ▸ hp)
  before p hp := Or.inl (h.attempt ▸ hp)

theorem Same.kept (h : Same s s') : Kept s s' where
  attempt := h.attempt
  setter := h.setter
  default sid st' hst' := ⟨st', h.sessions ▸ hst', rfl⟩
  policies p sup' _ hsup' := ⟨sup', h.supervision ▸ hsup', rfl⟩
  stays sid p policy _ hp := by
    unfold HasPolicy
    rw [h.supervision]
    exact hp

theorem Same.shape (h : Same s s') (hshape : Shape (toRecord s)) : Shape (toRecord s') :=
  hshape.of_eq h.sessions h.home h.nextId

/-- INTERNAL: the call goes on, or returns. -/
theorem PolicyInv.goes (h : PolicyInv s) (hnot : ∀ r, s.setter ≠ .returned r)
    (hcalls : s'.calls = updateCall s.calls c next) (hsame : Same s s')
    (hmaps : Frame (some c) s s' → Maps (toRecord s'))
    (hok : ∀ pc, next = some pc → CallOk s' pc ∧ registering pc = none) :
    PolicyInv s'.followed := by
  have hframe : Frame (some c) s s' := hsame.frame next hcalls
  refine hframe.policyInv h (hsame.shape h.shape) (hmaps hframe) ?_ (hsame.kept.setterOk h.setter hnot)
  rintro c' pc ⟨rfl⟩ hpc
  rw [hcalls, lookup_updateCall_self] at hpc
  obtain ⟨hcall, hreg⟩ := hok pc hpc
  refine ⟨hcall, fun p hp => ?_⟩
  rw [hreg] at hp
  cases hp

/-- INTERNAL: the call goes on, or returns, and the index stays. -/
theorem PolicyInv.moves (h : PolicyInv s) (hnot : ∀ r, s.setter ≠ .returned r)
    (hcalls : s'.calls = updateCall s.calls c next) (hsame : Same s s')
    (hpanes : s'.paneWindow = s.paneWindow) (hwindows : s'.windowSession = s.windowSession)
    (hok : ∀ pc, next = some pc → CallOk s' pc ∧ registering pc = none) :
    PolicyInv s'.followed :=
  h.goes next hnot hcalls hsame (fun hframe => hframe.maps h.maps hpanes hwindows) hok

/-- INTERNAL: the call returns. -/
theorem PolicyInv.returns (h : PolicyInv s) (hnot : ∀ r, s.setter ≠ .returned r) (c : ℕ) :
    PolicyInv (s.setCall c none).followed :=
  h.moves none hnot rfl ⟨rfl, rfl, rfl, rfl, rfl, rfl⟩ rfl rfl (by simp)

end Goes

/-! ## A split -/

section Split

variable {c now : ℕ} {s s' : PolicyState}

theorem PolicyInv.home_of_index (h : PolicyInv s) {pane window session : Uuid}
    (hfound : s.windowAndSessionForPane pane = some (window, session)) :
    s.home.lookup pane = some (window, session) := by
  unfold windowAndSessionForPane at hfound
  obtain ⟨w, hw, hrest⟩ := Option.bind_eq_some_iff.mp hfound
  obtain ⟨sid, hsid, heq⟩ := Option.bind_eq_some_iff.mp hrest
  cases heq
  obtain ⟨sid', hhome⟩ := h.maps.panes pane window hw
  obtain ⟨q, hq⟩ := h.maps.windows window session hsid
  obtain rfl := h.shape.functional pane q window sid' session hhome hq
  exact hhome

/-- INTERNAL: a new pane in the layout of a session, not yet registered. -/
theorem PolicyInv.makes (h : PolicyInv s) (hnot : ∀ r, s.setter ≠ .returned r)
    {window session : Uuid} {st : NamedSession} {windows : List NamedWindow}
    (hst : s.sessions.lookup session = some st)
    (hwindow : ∃ q, s.home.lookup q = some (window, session)) (hsane : Sane windows)
    (hplaces : (places windows).Perm ((s.nextId, window) :: places st.windows))
    {pc : PolicyCall} (hreg : registering pc = some s.nextId ∧ ∀ t : PolicyState,
      t.home.lookup s.nextId = some (window, session) → s.nextId ∉ t.supervision →
      s.nextId ∉ t.attempt.before → CallOk t pc)
    (hs' : s' = { s.setSession session { st with windows } with
      nextId := s.nextId + 1
      home := s.home.insert s.nextId (window, session) }.setCall c (some pc)) :
    PolicyInv s'.followed := by
  obtain ⟨q, hq⟩ := hwindow
  obtain ⟨-, hwlt, hslt⟩ := h.shape.known q window session hq
  have hsessions : s'.sessions = s.sessions.insert session { st with windows } := by rw [hs']; rfl
  have hhome : s'.home = s.home.insert s.nextId (window, session) := by rw [hs']; rfl
  have hnext : s'.nextId = s.nextId + 1 := by rw [hs']; rfl
  have hcalls : s'.calls = updateCall s.calls c (some pc) := by rw [hs']; rfl
  have hsup : s'.supervision = s.supervision := by rw [hs']; rfl
  have hattempt : s'.attempt = s.attempt := by rw [hs']; rfl
  have hnew : s.nextId ∉ s.supervision := fun hmem => Nat.lt_irrefl _ (h.supervision _ hmem)
  have hnew' : s.nextId ∉ s.attempt.before := fun hmem => Nat.lt_irrefl _ (h.before _ hmem)
  have hleaves : ∀ p, p ∈ ({ st with windows } : NamedSession).leaves ↔
      p = s.nextId ∨ p ∈ st.leaves := by
    intro p
    rw [mem_leaves, mem_leaves]
    constructor
    · rintro ⟨w, hw⟩
      rcases List.mem_cons.mp (hplaces.mem_iff.mp hw) with heq | hold
      · cases heq
        exact Or.inl rfl
      · exact Or.inr ⟨w, hold⟩
    · rintro (rfl | ⟨w, hw⟩)
      · exact ⟨window, hplaces.mem_iff.mpr List.mem_cons_self⟩
      · exact ⟨w, hplaces.mem_iff.mpr (List.mem_cons_of_mem _ hw)⟩
  have hframe : Frame (some c) s s' := by
    refine ⟨lookup_other (some pc) hcalls, by rw [hnext]; exact Nat.le_succ _, ?_, ?_, ?_, ?_⟩
    · intro p v hp
      rw [hhome, AList.lookup_insert_ne]
      · exact hp
      · rintro rfl
        exact Nat.lt_irrefl _ (h.shape.known s.nextId v.1 v.2 hp).1
    · intro sid p hp hmem
      obtain ⟨rfl, hleaf⟩ | ⟨-, hold⟩ := (mem_leavesOf_insert hsessions).mp hmem
      · obtain rfl | hold := (hleaves p).mp hleaf
        · exact absurd hp (Nat.lt_irrefl _)
        · exact mem_leavesOf.mpr ⟨st, hst, hold⟩
      · exact hold
    · intro p hp
      exact Or.inl (hsup ▸ hp)
    · intro p hp
      exact Or.inl (hattempt ▸ hp)
  have hkept : Kept s s' := by
    refine ⟨hattempt, by rw [hs']; rfl, ?_, ?_, ?_⟩
    · intro sid st' hst'
      rw [hsessions] at hst'
      obtain ⟨rfl, rfl⟩ | hold := lookup_of_insert hst'
      · exact ⟨st, hst, rfl⟩
      · exact ⟨st', hold, rfl⟩
    · intro p sup' _ hsup'
      exact ⟨sup', hsup ▸ hsup', rfl⟩
    · intro sid p policy _ hp
      unfold HasPolicy
      rw [hsup]
      exact hp
  have hself : s.nextId + 1 = (toRecord s').nextId := hnext.symm
  have hshape : Shape (toRecord s') := by
    refine h.shape.grow (Nat.le_refl _) (Nat.lt_of_lt_of_le hwlt hframe.nextId) ?_
      (by rw [← hself]; exact Nat.lt_succ_self _) hframe.nextId (Nat.lt_of_lt_of_le hslt hframe.nextId)
      hsane ?_ hsessions hhome
    · intro q' sid' hq'
      exact h.shape.functional q' q window sid' session hq' hq
    · intro e he
      rcases List.mem_cons.mp (hplaces.mem_iff.mp he) with heq | hold
      · exact Or.inl heq
      · exact Or.inr ⟨st, hst, hold⟩
  refine hframe.policyInv h hshape (hframe.maps h.maps (by rw [hs']; rfl) (by rw [hs']; rfl)) ?_
    (hkept.setterOk h.setter hnot)
  rintro c' pc' ⟨rfl⟩ hpc'
  rw [hcalls, lookup_updateCall_self, Option.some_inj] at hpc'
  subst hpc'
  refine ⟨hreg.2 s' (by rw [hhome]; exact AList.lookup_insert _) (hsup ▸ hnew) (hattempt ▸ hnew'), ?_⟩
  intro p hp
  rw [hreg.1, Option.some_inj] at hp
  exact Nat.le_of_eq hp

/-- INTERNAL: the new pane gets its supervisor.
SRC: supervision.rs:101-114 -/
theorem PolicyInv.registers (h : PolicyInv s) (hnot : ∀ r, s.setter ≠ .returned r)
    {session window pane : Uuid} {policy : RestartPolicy} {sup : PaneSupervisor}
    (hpc : s.calls.lookup c = some (.splitRegister session window pane policy))
    (hs' : s' = { s with supervision := s.supervision.insert pane sup }.setCall c
      (some (.splitIndex session window pane))) : PolicyInv s'.followed := by
  obtain ⟨hhome, hnew, hbefore⟩ := h.calls c _ hpc
  have hcalls : s'.calls = updateCall s.calls c (some (.splitIndex session window pane)) := by
    rw [hs']
    rfl
  have hsup : s'.supervision = s.supervision.insert pane sup := by
    rw [hs']
    rfl
  have hframe : Frame (some c) s s' := by
    refine ⟨lookup_other _ hcalls, by rw [hs']; exact Nat.le_refl _, ?_, ?_, ?_, ?_⟩
    · intro p v hp
      rw [hs']
      exact hp
    · intro sid p _ hp
      rw [hs'] at hp
      exact hp
    · intro p hp
      rw [hsup] at hp
      obtain rfl | hold := (AList.mem_insert s.supervision).mp hp
      · exact Or.inr (Or.inr ⟨c, _, rfl, hpc, rfl⟩)
      · exact Or.inl hold
    · intro p hp
      rw [hs'] at hp
      exact Or.inl hp
  have hkept : Kept s s' := by
    refine ⟨by rw [hs']; rfl, by rw [hs']; rfl, ?_, ?_, ?_⟩
    · intro sid st hst
      rw [hs'] at hst
      exact ⟨st, hst, rfl⟩
    · intro p sup' hp hlookup
      rw [hsup] at hlookup
      obtain ⟨rfl, -⟩ | hold := lookup_of_insert hlookup
      · exact absurd hp hbefore
      · exact ⟨sup', hold, rfl⟩
    · rintro sid p policy' - ⟨old, hold, heq⟩
      refine ⟨old, ?_, heq⟩
      rw [hsup, AList.lookup_insert_ne]
      · exact hold
      · rintro rfl
        exact hnew (AList.lookup_isSome.mp (by rw [hold]; rfl))
  refine hframe.policyInv h (h.shape.of_eq (by rw [hs']; rfl) (by rw [hs']; rfl) (by rw [hs']; rfl))
    (hframe.maps h.maps (by rw [hs']; rfl) (by rw [hs']; rfl)) ?_ (hkept.setterOk h.setter hnot)
  rintro c' pc ⟨rfl⟩ hpc'
  rw [hcalls, lookup_updateCall_self, Option.some_inj] at hpc'
  subst hpc'
  exact ⟨hframe.home _ _ hhome, by rintro p ⟨⟩⟩

/-- INTERNAL: `split_pane`.
SRC: engine.rs:675-736 -/
theorem policyInv_split (h : PolicyInv s) (hnot : ∀ r, s.setter ≠ .returned r) {pc : PolicyCall}
    (hpc : s.calls.lookup c = some pc) (hstep : s.advanceSplit c now pc = some s') :
    PolicyInv s'.followed := by
  have hok := h.calls c pc hpc
  unfold advanceSplit at hstep
  split at hstep
  case h_1 target orientation =>
      split at hstep
      case h_1 =>
          cases hstep
          exact h.returns hnot c
      case h_2 window session hfound =>
          cases hstep
          refine h.moves (some _) hnot rfl ⟨rfl, rfl, rfl, rfl, rfl, rfl⟩ rfl rfl ?_
          rintro pc ⟨rfl⟩
          exact ⟨⟨target, h.home_of_index hfound⟩, rfl⟩
  case h_2 target orientation window session =>
      split at hstep
      case h_1 =>
          cases hstep
          exact h.returns hnot c
      case h_2 st hst =>
          have hsane := h.shape.sane session st hst
          dsimp only at hstep
          split at hstep
          case h_1 =>
              cases hstep
              exact h.returns hnot c
          case h_2 =>
              cases hstep
              exact h.returns hnot c
          case h_3 windows hsplit =>
              cases hstep
              obtain ⟨hsane', -, hplaces⟩ :=
                hsane.split (h.shape.notMem_panes hst (Nat.le_refl _)) hsplit
              refine h.makes hnot hst hok hsane' hplaces ⟨rfl, ?_⟩ rfl
              intro t hhome hsup hbefore
              exact ⟨hhome, hsup, hbefore⟩
  case h_3 session window pane policy =>
      cases hstep
      exact h.registers hnot hpc rfl
  case h_4 session window pane =>
      cases hstep
      refine h.goes (some _) hnot rfl ⟨rfl, rfl, rfl, rfl, rfl, rfl⟩ ?_ ?_
      · intro hframe
        refine ⟨?_, h.maps.windows⟩
        intro p w hp
        obtain ⟨rfl, rfl⟩ | hold := lookup_of_insert hp
        · exact ⟨session, hok⟩
        · exact h.maps.panes p w hold
      · rintro pc ⟨rfl⟩
        exact ⟨by rintro cl ⟨⟩, rfl⟩
  case h_5 => cases hstep

end Split

/-! ## A close -/

section Close

variable {c : ℕ} {s s' : PolicyState}

/-- The step changes at most the sessions and the calls. -/
structure SameIndex (s s' : PolicyState) : Prop where
  paneWindow : s'.paneWindow = s.paneWindow
  windowSession : s'.windowSession = s.windowSession
  home : s'.home = s.home
  nextId : s'.nextId = s.nextId
  supervision : s'.supervision = s.supervision
  attempt : s'.attempt = s.attempt
  setter : s'.setter = s.setter

/-- Each session after the step was one before, with the leaves it has left. -/
def Shrinks (s s' : PolicyState) : Prop :=
  ∀ sid st', s'.sessions.lookup sid = some st' → ∃ st, s.sessions.lookup sid = some st ∧
    st'.defaultRestartPolicy = st.defaultRestartPolicy ∧ ∀ p ∈ st'.leaves, p ∈ st.leaves

theorem Shrinks.leaf (h : Shrinks s s') {sid p : Uuid} (hp : p ∈ s'.leavesOf sid) :
    p ∈ s.leavesOf sid := by
  obtain ⟨st', hst', hleaf⟩ := mem_leavesOf.mp hp
  obtain ⟨st, hst, -, hsub⟩ := h sid st' hst'
  exact mem_leavesOf.mpr ⟨st, hst, hsub p hleaf⟩

/-- INTERNAL: the pane is taken out of the layout of its session, or the session out of the map.
SRC: engine.rs:742-806 -/
theorem PolicyInv.takesOut (h : PolicyInv s) (hnot : ∀ r, s.setter ≠ .returned r) {pc : PolicyCall}
    {pane window session : Uuid} (hhome : s.home.lookup pane = some (window, session))
    (hcalls : s'.calls = updateCall s.calls c (some pc)) (hsame : SameIndex s s')
    (hshrinks : Shrinks s s') (hshape : Shape (toRecord s')) (hout : pane ∉ s'.leavesOf session)
    (hok : Gone s' pane → CallOk s' pc) (hreg : registering pc = none) :
    PolicyInv s'.followed := by
  have hframe : Frame (some c) s s' := by
    refine ⟨lookup_other _ hcalls, Nat.le_of_eq hsame.nextId.symm, ?_,
      fun sid p _ hp => hshrinks.leaf hp, ?_, ?_⟩
    · intro p v hp
      rw [hsame.home]
      exact hp
    · intro p hp
      exact Or.inl (hsame.supervision ▸ hp)
    · intro p hp
      exact Or.inl (hsame.attempt ▸ hp)
  have hgone : Gone s' pane := by
    have hlt := (h.shape.known pane window session hhome).1
    refine ⟨Nat.lt_of_lt_of_le hlt hframe.nextId, fun sid hmem => ?_⟩
    obtain ⟨w, hw⟩ := h.home_of_leaf (hshrinks.leaf hmem)
    rw [hhome] at hw
    cases hw
    exact hout hmem
  have hkept : Kept s s' := by
    refine ⟨hsame.attempt, hsame.setter, ?_, ?_, ?_⟩
    · intro sid st' hst'
      obtain ⟨st, hst, heq, -⟩ := hshrinks sid st' hst'
      exact ⟨st, hst, heq⟩
    · intro p sup' _ hlookup
      exact ⟨sup', hsame.supervision ▸ hlookup, rfl⟩
    · intro sid p policy _ hp
      unfold HasPolicy
      rw [hsame.supervision]
      exact hp
  refine hframe.policyInv h hshape (hframe.maps h.maps hsame.paneWindow hsame.windowSession) ?_
    (hkept.setterOk h.setter hnot)
  rintro c' pc' ⟨rfl⟩ hpc'
  rw [hcalls, lookup_updateCall_self, Option.some_inj] at hpc'
  subst hpc'
  refine ⟨hok hgone, fun p hp => ?_⟩
  rw [hreg] at hp
  cases hp

/-- INTERNAL: the supervision forgets a pane that is in no layout.
SRC: supervision.rs:154-164 -/
theorem PolicyInv.forgets (h : PolicyInv s) (hnot : ∀ r, s.setter ≠ .returned r) {pane : Uuid}
    (hgone : Gone s pane)
    (hs' : s' = { s with supervision := s.supervision.erase pane }.setCall c none) :
    PolicyInv s'.followed := by
  have hcalls : s'.calls = updateCall s.calls c none := by
    rw [hs']
    rfl
  have hsup : s'.supervision = s.supervision.erase pane := by
    rw [hs']
    rfl
  have hleaf : ∀ sid p, p ∈ s'.leavesOf sid → p ∈ s.leavesOf sid := by
    intro sid p hp
    rw [hs'] at hp
    exact hp
  have hframe : Frame (some c) s s' := by
    refine ⟨lookup_other _ hcalls, by rw [hs']; exact Nat.le_refl _, ?_, fun sid p _ => hleaf sid p,
      ?_, ?_⟩
    · intro p v hp
      rw [hs']
      exact hp
    · intro p hp
      rw [hsup] at hp
      exact Or.inl (AList.mem_erase.mp hp).2
    · intro p hp
      rw [hs'] at hp
      exact Or.inl hp
  have hkept : Kept s s' := by
    refine ⟨by rw [hs']; rfl, by rw [hs']; rfl, ?_, ?_, ?_⟩
    · intro sid st hst
      rw [hs'] at hst
      exact ⟨st, hst, rfl⟩
    · intro p sup' _ hlookup
      rw [hsup] at hlookup
      exact ⟨sup', (lookup_of_erase hlookup).2, rfl⟩
    · rintro sid p policy hp ⟨old, hold, heq⟩
      refine ⟨old, ?_, heq⟩
      rw [hsup, AList.lookup_erase_ne]
      · exact hold
      · rintro rfl
        exact hgone.2 sid (hleaf sid p hp)
  refine hframe.policyInv h (h.shape.of_eq (by rw [hs']; rfl) (by rw [hs']; rfl) (by rw [hs']; rfl))
    (hframe.maps h.maps (by rw [hs']; rfl) (by rw [hs']; rfl)) ?_ (hkept.setterOk h.setter hnot)
  rintro c' pc ⟨rfl⟩ hpc'
  rw [hcalls, lookup_updateCall_self] at hpc'
  cases hpc'

/-- INTERNAL: `close_pane`.
SRC: engine.rs:742-848 -/
theorem policyInv_close (h : PolicyInv s) (hnot : ∀ r, s.setter ≠ .returned r) {pc : PolicyCall}
    (hpc : s.calls.lookup c = some pc) (hstep : s.advanceClose c pc = some s') :
    PolicyInv s'.followed := by
  have hok := h.calls c pc hpc
  unfold advanceClose at hstep
  split at hstep
  case h_1 pane =>
      split at hstep
      case h_1 =>
          cases hstep
          exact h.returns hnot c
      case h_2 window session hfound =>
          cases hstep
          refine h.moves (some _) hnot rfl ⟨rfl, rfl, rfl, rfl, rfl, rfl⟩ rfl rfl ?_
          rintro pc ⟨rfl⟩
          exact ⟨h.home_of_index hfound, rfl⟩
  case h_2 pane window session =>
      split at hstep
      case h_1 =>
          cases hstep
          exact h.returns hnot c
      case h_2 st hst =>
          have hsane := h.shape.sane session st hst
          split at hstep
          case h_1 =>
              cases hstep
              exact h.returns hnot c
          case h_2 windowClosed hclose =>
              cases hstep
              refine h.takesOut hnot hok rfl ⟨rfl, rfl, rfl, rfl, rfl, rfl, rfl⟩ ?_
                (h.shape.erase rfl rfl rfl) ?_ ?_ rfl
              · intro sid st' hst'
                exact ⟨st', (lookup_of_erase hst').2, rfl, fun _ hp => hp⟩
              · intro hmem
                obtain ⟨st', hst', -⟩ := mem_leavesOf.mp hmem
                exact (lookup_of_erase hst').1 rfl
              · rintro hgone cl ⟨rfl⟩
                exact hgone
          case h_3 w ws windowClosed hclose =>
              cases hstep
              obtain ⟨hsane', hplaces⟩ := hsane.close hclose
              refine h.takesOut hnot hok rfl ⟨rfl, rfl, rfl, rfl, rfl, rfl, rfl⟩ ?_
                (h.shape.change hst hsane' (fun e he => (hplaces e he).1) rfl rfl rfl) ?_ ?_ rfl
              · intro sid st' hst'
                obtain ⟨rfl, rfl⟩ | hold := lookup_of_insert hst'
                · refine ⟨st, hst, rfl, fun p hp => ?_⟩
                  obtain ⟨v, hv⟩ := mem_leaves.mp hp
                  exact mem_leaves.mpr ⟨v, (hplaces _ hv).1⟩
                · exact ⟨st', hold, rfl, fun _ hp => hp⟩
              · intro hmem
                obtain ⟨-, hleaf⟩ | ⟨hne, -⟩ := (mem_leavesOf_insert rfl).mp hmem
                · obtain ⟨v, hv⟩ := mem_leaves.mp hleaf
                  obtain ⟨hold, hne⟩ := hplaces _ hv
                  have hhome := h.shape.home session st pane v hst hold
                  have hok' : (toRecord s).home.lookup pane = some (window, session) := hok
                  rw [hok'] at hhome
                  cases hhome
                  exact hne rfl
                · exact hne rfl
              · rintro hgone cl ⟨rfl⟩
                exact hgone
  case h_3 pane windowClosed =>
      cases hstep
      refine h.goes (some _) hnot rfl ⟨rfl, rfl, rfl, rfl, rfl, rfl⟩ ?_ ?_
      · intro hframe
        refine ⟨fun p w hp => h.maps.panes p w (lookup_of_erase hp).2, ?_⟩
        intro w sid hw
        cases windowClosed with
        | none => exact h.maps.windows w sid hw
        | some v => exact h.maps.windows w sid (lookup_of_erase hw).2
      · rintro pc ⟨rfl⟩
        exact ⟨hok, rfl⟩
  case h_4 pane =>
      cases hstep
      exact h.forgets hnot hok rfl
  case h_5 => cases hstep

/-- INTERNAL: `persist_session`, and the deletion of a record.
SRC: engine.rs:1042-1056, engine.rs:803-806 -/
theorem policyInv_persist (h : PolicyInv s) (hnot : ∀ r, s.setter ≠ .returned r) {pc : PolicyCall}
    (hpc : s.calls.lookup c = some pc) (hstep : s.advancePersist c pc = some s') :
    PolicyInv s'.followed := by
  have hok := h.calls c pc hpc
  have hnext : ∀ closing pc', afterPersist closing = some pc' →
      (∀ cl, closing = some cl → Gone s cl.1) → CallOk s pc' ∧ registering pc' = none := by
    intro closing pc' hafter hgone
    cases closing with
    | none => cases hafter
    | some cl =>
        cases hafter
        exact ⟨hgone cl rfl, rfl⟩
  unfold advancePersist at hstep
  split at hstep
  case h_1 session closing =>
      split at hstep
      case isTrue => cases hstep
      case isFalse =>
          split at hstep
          case h_1 =>
              cases hstep
              refine h.moves _ hnot rfl ⟨rfl, rfl, rfl, rfl, rfl, rfl⟩ rfl rfl ?_
              intro pc' hpc'
              obtain ⟨hcall, hreg⟩ := hnext closing pc' hpc' hok
              exact ⟨hcall, hreg⟩
          case h_2 st hst =>
              cases hstep
              refine h.moves (some _) hnot rfl ⟨rfl, rfl, rfl, rfl, rfl, rfl⟩ rfl rfl ?_
              rintro pc' ⟨rfl⟩
              exact ⟨hok, rfl⟩
  case h_2 session record closing =>
      cases hstep
      refine h.moves _ hnot rfl ⟨rfl, rfl, rfl, rfl, rfl, rfl⟩ rfl rfl ?_
      intro pc' hpc'
      obtain ⟨hcall, hreg⟩ := hnext closing pc' hpc' hok
      exact ⟨hcall, hreg⟩
  case h_3 session closing =>
      split at hstep
      case isTrue => cases hstep
      case isFalse =>
          cases hstep
          refine h.moves _ hnot rfl ⟨rfl, rfl, rfl, rfl, rfl, rfl⟩ rfl rfl ?_
          intro pc' hpc'
          obtain ⟨hcall, hreg⟩ := hnext closing pc' hpc' hok
          exact ⟨hcall, hreg⟩
  case h_4 => cases hstep

end Close

end Tymux.Analysis.Policies
