import Tymux.Analysis.PersistOrder

/-!
# Every step of every call

No call panics as long as no session is removed between the layout change of a split and its
snapshot, and then each step keeps `RecInv`.
-/

set_option autoImplicit false

namespace Tymux.Analysis.Records

open Tymux.Model Tymux.Lib RecordState

section Steps

variable {s s' : RecordState} {c : ℕ}

/-! ## Every call -/

theorem recInv_create (h : RecInv s) {pc : RecordCall} (hpc : s.calls.lookup c = some pc)
    (hstep : s.advanceCreate c pc = some s') : RecInv s' := by
  have hok := h.calls c pc hpc
  unfold advanceCreate at hstep
  split at hstep
  case h_1 name policy =>
      obtain ⟨-, hk⟩ := h.calm.withSessions hstep
      cases hk
      refine h.makes hpc ⟨rfl, rfl, rfl⟩ rfl ⟨rfl, rfl, rfl, rfl, rfl, rfl⟩ h.calm rfl rfl rfl
        (Nat.le_add_right _ _) ⟨?_, ?_, ?_⟩ (Nat.le_add_right _ _) ?_ (Or.inr (Nat.le_refl _))
        (sane_new _ _ _) ?_ rfl fun hhome => hhome
      · exact Nat.lt_succ_self (s.nextId + 2)
      · exact Nat.lt_of_lt_of_le (Nat.lt_succ_self (s.nextId + 1)) (Nat.le_succ _)
      · exact Nat.lt_add_of_pos_right (Nat.succ_pos 2)
      · intro q sid' hq
        exact absurd (h.shape.known q _ sid' hq).2.1 (Nat.not_lt.mpr (Nat.le_succ _))
      · intro e he
        rw [places_new, List.mem_singleton] at he
        exact Or.inl he
  case h_2 session window pane =>
      have hk := h.calm.withPanes hstep
      cases hk
      exact h.moved hpc rfl ⟨rfl, rfl, rfl, rfl, rfl, rfl⟩ h.calm rfl rfl rfl rfl (by simp)
        (fun _ _ hr => hr) (fun _ hp => hp) ⟨rfl, rfl⟩ fun hframe => hframe.home _ _ hok
  case h_3 session window pane =>
      cases hstep
      refine h.grows hpc rfl ⟨rfl, rfl, rfl, rfl, rfl, rfl⟩ h.calm
        (fun hframe => hframe.maps h.maps rfl rfl) (Finset.subset_insert _ _) rfl (by simp) ?_
        (fun _ hp => hp) ⟨rfl, rfl⟩ fun hframe => hframe.home _ _ hok
      rintro sid p ⟨rfl⟩
      exact Or.inl (Finset.mem_insert_self _ _)
  case h_4 session window pane =>
      cases hstep
      refine h.grows hpc rfl ⟨rfl, rfl, rfl, rfl, rfl, rfl⟩ h.calm
        (fun _ => h.maps.insertPane hok rfl rfl ?_) (Finset.Subset.refl _) rfl (by simp)
        (fun _ _ hr => absurd hr (by simp [registering])) (fun _ hp => hp) ⟨rfl, rfl⟩
        fun _ cl hcl => absurd hcl (by simp)
      intro v t hv
      rcases lookup_of_insert hv with ⟨rfl, rfl⟩ | hold
      · exact Or.inr ⟨rfl, rfl⟩
      · exact Or.inl hold
  case h_5 => cases hstep

/-- INTERNAL: `split_pane`.
SRC: engine.rs:675-736 -/
theorem recInv_split (h : RecInv s) (hs : IndexInv s) {pc : RecordCall}
    (hpc : s.calls.lookup c = some pc) (hstep : s.advanceSplit c pc = some s') : RecInv s' := by
  have hok := h.calls c pc hpc
  unfold advanceSplit at hstep
  split at hstep
  case h_1 target orientation =>
      split at hstep
      case h_1 =>
          cases hstep
          exact h.finished hpc rfl rfl rfl
      case h_2 window session hfound =>
          cases hstep
          exact h.moved hpc rfl ⟨rfl, rfl, rfl, rfl, rfl, rfl⟩ h.calm rfl rfl rfl rfl (by simp)
            (fun _ _ hr => hr) (fun _ hp => hp) ⟨rfl, rfl⟩
            fun hframe => ⟨target, hframe.home _ _ (h.home_of_index hfound)⟩
  case h_2 target orientation window session =>
      obtain ⟨-, hk⟩ := h.calm.withSessions hstep
      split at hk
      case h_1 =>
          cases hk
          exact h.finished hpc rfl rfl rfl
      case h_2 st hst =>
          have hsane := h.shape.sane session st hst
          dsimp only at hk
          split at hk
          case h_1 hpanic =>
              exact absurd hpanic (hsane.splitWindow_ne_none target orientation s.nextId window)
          case h_2 =>
              cases hk
              exact h.finished hpc rfl rfl rfl
          case h_3 windows hsplit =>
              cases hk
              obtain ⟨q, hq⟩ := hok
              obtain ⟨-, hwindow, hsession⟩ := h.shape.known q window session hq
              obtain ⟨hsane', -, hplaces⟩ :=
                hsane.split (h.shape.notMem_panes hst (Nat.le_refl _)) hsplit
              refine h.makes hpc ⟨rfl, rfl, rfl⟩ rfl ⟨rfl, rfl, rfl, rfl, rfl, rfl⟩ h.calm rfl rfl rfl
                (Nat.le_refl _) ⟨Nat.lt_succ_self s.nextId, Nat.lt_succ_of_lt hwindow,
                  Nat.lt_succ_of_lt hsession⟩ (Nat.le_succ _) ?_ (Or.inl (mem_of_lookup hst)) hsane'
                ?_ rfl fun hhome => hhome
              · intro q' sid' hq'
                exact h.shape.functional q' q window sid' session hq' hq
              · intro e he
                rcases List.mem_cons.mp (hplaces.mem_iff.mp he) with heq | hold
                · exact Or.inl heq
                · exact Or.inr ⟨st, hst, hold⟩
  case h_3 session window pane =>
      have hk := h.calm.withPanes hstep
      cases hk
      exact h.moved hpc rfl ⟨rfl, rfl, rfl, rfl, rfl, rfl⟩ h.calm rfl rfl rfl rfl (by simp)
        (fun _ _ hr => hr) (fun _ hp => hp) ⟨rfl, rfl⟩ fun hframe => hframe.home _ _ hok
  case h_4 session window pane =>
      cases hstep
      refine h.grows hpc rfl ⟨rfl, rfl, rfl, rfl, rfl, rfl⟩ h.calm
        (fun hframe => hframe.maps h.maps rfl rfl) (Finset.subset_insert _ _) rfl (by simp) ?_
        (fun _ hp => hp) ⟨rfl, rfl⟩ fun hframe => hframe.home _ _ hok
      rintro sid p ⟨rfl⟩
      exact Or.inl (Finset.mem_insert_self _ _)
  case h_5 session window pane =>
      cases hstep
      exact h.grows hpc rfl ⟨rfl, rfl, rfl, rfl, rfl, rfl⟩ h.calm
        (fun _ => h.maps.insertPane hok rfl rfl fun v t hv => Or.inl hv) (Finset.Subset.refl _) rfl
        (by simp) (fun _ _ hr => absurd hr (by simp [registering])) (fun _ hp => hp) ⟨rfl, rfl⟩
        fun _ => trivial
  case h_6 session =>
      obtain ⟨-, hk⟩ := h.calm.withSessions hstep
      cases hk
      exact h.moved hpc rfl ⟨rfl, rfl, rfl, rfl, rfl, rfl⟩ h.calm rfl rfl rfl rfl (by simp)
        (fun _ _ hr => hr) (fun _ hp => hp) ⟨rfl, rfl⟩ fun _ => trivial
  case h_7 session =>
      have hk := h.calm.withPanes hstep
      rw [if_pos ((hs c _ hpc).splitting session rfl)] at hk
      cases hk
      exact h.moved hpc rfl ⟨rfl, rfl, rfl, rfl, rfl, rfl⟩ h.calm rfl rfl rfl rfl (by simp)
        (fun _ _ hr => hr) (fun _ hp => hp) ⟨rfl, rfl⟩ fun _ cl hcl => absurd hcl (by simp)
  case h_8 => cases hstep

/-- INTERNAL: `close_pane`.
SRC: engine.rs:742-848 -/
theorem recInv_close (h : RecInv s) (hs : IndexInv s) {pc : RecordCall}
    (hpc : s.calls.lookup c = some pc) (hstep : s.advanceClose c pc = some s') : RecInv s' := by
  have hok := h.calls c pc hpc
  unfold advanceClose at hstep
  split at hstep
  case h_1 pane =>
      split at hstep
      case h_1 =>
          cases hstep
          exact h.finished hpc rfl rfl rfl
      case h_2 window session hfound =>
          cases hstep
          exact h.moved hpc rfl ⟨rfl, rfl, rfl, rfl, rfl, rfl⟩ h.calm rfl rfl rfl rfl (by simp)
            (fun _ _ hr => hr) (fun _ hp => hp) ⟨rfl, rfl⟩
            fun hframe => hframe.home _ _ (h.home_of_index hfound)
  case h_2 pane window session =>
      obtain ⟨-, hk⟩ := h.calm.withSessions hstep
      split at hk
      case h_1 =>
          cases hk
          exact h.finished hpc rfl rfl rfl
      case h_2 st hst =>
          have hsane := h.shape.sane session st hst
          split at hk
          case h_1 =>
              cases hk
              exact h.finished hpc rfl rfl rfl
          case h_2 windowClosed hclose =>
              cases hk
              refine h.erases hpc ⟨rfl, rfl, rfl⟩ rfl ⟨rfl, rfl, rfl, rfl, rfl, rfl⟩ h.calm rfl rfl
                rfl hst rfl (by simp) rfl ?_
              intro hframe hremoved
              refine ⟨hremoved, ?_⟩
              rintro cl ⟨rfl⟩
              refine ⟨Nat.lt_of_lt_of_le (h.shape.known pane window session hok).1 hframe.nextId, ?_⟩
              intro sid' hw
              obtain rfl := h.wanted_session hok
                (hframe.wanted sid' pane (h.shape.known pane window session hok).1 hw)
              exact hremoved.2 hw.mem
          case h_3 w ws windowClosed hclose =>
              cases hk
              obtain ⟨hsane', hplaces⟩ := hsane.close hclose
              refine h.changes hpc ⟨rfl, rfl, rfl⟩ rfl ⟨rfl, rfl, rfl, rfl, rfl, rfl⟩ h.calm rfl rfl
                rfl hst rfl hsane' (fun e he => (hplaces e he).1) (by simp) rfl rfl ?_
              intro hframe
              refine ⟨⟨window, hframe.home _ _ hok⟩, ?_⟩
              rintro ⟨st', v, hst', hmem⟩
              have hst'' := (AList.lookup_insert s.sessions).symm.trans hst'
              cases hst''
              obtain ⟨hold, hne⟩ := hplaces _ hmem
              have hhome := h.shape.home session st pane v hst hold
              rw [hok] at hhome
              cases hhome
              exact hne rfl
  case h_3 session closing =>
      have hk := h.calm.withPanes hstep
      rw [if_pos ((hs c _ hpc).found session rfl)] at hk
      cases hk
      refine h.moved hpc rfl ⟨rfl, rfl, rfl, rfl, rfl, rfl⟩ h.calm rfl rfl rfl rfl (by simp)
        (fun _ _ hr => hr) (fun _ hp => hp) ⟨rfl, rfl⟩ ?_
      rintro hframe cl ⟨rfl⟩
      exact hframe.takenOut h.shape hok
  case h_4 pane windowClosed =>
      cases hstep
      refine h.grows hpc rfl ⟨rfl, rfl, rfl, rfl, rfl, rfl⟩ h.calm
        (fun _ => h.maps.shrink rfl (fun p w hp => (lookup_of_erase hp).2) ?_)
        (Finset.Subset.refl _) rfl (by simp) (fun _ _ hr => Or.inr hr) (fun _ hp => hp) ⟨rfl, rfl⟩
        fun hframe => hframe.unwanted hok
      intro w sid hw
      cases windowClosed with
      | none => exact hw
      | some v => exact (lookup_of_erase hw).2
  case h_5 pane =>
      have hk := h.calm.withPanes hstep
      cases hk
      exact h.forgets hpc none ⟨rfl, rfl, rfl⟩ (by simp) hok rfl ⟨rfl, rfl, rfl, rfl, rfl, rfl⟩ h.calm
        rfl rfl rfl rfl (by simp)
  case h_6 => cases hstep

/-- INTERNAL: `create_window`.
SRC: engine.rs:851-893 -/
theorem recInv_window (h : RecInv s) (hs : IndexInv s) {pc : RecordCall}
    (hpc : s.calls.lookup c = some pc) (hstep : s.advanceWindow c pc = some s') : RecInv s' := by
  have hok := h.calls c pc hpc
  unfold advanceWindow at hstep
  split at hstep
  case h_1 session =>
      obtain ⟨-, hk⟩ := h.calm.withSessions hstep
      split at hk
      case h_1 =>
          cases hk
          exact h.finished hpc rfl rfl rfl
      case h_2 st hst =>
          cases hk
          have hsession := h.shape.lookup_lt hst
          have hsane' := (h.shape.sane session st hst).add (toString st.windows.length)
            (h.shape.notMem_windows hst (Nat.le_refl s.nextId))
            (h.shape.notMem_panes hst (Nat.le_succ s.nextId))
          refine h.makes hpc ⟨rfl, rfl, rfl⟩ rfl ⟨rfl, rfl, rfl, rfl, rfl, rfl⟩ h.calm rfl rfl rfl
            (Nat.le_succ _) ⟨Nat.lt_succ_self (s.nextId + 1), Nat.lt_add_of_pos_right (Nat.succ_pos 1),
              Nat.lt_of_lt_of_le hsession (Nat.le_add_right _ _)⟩ (Nat.le_add_right _ _) ?_
            (Or.inl (mem_of_lookup hst)) hsane' ?_ rfl fun hhome => hhome
          · intro q sid' hq
            exact absurd (h.shape.known q _ sid' hq).2.1 (Nat.lt_irrefl _)
          · intro e he
            have he' : e ∈ places st.windows ++
                places [newWindow s.nextId (toString st.windows.length) (s.nextId + 1)] := by
              rw [← places_append]
              exact he
            rcases List.mem_append.mp he' with hold | hnew
            · exact Or.inr ⟨st, hst, hold⟩
            · rw [places_new, List.mem_singleton] at hnew
              exact Or.inl hnew
  case h_2 session window pane =>
      have hk := h.calm.withPanes hstep
      cases hk
      exact h.moved hpc rfl ⟨rfl, rfl, rfl, rfl, rfl, rfl⟩ h.calm rfl rfl rfl rfl (by simp)
        (fun _ _ hr => hr) (fun _ hp => hp) ⟨rfl, rfl⟩ fun hframe => hframe.home _ _ hok
  case h_3 session window pane =>
      cases hstep
      refine h.grows hpc rfl ⟨rfl, rfl, rfl, rfl, rfl, rfl⟩ h.calm
        (fun hframe => hframe.maps h.maps rfl rfl) (Finset.subset_insert _ _) rfl (by simp) ?_
        (fun _ hp => hp) ⟨rfl, rfl⟩ fun hframe => hframe.home _ _ hok
      rintro sid p ⟨rfl⟩
      exact Or.inl (Finset.mem_insert_self _ _)
  case h_4 session window pane =>
      cases hstep
      refine h.grows hpc rfl ⟨rfl, rfl, rfl, rfl, rfl, rfl⟩ h.calm
        (fun _ => h.maps.insertPane hok rfl rfl ?_) (Finset.Subset.refl _) rfl (by simp)
        (fun _ _ hr => absurd hr (by simp [registering])) (fun _ hp => hp) ⟨rfl, rfl⟩
        fun _ => trivial
      intro v t hv
      rcases lookup_of_insert hv with ⟨rfl, rfl⟩ | hold
      · exact Or.inr ⟨rfl, rfl⟩
      · exact Or.inl hold
  case h_5 session =>
      have hk := h.calm.withPanes hstep
      rw [if_pos ((hs c _ hpc).found session rfl)] at hk
      cases hk
      exact h.moved hpc rfl ⟨rfl, rfl, rfl, rfl, rfl, rfl⟩ h.calm rfl rfl rfl rfl (by simp)
        (fun _ _ hr => hr) (fun _ hp => hp) ⟨rfl, rfl⟩ fun _ cl hcl => absurd hcl (by simp)
  case h_6 => cases hstep

/-- INTERNAL: `kill_session`.
SRC: engine.rs:588-628 -/
theorem recInv_kill (h : RecInv s) {pc : RecordCall} (hpc : s.calls.lookup c = some pc)
    (hstep : s.advanceKill c pc = some s') : RecInv s' := by
  have hok := h.calls c pc hpc
  unfold advanceKill at hstep
  split at hstep
  case h_1 session =>
      obtain ⟨-, hk⟩ := h.calm.withSessions hstep
      split at hk
      case h_1 =>
          cases hk
          exact h.finished hpc rfl rfl rfl
      case h_2 st hst =>
          cases hk
          refine h.erases hpc ⟨rfl, rfl, rfl⟩ rfl ⟨rfl, rfl, rfl, rfl, rfl, rfl⟩ h.calm rfl rfl rfl hst
            rfl (by simp) rfl ?_
          intro hframe hremoved
          refine ⟨hremoved, ?_⟩
          intro p hp
          obtain ⟨w, hplace⟩ := exists_place hp
          exact ⟨w, hframe.home p _ (h.shape.home session st p w hst hplace)⟩
  case h_2 session windows panes =>
      cases hstep
      refine h.grows hpc rfl ⟨rfl, rfl, rfl, rfl, rfl, rfl⟩ h.calm (fun _ => h.maps.shrink rfl ?_ ?_)
        (Finset.Subset.refl _) rfl (by simp) (fun _ _ hr => Or.inr hr) (fun _ hp => hp) ⟨rfl, rfl⟩ ?_
      · intro p w hp
        exact lookup_foldl_erase panes s.paneWindow hp
      · intro w sid hw
        exact lookup_foldl_erase windows s.windowSession hw
      · intro hframe
        exact ⟨hframe.removed' hok.1, fun p hp => (hok.2 p hp).imp fun w hw => hframe.home p _ hw⟩
  case h_3 session panes =>
      have hk := h.calm.withPanes hstep
      cases hk
      exact h.moved hpc rfl ⟨rfl, rfl, rfl, rfl, rfl, rfl⟩ h.calm rfl rfl rfl rfl (by simp)
        (fun _ _ hr => hr) (fun _ hp => hp) ⟨rfl, rfl⟩ fun hframe =>
          ⟨hframe.removed' hok.1, fun p hp => (hok.2 p hp).imp fun w hw => hframe.home p _ hw⟩
  case h_4 session =>
      cases hstep
      exact h.moved hpc rfl ⟨rfl, rfl, rfl, rfl, rfl, rfl⟩ h.calm rfl rfl rfl rfl (by simp)
        (fun _ _ hr => hr) (fun _ hp => hp) ⟨rfl, rfl⟩
        fun hframe => ⟨hframe.removed' hok.1, fun cl hcl => absurd hcl (by simp)⟩
  case h_5 session pane panes =>
      cases hstep
      obtain ⟨hremoved, hhome⟩ := hok
      obtain ⟨w, hw⟩ := hhome pane (List.mem_cons_self ..)
      have hunwanted : Unwanted s pane := by
        refine ⟨(h.shape.known pane w session hw).1, ?_⟩
        intro sid hp
        obtain rfl := h.wanted_session hw hp
        exact hremoved.2 hp.mem
      refine h.forgets hpc (some (.killEach session panes)) ⟨rfl, rfl, rfl⟩ (by simp [saving])
        hunwanted rfl ⟨rfl, rfl, rfl, rfl, rfl, rfl⟩ h.calm rfl rfl rfl rfl ?_
      rintro hframe pc' ⟨rfl⟩
      refine ⟨hframe.removed' hremoved, ?_⟩
      intro p hp
      exact (hhome p (List.mem_cons_of_mem _ hp)).imp fun w hw => hframe.home p _ hw
  case h_6 => cases hstep

/-- INTERNAL: the policy of a pane without an entry cannot be set, and the call returns early. If its
change of the session is in no snapshot yet, the pane is about to be registered.
SRC: engine.rs:1151-1156 -/
theorem RecInv.givesUp (h : RecInv s) {sid pane : Uuid} {panes : List Uuid}
    (hpc : s.calls.lookup c = some (.policyEach sid (pane :: panes))) (hgone : pane ∉ s.entries) :
    RecInv (s.finish c) := by
  refine h.moves none rfl ⟨rfl, rfl, rfl, rfl, rfl, rfl⟩ h.calm rfl rfl rfl rfl ?_ ?_
  · refine ⟨?_, ?_, ?_, ?_, ?_⟩
    · intro sid' ps hnext
      cases hnext
    · intro pc sid' p hpc' hreg
      rw [hpc, Option.some_inj] at hpc'
      subst hpc'
      cases hreg
    · intro pc sid' hpc' hpers hmem
      rw [hpc, Option.some_inj] at hpc'
      subst hpc'
      right
      obtain ⟨rfl, hown⟩ := persisting_policyEach.mp hpers
      have hwanted : Wanted s sid pane :=
        Or.inr ⟨hmem, c, pane :: panes, hpc, hown, List.mem_cons_self ..⟩
      rcases h.registered sid pane hwanted with hp | ⟨c', pc', hpc', hreg⟩
      · exact absurd hp hgone
      · refine ⟨c', pc', ?_, hpc', persisting_of_registering hreg s.owing c'⟩
        rintro rfl
        rw [hpc, Option.some_inj] at hpc'
        subst hpc'
        cases hreg
    · intro pc hpc'
      rw [hpc, Option.some_inj] at hpc'
      subst hpc'
      rfl
    · intro pc hnext
      cases hnext
  · intro _ pc hnext
    cases hnext

/-- INTERNAL: the policy of a pane is set.
SRC: engine.rs:1151-1156 -/
theorem RecInv.setsNext (h : RecInv s) {sid pane : Uuid} {panes : List Uuid}
    (hpc : s.calls.lookup c = some (.policyEach sid (pane :: panes))) :
    RecInv (s.goto c (.policyEach sid panes)) := by
  have hok := h.calls c _ hpc
  refine h.moves (some _) rfl ⟨rfl, rfl, rfl, rfl, rfl, rfl⟩ h.calm rfl rfl rfl rfl ?_ ?_
  · refine ⟨?_, ?_, ?_, ?_, ?_⟩
    · rintro sid' ps ⟨rfl⟩
      exact ⟨pane :: panes, hpc, List.subset_cons_self pane panes⟩
    · intro pc sid' p hpc' hreg
      rw [hpc, Option.some_inj] at hpc'
      subst hpc'
      cases hreg
    · intro pc sid' hpc' hpers _
      rw [hpc, Option.some_inj] at hpc'
      subst hpc'
      exact Or.inl hpers
    · intro pc hpc'
      rw [hpc, Option.some_inj] at hpc'
      subst hpc'
      rfl
    · rintro pc ⟨rfl⟩
      rfl
  · rintro hframe pc ⟨rfl⟩
    refine ⟨hok.1, ?_⟩
    intro p hp
    exact (hok.2 p (List.mem_cons_of_mem _ hp)).imp fun w hw => hframe.home p _ hw

/-- INTERNAL: `set_session_restart_policy`, the persists of the supervision and
`recompute_window_geometry`.
SRC: engine.rs:1131-1160, 1042-1045, 1293-1343 -/
theorem recInv_change (h : RecInv s) {pc : RecordCall} (hpc : s.calls.lookup c = some pc)
    (hstep : s.advanceChange c pc = some s') : RecInv s' := by
  have hok := h.calls c pc hpc
  unfold advanceChange at hstep
  split at hstep
  case h_1 session policy applyToExisting =>
      obtain ⟨-, hk⟩ := h.calm.withSessions hstep
      split at hk
      case h_1 =>
          cases hk
          exact h.finished hpc rfl rfl rfl
      case h_2 st hst =>
          cases hk
          refine h.changesPolicy hpc ⟨rfl, rfl, rfl⟩ hst policy ?_ rfl
          intro p hp
          split at hp
          case isTrue => exact hp
          case isFalse => cases hp
  case h_2 session =>
      cases hstep
      refine h.moved hpc rfl ⟨rfl, rfl, rfl, rfl, rfl, rfl⟩ h.calm rfl rfl rfl rfl (by simp)
        (fun _ _ hr => absurd hr (by simp [registering])) ?_ ⟨rfl, rfl⟩
        fun _ cl hcl => absurd hcl (by simp)
      intro sid hpers
      obtain ⟨rfl, -⟩ := persisting_policyEach.mp hpers
      rfl
  case h_3 session pane panes =>
      split at hstep
      case isTrue =>
          cases hstep
          exact h.setsNext hpc
      case isFalse hgone =>
          cases hstep
          exact h.givesUp hpc hgone
  case h_4 pane =>
      split at hstep
      case h_1 =>
          cases hstep
          exact h.finished hpc rfl rfl rfl
      case h_2 =>
          cases hstep
          exact h.moved hpc rfl ⟨rfl, rfl, rfl, rfl, rfl, rfl⟩ h.calm rfl rfl rfl rfl (by simp)
            (fun _ _ hr => absurd hr (by simp [registering]))
            (fun _ hp => absurd hp (by simp [persisting])) ⟨rfl, rfl⟩
            fun _ cl hcl => absurd hcl (by simp)
  case h_5 window rows cols =>
      split at hstep
      case h_1 =>
          cases hstep
          exact h.finished hpc rfl rfl rfl
      case h_2 =>
          cases hstep
          exact h.moved hpc rfl ⟨rfl, rfl, rfl, rfl, rfl, rfl⟩ h.calm rfl rfl rfl rfl (by simp)
            (fun _ _ hr => hr) (fun _ hp => hp) ⟨rfl, rfl⟩ fun _ => hok
  case h_6 session window rows cols =>
      obtain ⟨-, hk⟩ := h.calm.withSessions hstep
      split at hk
      case h_1 =>
          cases hk
          exact h.finished hpc rfl rfl rfl
      case h_2 st hst =>
          split at hk
          case isTrue =>
              cases hk
              obtain ⟨hsane, hplaces⟩ := (h.shape.sane session st hst).size window hok.1 hok.2
              exact h.changes hpc ⟨rfl, rfl, rfl⟩ rfl ⟨rfl, rfl, rfl, rfl, rfl, rfl⟩ h.calm rfl rfl
                rfl hst rfl hsane (fun e he => hplaces ▸ he) (by simp) rfl rfl
                fun _ cl hcl => absurd hcl (by simp)
          case isFalse =>
              cases hk
              exact h.finished hpc rfl rfl rfl
  case h_7 => cases hstep

/-- INTERNAL: `persist_session` and the deletes.
SRC: engine.rs:1042-1056, 440-446, 625-626, 803-806 -/
theorem recInv_persist (h : RecInv s) {pc : RecordCall} (hpc : s.calls.lookup c = some pc)
    (hstep : s.advancePersist c pc = some s') : RecInv s' := by
  have hok := h.calls c pc hpc
  unfold advancePersist at hstep
  split at hstep
  case h_1 session closing =>
      obtain ⟨hfree, hk⟩ := h.calm.withPersist hstep
      cases hk
      refine h.goes (some (.persistSessions session closing)) rfl ⟨rfl, rfl, rfl, rfl, rfl, rfl⟩ h.calm
        rfl rfl rfl ?_ ?_ ?_
      · intro c' _ hl
        rw [hfree] at hl
        cases hl
      · exact dutiful_of_eq _ hpc (by simp) (fun _ _ hr => Or.inr hr) (fun _ hp => hp) rfl rfl
      · rintro hframe pc' ⟨rfl⟩
        exact ⟨rfl, fun cl hcl => hframe.takenOut h.shape (hok cl hcl)⟩
  case h_2 session closing =>
      obtain ⟨-, hk⟩ := h.calm.withSessions hstep
      cases hk
      exact h.moved hpc rfl ⟨rfl, rfl, rfl, rfl, rfl, rfl⟩ h.calm rfl rfl rfl rfl (by simp)
        (fun _ _ hr => hr) (fun _ hp => hp) ⟨rfl, rfl⟩
        fun hframe => ⟨hok.1, fun cl hcl => hframe.takenOut h.shape (hok.2 cl hcl)⟩
  case h_3 session closing =>
      have hk := h.calm.withPanes hstep
      split at hk
      case h_1 hst =>
          cases hk
          exact h.snapshotNone hpc hst rfl
      case h_2 st hst =>
          cases hk
          exact h.snapshot hpc hst rfl
  case h_4 session record closing =>
      cases hstep
      exact h.saves hpc rfl
  case h_5 session closing =>
      obtain ⟨hfree, hk⟩ := h.calm.withPersist hstep
      cases hk
      exact h.deletes hpc hfree rfl
  case h_6 => cases hstep

/-! ## Runs -/

theorem recInv_advance (h : RecInv s) (hs : IndexInv s)
    (hstep : s.step (.advance c) = some s') : RecInv s' := by
  simp only [RecordState.step, Option.bind_eq_some_iff] at hstep
  obtain ⟨pc, hpc, hstep⟩ := hstep
  unfold advanceCall at hstep
  split at hstep
  all_goals first
    | exact recInv_create h hpc hstep
    | exact recInv_split h hs hpc hstep
    | exact recInv_close h hs hpc hstep
    | exact recInv_window h hs hpc hstep
    | exact recInv_kill h hpc hstep
    | exact recInv_change h hpc hstep
    | exact recInv_persist h hpc hstep

/-- INTERNAL: a call that begins has nothing to do yet. -/
theorem recInv_begin (h : RecInv s) {pc : RecordCall} (hstep : s.begin c pc = some s')
    (hpolicy : ∀ sid ps, pc ≠ .policyEach sid ps) (hsave : saving pc = none)
    (hok : ∀ s' : RecordState, CallOk s' c pc) : RecInv s' := by
  unfold RecordState.begin at hstep
  split at hstep
  case isTrue => cases hstep
  case isFalse hnew =>
      cases hstep
      have hnone : s.calls.lookup c = none := AList.lookup_eq_none.mpr hnew
      refine h.moves (some pc) rfl ⟨rfl, rfl, rfl, rfl, rfl, rfl⟩ h.calm rfl rfl rfl rfl ?_ ?_
      · refine ⟨?_, ?_, ?_, ?_, ?_⟩
        · intro sid ps hnext
          exact absurd (Option.some_inj.mp hnext) (hpolicy sid ps)
        · intro pc' sid p hpc'
          rw [hnone] at hpc'
          cases hpc'
        · intro pc' sid hpc'
          rw [hnone] at hpc'
          cases hpc'
        · intro pc' hpc'
          rw [hnone] at hpc'
          cases hpc'
        · rintro pc' ⟨rfl⟩
          exact hsave
      · rintro _ pc' ⟨rfl⟩
        exact hok _

theorem recInv_beginValid (h : RecInv s) {pc : RecordCall} {policy : RestartPolicy}
    (hstep : s.beginValid c policy pc = some s') (hpolicy : ∀ sid ps, pc ≠ .policyEach sid ps)
    (hsave : saving pc = none) (hok : ∀ s' : RecordState, CallOk s' c pc) : RecInv s' := by
  unfold RecordState.beginValid at hstep
  split at hstep
  case h_1 =>
      cases hstep
      exact h
  case h_2 => exact recInv_begin h hstep hpolicy hsave hok

theorem recInv_step {e : RecordEvent} (h : RecInv s) (hs : IndexInv s)
    (hstep : s.step e = some s') : RecInv s' := by
  cases e with
  | createSession c name policy =>
      exact recInv_beginValid h hstep (by simp) rfl (fun _ => trivial)
  | splitPane c target orientation => exact recInv_begin h hstep (by simp) rfl (fun _ => trivial)
  | closePane c pane => exact recInv_begin h hstep (by simp) rfl (fun _ => trivial)
  | createWindow c session => exact recInv_begin h hstep (by simp) rfl (fun _ => trivial)
  | killSession c session => exact recInv_begin h hstep (by simp) rfl (fun _ => trivial)
  | setSessionRestartPolicy c session policy applyToExisting =>
      exact recInv_beginValid h hstep (by simp) rfl (fun _ => trivial)
  | supervisionPersist c pane => exact recInv_begin h hstep (by simp) rfl (fun _ => trivial)
  | recomputeWindow c window rows cols =>
      exact recInv_begin h hstep (by simp) rfl (fun _ => Calls.clampViewport_le rows cols)
  | advance c => exact recInv_advance h hs hstep

end Steps

end Tymux.Analysis.Records
