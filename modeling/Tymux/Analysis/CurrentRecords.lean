import Tymux.Analysis.RecordSteps

/-!
# What is stored after a run

A session that leaves the map is followed until its record is deleted; with `RecInv` its record never
comes back after that. When no call is in progress, no save and no persist is under way, so that the
stored record of each session is the current one.
-/

set_option autoImplicit false

namespace Tymux.Analysis.Records

open Tymux.Model Tymux.Lib RecordState

/-! ## Sessions that end -/

/-- The session that the call has removed, and whose record it is going to delete. -/
def ending : RecordCall → Option Uuid
  | .killIndex session _ _ | .killPanes session _ | .killEach session _ | .delete session _ =>
    some session
  | _ => none

/-- A call is on its way to delete the record of the session that it has removed. -/
def Ending (s : RecordState) (sid : Uuid) : Prop :=
  ∃ c pc, s.calls.lookup c = some pc ∧ ending pc = some sid

def Followed (s : RecordState) (sid : Uuid) : Prop :=
  sid ∈ s.sessions ∨ Ending s sid ∨ sid ∈ s.deleted

section Steps

variable {s s' : RecordState} {c : ℕ} {sid : Uuid}

/-- INTERNAL: a step of `c` that removes the session goes on to delete its record. -/
theorem Followed.move (h : Followed s sid) {pc : RecordCall} (hpc : s.calls.lookup c = some pc)
    (next : Option RecordCall) (hcalls : s'.calls = updateCall s.calls c next)
    (hsessions : sid ∈ s.sessions → sid ∈ s'.sessions ∨ next.bind ending = some sid)
    (hending : ending pc = some sid → next.bind ending = some sid ∨ sid ∈ s'.deleted)
    (hdeleted : s.deleted ⊆ s'.deleted) : Followed s' sid := by
  have hnext : next.bind ending = some sid → Followed s' sid := by
    intro hbind
    obtain ⟨pc', hpc', hends⟩ := Option.bind_eq_some_iff.mp hbind
    exact Or.inr (Or.inl ⟨c, pc', (lookup_next next hcalls).trans hpc', hends⟩)
  rcases h with hmem | ⟨c', pc', hpc', hends⟩ | hgone
  · rcases hsessions hmem with hmem' | hbind
    · exact Or.inl hmem'
    · exact hnext hbind
  · by_cases hc : c' = c
    · subst hc
      rw [hpc, Option.some_inj] at hpc'
      subst hpc'
      rcases hending hends with hbind | hgone
      · exact hnext hbind
      · exact Or.inr (Or.inr hgone)
    · exact Or.inr (Or.inl ⟨c', pc', (lookup_other next hcalls c' hc).trans hpc', hends⟩)
  · exact Or.inr (Or.inr (hdeleted hgone))

/-- The call ends no session, and keeps them. -/
theorem Followed.stays (h : Followed s sid) {pc : RecordCall} (hpc : s.calls.lookup c = some pc)
    (next : Option RecordCall) (hcalls : s'.calls = updateCall s.calls c next)
    (hidle : ending pc = none) (hsessions : sid ∈ s.sessions → sid ∈ s'.sessions)
    (hdeleted : s'.deleted = s.deleted) : Followed s' sid := by
  apply h.move hpc next hcalls (fun hmem => Or.inl (hsessions hmem)) _ (by rw [hdeleted])
  intro hends
  rw [hidle] at hends
  cases hends

theorem Followed.finish (h : Followed s sid) {pc : RecordCall} (hpc : s.calls.lookup c = some pc)
    (hidle : ending pc = none) : Followed (s.finish c) sid :=
  h.stays hpc none rfl hidle (fun hmem => hmem) rfl

theorem followed_create (h : Followed s sid) (hcalm : Calm s) {pc : RecordCall}
    (hpc : s.calls.lookup c = some pc) (hstep : s.advanceCreate c pc = some s') :
    Followed s' sid := by
  unfold advanceCreate at hstep
  split at hstep
  case h_1 =>
      obtain ⟨-, hk⟩ := hcalm.withSessions hstep
      cases hk
      exact h.stays hpc (some _) rfl rfl (mem_insert_session sid) rfl
  case h_2 =>
      have hk := hcalm.withPanes hstep
      cases hk
      exact h.stays hpc (some _) rfl rfl (fun hmem => hmem) rfl
  case h_3 =>
      cases hstep
      exact h.stays hpc (some _) rfl rfl (fun hmem => hmem) rfl
  case h_4 =>
      cases hstep
      exact h.stays hpc (some _) rfl rfl (fun hmem => hmem) rfl
  case h_5 => cases hstep

theorem followed_split (h : Followed s sid) (hcalm : Calm s) {pc : RecordCall}
    (hpc : s.calls.lookup c = some pc) (hstep : s.advanceSplit c pc = some s') :
    Followed s' sid := by
  unfold advanceSplit at hstep
  split at hstep
  case h_1 =>
      split at hstep
      case h_1 =>
          cases hstep
          exact h.finish hpc rfl
      case h_2 =>
          cases hstep
          exact h.stays hpc (some _) rfl rfl (fun hmem => hmem) rfl
  case h_2 =>
      obtain ⟨-, hk⟩ := hcalm.withSessions hstep
      split at hk
      case h_1 =>
          cases hk
          exact h.finish hpc rfl
      case h_2 =>
          dsimp only at hk
          split at hk
          case h_1 =>
              cases hk
              exact h.stays hpc none rfl rfl (fun hmem => hmem) rfl
          case h_2 =>
              cases hk
              exact h.finish hpc rfl
          case h_3 =>
              cases hk
              exact h.stays hpc (some _) rfl rfl (mem_insert_session sid) rfl
  case h_3 =>
      have hk := hcalm.withPanes hstep
      cases hk
      exact h.stays hpc (some _) rfl rfl (fun hmem => hmem) rfl
  case h_4 =>
      cases hstep
      exact h.stays hpc (some _) rfl rfl (fun hmem => hmem) rfl
  case h_5 =>
      cases hstep
      exact h.stays hpc (some _) rfl rfl (fun hmem => hmem) rfl
  case h_6 =>
      obtain ⟨-, hk⟩ := hcalm.withSessions hstep
      cases hk
      exact h.stays hpc (some _) rfl rfl (fun hmem => hmem) rfl
  case h_7 =>
      have hk := hcalm.withPanes hstep
      split at hk
      case isTrue =>
          cases hk
          exact h.stays hpc (some _) rfl rfl (fun hmem => hmem) rfl
      case isFalse =>
          cases hk
          exact h.stays hpc none rfl rfl (fun hmem => hmem) rfl
  case h_8 => cases hstep

/-- INTERNAL: `close_pane` removes a session without windows, and deletes its record.
SRC: engine.rs:788-806 -/
theorem followed_close (h : Followed s sid) (hcalm : Calm s) {pc : RecordCall}
    (hpc : s.calls.lookup c = some pc) (hstep : s.advanceClose c pc = some s') :
    Followed s' sid := by
  unfold advanceClose at hstep
  split at hstep
  case h_1 =>
      split at hstep
      case h_1 =>
          cases hstep
          exact h.finish hpc rfl
      case h_2 =>
          cases hstep
          exact h.stays hpc (some _) rfl rfl (fun hmem => hmem) rfl
  case h_2 pane window session =>
      obtain ⟨-, hk⟩ := hcalm.withSessions hstep
      split at hk
      case h_1 =>
          cases hk
          exact h.finish hpc rfl
      case h_2 =>
          split at hk
          case h_1 =>
              cases hk
              exact h.finish hpc rfl
          case h_2 windowClosed _ =>
              cases hk
              refine h.move hpc (some (.delete session (some (pane, windowClosed)))) rfl ?_
                (fun hends => absurd hends (by simp [ending])) (Finset.Subset.refl _)
              intro hmem
              by_cases hsid : sid = session
              · exact Or.inr (hsid ▸ rfl)
              · exact Or.inl (AList.mem_erase.mpr ⟨hsid, hmem⟩)
          case h_3 =>
              cases hk
              exact h.stays hpc (some _) rfl rfl (mem_insert_session sid) rfl
  case h_3 =>
      have hk := hcalm.withPanes hstep
      split at hk
      case isTrue =>
          cases hk
          exact h.stays hpc (some _) rfl rfl (fun hmem => hmem) rfl
      case isFalse =>
          cases hk
          exact h.stays hpc none rfl rfl (fun hmem => hmem) rfl
  case h_4 =>
      cases hstep
      exact h.stays hpc (some _) rfl rfl (fun hmem => hmem) rfl
  case h_5 =>
      have hk := hcalm.withPanes hstep
      cases hk
      exact h.stays hpc none rfl rfl (fun hmem => hmem) rfl
  case h_6 => cases hstep

theorem followed_window (h : Followed s sid) (hcalm : Calm s) {pc : RecordCall}
    (hpc : s.calls.lookup c = some pc) (hstep : s.advanceWindow c pc = some s') :
    Followed s' sid := by
  unfold advanceWindow at hstep
  split at hstep
  case h_1 =>
      obtain ⟨-, hk⟩ := hcalm.withSessions hstep
      split at hk
      case h_1 =>
          cases hk
          exact h.finish hpc rfl
      case h_2 =>
          cases hk
          exact h.stays hpc (some _) rfl rfl (mem_insert_session sid) rfl
  case h_2 =>
      have hk := hcalm.withPanes hstep
      cases hk
      exact h.stays hpc (some _) rfl rfl (fun hmem => hmem) rfl
  case h_3 =>
      cases hstep
      exact h.stays hpc (some _) rfl rfl (fun hmem => hmem) rfl
  case h_4 =>
      cases hstep
      exact h.stays hpc (some _) rfl rfl (fun hmem => hmem) rfl
  case h_5 =>
      have hk := hcalm.withPanes hstep
      split at hk
      case isTrue =>
          cases hk
          exact h.stays hpc (some _) rfl rfl (fun hmem => hmem) rfl
      case isFalse =>
          cases hk
          exact h.stays hpc none rfl rfl (fun hmem => hmem) rfl
  case h_6 => cases hstep

/-- INTERNAL: `kill_session` removes a session, and deletes its record.
SRC: engine.rs:588-628 -/
theorem followed_kill (h : Followed s sid) (hcalm : Calm s) {pc : RecordCall}
    (hpc : s.calls.lookup c = some pc) (hstep : s.advanceKill c pc = some s') :
    Followed s' sid := by
  unfold advanceKill at hstep
  split at hstep
  case h_1 session =>
      obtain ⟨-, hk⟩ := hcalm.withSessions hstep
      split at hk
      case h_1 =>
          cases hk
          exact h.finish hpc rfl
      case h_2 st hst =>
          cases hk
          refine h.move hpc (some (.killIndex session (st.windows.map NamedWindow.id) st.leaves)) rfl ?_
            (fun hends => absurd hends (by simp [ending])) (Finset.Subset.refl _)
          intro hmem
          by_cases hsid : sid = session
          · exact Or.inr (hsid ▸ rfl)
          · exact Or.inl (AList.mem_erase.mpr ⟨hsid, hmem⟩)
  case h_2 =>
      cases hstep
      exact h.move hpc (some _) rfl Or.inl Or.inl (Finset.Subset.refl _)
  case h_3 =>
      have hk := hcalm.withPanes hstep
      cases hk
      exact h.move hpc (some _) rfl Or.inl Or.inl (Finset.Subset.refl _)
  case h_4 =>
      cases hstep
      exact h.move hpc (some _) rfl Or.inl Or.inl (Finset.Subset.refl _)
  case h_5 =>
      cases hstep
      exact h.move hpc (some _) rfl Or.inl Or.inl (Finset.Subset.refl _)
  case h_6 => cases hstep

theorem followed_change (h : Followed s sid) (hcalm : Calm s) {pc : RecordCall}
    (hpc : s.calls.lookup c = some pc) (hstep : s.advanceChange c pc = some s') :
    Followed s' sid := by
  unfold advanceChange at hstep
  split at hstep
  case h_1 =>
      obtain ⟨-, hk⟩ := hcalm.withSessions hstep
      split at hk
      case h_1 =>
          cases hk
          exact h.finish hpc rfl
      case h_2 =>
          cases hk
          exact h.stays hpc (some _) rfl rfl (mem_insert_session sid) rfl
  case h_2 =>
      cases hstep
      exact h.stays hpc (some _) rfl rfl (fun hmem => hmem) rfl
  case h_3 =>
      split at hstep
      case isTrue =>
          cases hstep
          exact h.stays hpc (some _) rfl rfl (fun hmem => hmem) rfl
      case isFalse =>
          cases hstep
          exact h.finish hpc rfl
  case h_4 =>
      split at hstep
      case h_1 =>
          cases hstep
          exact h.finish hpc rfl
      case h_2 =>
          cases hstep
          exact h.stays hpc (some _) rfl rfl (fun hmem => hmem) rfl
  case h_5 =>
      split at hstep
      case h_1 =>
          cases hstep
          exact h.finish hpc rfl
      case h_2 =>
          cases hstep
          exact h.stays hpc (some _) rfl rfl (fun hmem => hmem) rfl
  case h_6 =>
      obtain ⟨-, hk⟩ := hcalm.withSessions hstep
      split at hk
      case h_1 =>
          cases hk
          exact h.finish hpc rfl
      case h_2 =>
          split at hk
          case isTrue =>
              cases hk
              exact h.stays hpc (some _) rfl rfl (mem_insert_session sid) rfl
          case isFalse =>
              cases hk
              exact h.finish hpc rfl
  case h_7 => cases hstep

theorem followed_persist (h : Followed s sid) (hcalm : Calm s) {pc : RecordCall}
    (hpc : s.calls.lookup c = some pc) (hstep : s.advancePersist c pc = some s') :
    Followed s' sid := by
  unfold advancePersist at hstep
  split at hstep
  case h_1 =>
      obtain ⟨-, hk⟩ := hcalm.withPersist hstep
      cases hk
      exact h.stays hpc (some _) rfl rfl (fun hmem => hmem) rfl
  case h_2 =>
      obtain ⟨-, hk⟩ := hcalm.withSessions hstep
      cases hk
      exact h.stays hpc (some _) rfl rfl (fun hmem => hmem) rfl
  case h_3 session closing =>
      have hk := hcalm.withPanes hstep
      split at hk
      case h_1 =>
          cases hk
          refine h.stays hpc _ (calls_afterPersist _ c closing) rfl ?_ ?_ <;> cases closing
          · exact fun hmem => hmem
          · exact fun hmem => hmem
          · rfl
          · rfl
      case h_2 =>
          cases hk
          exact h.stays hpc (some _) rfl rfl (fun hmem => hmem) rfl
  case h_4 session record closing =>
      cases hstep
      refine h.stays hpc _ (calls_afterPersist _ c closing) rfl ?_ ?_ <;> cases closing
      · exact fun hmem => hmem
      · exact fun hmem => hmem
      · rfl
      · rfl
  case h_5 session closing =>
      obtain ⟨-, hk⟩ := hcalm.withPersist hstep
      cases hk
      refine h.move hpc _ (calls_afterPersist _ c closing) ?_ ?_ ?_ <;> cases closing
      · exact Or.inl
      · exact Or.inl
      · rintro ⟨rfl⟩
        exact Or.inr (Finset.mem_insert_self _ _)
      · rintro ⟨rfl⟩
        exact Or.inr (Finset.mem_insert_self _ _)
      · exact Finset.subset_insert _ _
      · exact Finset.subset_insert _ _
  case h_6 => cases hstep

theorem followed_begin (h : Followed s sid) {pc : RecordCall} (hstep : s.begin c pc = some s') :
    Followed s' sid := by
  unfold RecordState.begin at hstep
  split at hstep
  case isTrue => cases hstep
  case isFalse hnew =>
      cases hstep
      rcases h with hmem | ⟨c', pc', hpc', hends⟩ | hgone
      · exact Or.inl hmem
      · have hc : c' ≠ c := by
          rintro rfl
          exact hnew (AList.lookup_isSome.mp (by rw [hpc']; rfl))
        exact Or.inr (Or.inl ⟨c', pc', (AList.lookup_insert_ne hc).trans hpc', hends⟩)
      · exact Or.inr (Or.inr hgone)

theorem followed_beginValid (h : Followed s sid) {pc : RecordCall} {policy : RestartPolicy}
    (hstep : s.beginValid c policy pc = some s') : Followed s' sid := by
  unfold RecordState.beginValid at hstep
  split at hstep
  case h_1 =>
      cases hstep
      exact h
  case h_2 => exact followed_begin h hstep

theorem followed_step {e : RecordEvent} (h : Followed s sid) (hcalm : Calm s)
    (hstep : s.step e = some s') : Followed s' sid := by
  cases e with
  | createSession c name policy => exact followed_beginValid h hstep
  | splitPane c target orientation => exact followed_begin h hstep
  | closePane c pane => exact followed_begin h hstep
  | createWindow c session => exact followed_begin h hstep
  | killSession c session => exact followed_begin h hstep
  | setSessionRestartPolicy c session policy applyToExisting => exact followed_beginValid h hstep
  | supervisionPersist c pane => exact followed_begin h hstep
  | recomputeWindow c window rows cols => exact followed_begin h hstep
  | advance c =>
      simp only [RecordState.step, Option.bind_eq_some_iff] at hstep
      obtain ⟨pc, hpc, hstep⟩ := hstep
      unfold advanceCall at hstep
      split at hstep
      all_goals first
        | exact followed_create h hcalm hpc hstep
        | exact followed_split h hcalm hpc hstep
        | exact followed_close h hcalm hpc hstep
        | exact followed_window h hcalm hpc hstep
        | exact followed_kill h hcalm hpc hstep
        | exact followed_change h hcalm hpc hstep
        | exact followed_persist h hcalm hpc hstep

end Steps

/-! ## Runs -/

/-- No call is in progress; the panes are registered and the sessions are stored. -/
structure Settled (s : RecordState) : Prop where
  calls : s.calls = ∅
  calm : Calm s
  shape : Shape s
  maps : Maps s
  entries : ∀ sid p, LeafOf s sid p → p ∈ s.entries
  stored : ∀ sid st, s.sessions.lookup sid = some st → s.store.lookup sid = some st.record
  deleted : ∀ sid ∈ s.deleted, Removed s sid ∧ s.store.lookup sid = none

theorem settled_init : Settled .init where
  calls := rfl
  calm := ⟨rfl, rfl, rfl⟩
  shape := by
    refine ⟨?_, ?_, ?_, ?_, fun _ _ => rfl⟩
    · rintro sid st ⟨⟩
    · rintro sid st p w ⟨⟩
    · rintro p p' w sid sid' ⟨⟩
    · rintro p w sid ⟨⟩
  maps := by
    refine ⟨?_, ?_⟩
    · rintro p w ⟨⟩
    · rintro w sid ⟨⟩
  entries := by rintro sid p ⟨st, w, ⟨⟩, -⟩
  stored := by rintro sid st ⟨⟩
  deleted sid hsid := absurd hsid (Finset.notMem_empty sid)

namespace Settled

variable {s : RecordState}

theorem lookup_calls (h : Settled s) (c : ℕ) : s.calls.lookup c = none := by
  rw [h.calls]
  rfl

theorem indexInv (h : Settled s) : IndexInv s := by
  intro c pc hpc
  rw [h.lookup_calls c] at hpc
  cases hpc

theorem recInv (h : Settled s) : RecInv s := by
  refine ⟨h.calm, h.shape, h.maps, ?_, ?_, ?_, ?_⟩
  · intro c pc hpc
    rw [h.lookup_calls c] at hpc
    cases hpc
  · rintro sid p (hleaf | ⟨-, c, panes, hpc, -⟩)
    · exact Or.inl (h.entries sid p hleaf)
    · rw [h.lookup_calls c] at hpc
      cases hpc
  · intro sid st hst
    refine Or.inr (Or.inr ⟨h.stored sid st hst, ?_⟩)
    intro c pc record hpc
    rw [h.lookup_calls c] at hpc
    cases hpc
  · intro sid hsid
    obtain ⟨hr, hgone⟩ := h.deleted sid hsid
    refine ⟨hr, hgone, ?_⟩
    intro c pc record hpc
    rw [h.lookup_calls c] at hpc
    cases hpc

end Settled

/-- With no call in progress, everything is saved. -/
theorem RecInv.stored_of_idle {s : RecordState} (h : RecInv s) (hidle : s.calls = ∅) {sid : Uuid}
    {st : NamedSession} (hst : s.sessions.lookup sid = some st) :
    s.store.lookup sid = some st.record := by
  have hnone : ∀ c, s.calls.lookup c = none := by
    intro c
    rw [hidle]
    rfl
  rcases h.saved sid st hst with ⟨c, pc, hpc, -⟩ | ⟨c, pc, hpc, -⟩ | ⟨hstored, -⟩
  · rw [hnone c] at hpc
    cases hpc
  · rw [hnone c] at hpc
    cases hpc
  · exact hstored

/-- **What is stored is current, and what was deleted stays deleted**, in a run in which no session
is removed between the layout change of a split and its snapshot: a session that was there and is
gone has no record once the call that removed it has deleted it, and whenever no call is in progress
the record of each session is the current one. -/
theorem records_current {s s₁ s' : RecordState} (h : Settled s) {es es' : List RecordEvent}
    (hapart : Along RecordState.step Apart s (es ++ es'))
    (hrun : run RecordState.step s es = some s₁) (hrun' : run RecordState.step s₁ es' = some s') :
    (∀ sid ∈ s₁.sessions, sid ∉ s'.sessions → ¬ Ending s' sid → s'.store.lookup sid = none) ∧
    (s'.calls = ∅ → ∀ sid st, s'.sessions.lookup sid = some st →
      s'.store.lookup sid = some st.record) := by
  have hkeeps : ∀ t e t', (IndexInv t ∧ RecInv t) → Apart t e → t.step e = some t' →
      IndexInv t' ∧ RecInv t' :=
    fun t e t' ht he hstep => ⟨indexInv_step ht.1 he hstep, recInv_step ht.2 ht.1 hstep⟩
  obtain ⟨hapart₁, hapart'⟩ := hapart.split hrun
  have h₁ : IndexInv s₁ ∧ RecInv s₁ :=
    run_invariant_along (fun t => IndexInv t ∧ RecInv t) hkeeps ⟨h.indexInv, h.recInv⟩ hapart₁ hrun
  have h' : RecInv s' := (run_invariant_along _ hkeeps h₁ hapart' hrun').2
  refine ⟨?_, fun hidle sid st hst => h'.stored_of_idle hidle hst⟩
  intro sid hmem hgone hnot
  have hfollowed : Followed s' sid := by
    refine (run_invariant_along (fun t => (IndexInv t ∧ RecInv t) ∧ Followed t sid) ?_
      ⟨h₁, Or.inl hmem⟩ hapart' hrun').2
    intro t e t' ht he hstep
    exact ⟨hkeeps t e t' ht.1 he hstep, followed_step ht.2 ht.1.2.calm hstep⟩
  rcases hfollowed with hmem' | hends | hdeleted
  · exact absurd hmem' hgone
  · exact absurd hends hnot
  · exact (h'.deleted sid hdeleted).2.1

/-- The session is killed while the split and the window are yet to be persisted. -/
def killedAfterwards : List RecordEvent :=
  .killSession 3 0 :: List.replicate 8 (.advance 3) ++ List.replicate 3 (.advance 1) ++
    List.replicate 3 (.advance 2)

theorem records_current_killedAfterwards :
    ∃ s₁ s', run RecordState.step .init splitAndWindow = some s₁ ∧
      run RecordState.step s₁ killedAfterwards = some s' ∧ s'.store.lookup 0 = none := by
  have hrun : (run RecordState.step .init splitAndWindow).any (fun s₁ => 0 ∈ s₁.sessions ∧
      (run RecordState.step s₁ killedAfterwards).any
        fun s' => 0 ∉ s'.sessions ∧ s'.calls.entries = []) = true := by
    decide +kernel
  obtain ⟨s₁, hrun₁, h₁⟩ := (Option.any_eq_true _ _).mp hrun
  obtain ⟨hmem, hrest⟩ := of_decide_eq_true h₁
  obtain ⟨s', hrun', h'⟩ := (Option.any_eq_true _ _).mp hrest
  obtain ⟨hgone, hidle⟩ := of_decide_eq_true h'
  refine ⟨s₁, s', hrun₁, hrun',
    (records_current settled_init (by decide +kernel) hrun₁ hrun').1 0 hmem hgone ?_⟩
  rintro ⟨c, pc, hpc, -⟩
  have hcalls : s'.calls = ∅ := AList.ext hidle
  rw [hcalls] at hpc
  cases hpc

/-- A session is killed between the layout change of a split and its snapshot, while another one is
made. -/
def killedWhileMade : List RecordEvent :=
  .createSession 0 "main" .default :: List.replicate 8 (.advance 0) ++
    [.splitPane 1 2 .vertical, .advance 1, .advance 1, .createSession 3 "other" .default, .advance 3,
      .killSession 2 0, .advance 2] ++ List.replicate 5 (.advance 1) ++
    [.advance 3, .advance 2, .advance 2]

/-- The panes lock is poisoned before the new session is persisted, and nobody persists it any
more. -/
theorem killedWhileMade_not_stored :
    ∃ s, run RecordState.step .init killedWhileMade = some s ∧ s.calls = ∅ ∧
      (∃ st, s.sessions.lookup 4 = some st) ∧ s.store.lookup 4 = none := by
  have hrun : (run RecordState.step .init killedWhileMade).any (fun s => s.calls.entries = [] ∧
      (s.sessions.lookup 4).isSome ∧ s.store.lookup 4 = none) = true := by
    decide +kernel
  obtain ⟨s, hrun, h⟩ := (Option.any_eq_true _ _).mp hrun
  obtain ⟨hidle, hmem, hnone⟩ := of_decide_eq_true h
  exact ⟨s, hrun, AList.ext hidle, Option.isSome_iff_exists.mp hmem, hnone⟩

end Tymux.Analysis.Records
