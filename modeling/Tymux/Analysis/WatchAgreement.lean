import Tymux.Analysis.WindowWatch
import Tymux.Analysis.EngineConsistency

/-!
# Watching a window agrees with the window

The steps of the Attach streams keep what the calls keep, and so what the task has sent is current
whenever nothing is in flight and no tick is left. This asks for three things of every step of a
run (`Timely`). A step that takes the window away must come while the task has yet to look, or while
a tick is on its way, as `kill_session` and a `close_pane` that closes the window send none. The
first look must find the window, as the stream is not ended otherwise. And a split must find its
session when it answers, as it panics otherwise with both locks held.
-/

set_option autoImplicit false

namespace Tymux.Analysis.WindowWatch

open Tymux.Model Tymux.Lib Watching ViewportRelease

section

variable {s s' : Watching}

/-! ## The streams -/

theorem clamped_getD (h : EngineOk s) (w : Uuid) :
    ViewportsClamped ((s.viewports.lookup w).getD []) := by
  cases hclients : s.viewports.lookup w with
  | none => exact fun e he => nomatch he
  | some clients => exact h.maps.clamped w clients hclients

theorem unchanged_of_onlyIn {p w : Uuid} (hp : OnlyIn s p w) (hw : w ≠ s.watched)
    (f : PaneSize → PaneSize) : Unchanged s (s.setSize p f) := by
  unfold setSize
  split
  · refine unchanged_of rfl (fun t ht q hq => ?_) rfl
    apply AList.lookup_insert_ne
    rintro rfl
    exact hw (hp.2 _ (holds_of_tree ht hq)).symm
  · exact unchanged_of_eq rfl rfl rfl

/-- A step of a stream: the calls and the task are as they were, with a tick more perhaps. -/
structure StreamFrame (s s' : Watching) : Prop where
  calls : s'.calls = s.calls
  watched : s'.watched = s.watched
  watch : s'.watch = s.watch
  events : s'.events = s.events
  pendingTicks : s.pendingTicks ≤ s'.pendingTicks

/-- What a stage of `recompute_window_geometry` comes to: it does not panic, it notifies once it has
found the window, and it finds every window that is there. -/
structure Recomputed (s s' : Watching) (w : Uuid) (stage : RecomputeStage)
    (next : Option RecomputeStage) : Prop where
  frame : StreamFrame s s'
  streams : s'.streams = s.streams
  shrinks : Shrinks s s'
  maps : MapsOk s'
  ok : ∀ stage', next = some stage' → StageOk s' w stage'
  placing : s.subscribed = true → w = s.watched → Placing stage →
    (∃ stage', next = some stage' ∧ Placing stage') ∨ 0 < s'.pendingTicks
  finds : s.subscribed = true → w = s.watched → (tree s').isSome →
    next ≠ none ∨ 0 < s'.pendingTicks
  stays : tree s' = tree s
  changed : (tree s').isSome → Unchanged s s' ∨ w = s.watched ∧ next ≠ none

/-- INTERNAL: a stage that leaves the maps and the panes alone. -/
theorem recomputed_quiet {w : Uuid} {stage : RecomputeStage} {next : Option RecomputeStage}
    (h : EngineOk s) (hframe : StreamFrame s s') (hstreams : s'.streams = s.streams)
    (hsame : SameMaps s s') (hpanes : s'.panes = s.panes)
    (hok : ∀ stage', next = some stage' → StageOk s w stage')
    (hplacing : s.subscribed = true → w = s.watched → Placing stage →
      (∃ stage', next = some stage' ∧ Placing stage') ∨ 0 < s'.pendingTicks)
    (hfinds : s.subscribed = true → w = s.watched → (tree s).isSome →
      next ≠ none ∨ 0 < s'.pendingTicks) : Recomputed s s' w stage next where
  frame := hframe
  streams := hstreams
  shrinks := shrinks_of_sessions hsame.sessions hsame.nextPane
  maps := h.maps.same hsame
  ok stage' hnext := (hok stage' hnext).mono (shrinks_of_sessions hsame.sessions hsame.nextPane)
  placing := hplacing
  finds hsub hw hexists := by
    unfold tree at hexists
    rw [hsame.sessions, hframe.watched] at hexists
    exact hfinds hsub hw hexists
  stays := by
    unfold tree
    rw [hsame.sessions, hframe.watched]
  changed _ := Or.inl (unchanged_of_eq hsame.sessions hpanes hsame.viewports)

/-- INTERNAL: a stage that goes on and leaves everything alone. -/
theorem recomputed_continues {w : Uuid} {stage stage' : RecomputeStage} (h : EngineOk s)
    (hok : StageOk s w stage') (hplacing : Placing stage → Placing stage') :
    Recomputed s s w stage (some stage') := by
  refine recomputed_quiet h ⟨rfl, rfl, rfl, rfl, Nat.le_refl _⟩ rfl
    ⟨rfl, rfl, rfl, rfl, rfl, rfl, rfl, rfl⟩ rfl ?_ ?_ fun _ _ _ => Or.inl (Option.some_ne_none _)
  · intro stage'' heq
    cases heq
    exact hok
  · exact fun _ _ hplaces => Or.inl ⟨stage', rfl, hplacing hplaces⟩

/-- INTERNAL: the size of a pane is stored. -/
theorem recomputed_setSize {w p : Uuid} {stage stage' : RecomputeStage} (h : EngineOk s)
    (hp : OnlyIn s p w) (f : PaneSize → PaneSize) (hok : StageOk s w stage')
    (hplacing : Placing stage') : Recomputed s (s.setSize p f) w stage (some stage') := by
  have hchanged : w ≠ s.watched → Unchanged s (s.setSize p f) := fun hw =>
    unchanged_of_onlyIn hp hw f
  obtain ⟨panes, heq⟩ := setSize_eq s p f
  rw [heq] at hchanged ⊢
  have hshrinks : Shrinks s { s with panes } := shrinks_of_sessions rfl rfl
  refine ⟨⟨rfl, rfl, rfl, rfl, Nat.le_refl _⟩, rfl, hshrinks,
    h.maps.same ⟨rfl, rfl, rfl, rfl, rfl, rfl, rfl, rfl⟩, ?_, ?_, ?_, rfl, ?_⟩
  · intro stage'' heq
    cases heq
    exact hok.mono hshrinks
  · exact fun _ _ _ => Or.inl ⟨stage', rfl, hplacing⟩
  · exact fun _ _ _ => Or.inl (Option.some_ne_none _)
  · intro _
    by_cases hw : w = s.watched
    · exact Or.inr ⟨hw, Option.some_ne_none _⟩
    · exact Or.inl (hchanged hw)

/-- INTERNAL: the window gets its size, and its panes their rectangles.
SRC: engine.rs:1290-1319 -/
theorem recomputed_found {w session : Uuid} {rows cols : ℕ} {st : SessionState}
    {win : SessionWindow} (h : EngineOk s) (hrows : rows ≤ u16Max) (hcols : cols ≤ u16Max)
    (hst : s.sessions.lookup session = some st)
    (hfind : st.windows.find? (fun win => win.id = w) = some win) :
    ∃ rects, win.layout.computeGeometry rows cols = some rects ∧
      Recomputed s { s with
          sessions :=
            s.sessions.insert session { st with windows := sizeWindow w rows cols st.windows } }
        w (.found session rows cols) (some (.placing rects)) := by
  have hwin : win ∈ st.windows := List.mem_of_find?_eq_some hfind
  have hid : win.id = w := by simpa using List.find?_some hfind
  have hbuilt := h.maps.built session st hst
  refine ⟨rects win.layout 0 0 rows cols,
    computeGeometry_eq_rects win.layout (hbuilt win hwin).halved rows cols hrows hcols, ?_⟩
  obtain ⟨hlayout, hholds⟩ := layout_sizeWindow h.maps.layout hst w rows cols
  have hwindowIn : ∀ v sid, WindowIn (s.sessions.insert session
      { st with windows := sizeWindow w rows cols st.windows }) v sid → WindowIn s.sessions v sid :=
    fun v sid hv => windowIn_insert hst (fun u hu => ids_size w rows cols st.windows ▸ hu) hv
  have hshrinks : Shrinks s { s with
      sessions :=
        s.sessions.insert session { st with windows := sizeWindow w rows cols st.windows } } :=
    ⟨fun p v hp => Or.inl ((hholds p v).mp hp), hwindowIn, Nat.le_refl _⟩
  have hbuilt' : ∀ win' ∈ sizeWindow w rows cols st.windows, BuiltWindow win' := by
    intro win' hwin'
    obtain ⟨old, hold, -, hlayout', hsize⟩ := mem_size hwin'
    have hbuiltOld := hbuilt old hold
    refine ⟨hlayout' ▸ hbuiltOld.halved, hlayout' ▸ hbuiltOld.nodup, ?_, ?_⟩
    · obtain ⟨hr, -⟩ | ⟨hr, -⟩ := hsize
      · exact hr ▸ hbuiltOld.rows
      · exact hr ▸ hrows
    · obtain ⟨-, hc⟩ | ⟨-, hc⟩ := hsize
      · exact hc ▸ hbuiltOld.cols
      · exact hc ▸ hcols
  have hstays : treeOf (s.sessions.insert session
      { st with windows := sizeWindow w rows cols st.windows }) s.watched =
        treeOf s.sessions s.watched :=
    treeOf_insert h.maps.layout hlayout hst (treeIn_size w rows cols st.windows s.watched)
  refine ⟨⟨rfl, rfl, rfl, rfl, Nat.le_refl _⟩, rfl, hshrinks, ?_, ?_, ?_, ?_, hstays, ?_⟩
  · exact {
      layout := hlayout
      built := built_insert h.maps.built hbuilt'
      indexed := fun v sid hv => h.maps.indexed v sid (hwindowIn v sid hv)
      placed := fun p v hp => (h.maps.placed p v hp).mono hshrinks
      fresh := fun p v hp => h.maps.fresh p v ((hholds p v).mp hp)
      clamped := h.maps.clamped
      sessionsClean := h.maps.sessionsClean
      panesClean := h.maps.panesClean
      resizeClean := h.maps.resizeClean }
  · intro stage' heq
    cases heq
    intro e he
    have hleaf : e.1 ∈ win.layout.leaves := by
      rw [← map_fst_rects win.layout 0 0 rows cols]
      exact List.mem_map_of_mem he
    have hholds₀ : Holds s.sessions e.1 w := ⟨session, st, hst, win, hwin, hid, hleaf⟩
    refine OnlyIn.mono ⟨h.maps.fresh e.1 w hholds₀, fun v hv => ?_⟩ hshrinks
    exact h.maps.layout.single e.1 v w hv hholds₀
  · exact fun _ _ hplaces => hplaces.elim
  · exact fun _ _ _ => Or.inl (Option.some_ne_none _)
  · exact fun _ => Or.inl (unchanged_of hstays (fun _ _ _ _ => rfl) rfl)

/-- Where a recomputation goes on, unless it returns. -/
def nextStage : RecomputeOutcome → Option RecomputeStage
  | .continues stage => some stage
  | _ => none

/-- INTERNAL: no stage panics, as no lock is poisoned and the layouts are sound.
SRC: engine.rs:1270-1345 -/
theorem recomputed_recompute {w : Uuid} {client : ℕ} {stage : RecomputeStage}
    {outcome : RecomputeOutcome} (h : EngineOk s) (hok : StageOk s w stage)
    (hstep : s.recompute client w stage = some (s', outcome)) :
    outcome ≠ .panics ∧ Recomputed s s' w stage (nextStage outcome) := by
  have hclean : ∀ {b : Bool}, b = false → ¬ b = true := fun hb => by simp [hb]
  cases stage with
  | waiting =>
      have hunpoisoned : w ∉ s.resizePoisoned := by
        rw [h.maps.resizeClean]
        exact List.not_mem_nil
      simp only [recompute] at hstep
      rw [if_neg hunpoisoned] at hstep
      split at hstep
      · cases hstep
      · cases hstep
        refine ⟨by simp, recomputed_quiet h ⟨rfl, rfl, rfl, rfl, Nat.le_refl _⟩ rfl
          ⟨rfl, rfl, rfl, rfl, rfl, rfl, rfl, rfl⟩ rfl ?_ (fun _ _ hplaces => hplaces.elim)
          fun _ _ _ => Or.inl (Option.some_ne_none _)⟩
        intro stage' heq
        cases heq
        exact trivial
  | locked =>
      cases hstep
      exact ⟨by simp, recomputed_continues h (effectiveSize_le (clamped_getD h w)) False.elim⟩
  | sized rows cols =>
      simp only [recompute] at hstep
      split at hstep
      · rename_i hnone
        cases hstep
        refine ⟨by simp, recomputed_quiet h ⟨rfl, rfl, rfl, rfl, Nat.le_refl _⟩ rfl
          ⟨rfl, rfl, rfl, rfl, rfl, rfl, rfl, rfl⟩ rfl (fun _ heq => by cases heq)
          (fun _ _ hplaces => hplaces.elim) ?_⟩
        rintro - rfl hexists
        obtain ⟨sid, hsid⟩ := treeOf_isSome_iff.mp hexists
        rw [h.maps.indexed _ sid hsid] at hnone
        cases hnone
      · rename_i session hsome
        cases hstep
        refine ⟨by simp, recomputed_continues h ⟨hok, fun sid' hsid' => ?_⟩ False.elim⟩
        rw [h.maps.indexed w sid' hsid', Option.some_inj] at hsome
        exact hsome
  | found session rows cols =>
      obtain ⟨⟨hrows, hcols⟩, honly⟩ := hok
      -- the window is in the session that the index names, or nowhere
      have hreturns : (∀ st, s.sessions.lookup session = some st →
          w ∉ st.windows.map SessionWindow.id) →
          Recomputed s (s.unlockWindow w) w (.found session rows cols) none := by
        intro hnot
        refine recomputed_quiet h ⟨rfl, rfl, rfl, rfl, Nat.le_refl _⟩ rfl
          ⟨rfl, rfl, rfl, rfl, rfl, rfl, rfl, rfl⟩ rfl (fun _ heq => by cases heq)
          (fun _ _ hplaces => hplaces.elim) ?_
        rintro - rfl hexists
        obtain ⟨sid, st, hst, hmem⟩ := treeOf_isSome_iff.mp hexists
        obtain rfl := honly sid ⟨st, hst, hmem⟩
        exact absurd hmem (hnot st hst)
      simp only [recompute] at hstep
      rw [if_neg (hclean h.maps.sessionsClean)] at hstep
      split at hstep
      · rename_i hnone
        cases hstep
        refine ⟨by simp, hreturns fun st hst => ?_⟩
        rw [hnone] at hst
        cases hst
      · rename_i st hst
        split at hstep
        · rename_i hnone
          cases hstep
          refine ⟨by simp, hreturns fun st' hst' hmem => ?_⟩
          rw [hst, Option.some_inj] at hst'
          subst hst'
          obtain ⟨win, hwin, hid⟩ := List.mem_map.mp hmem
          rw [List.find?_eq_none] at hnone
          exact hnone win hwin (by simpa using hid)
        · rename_i win hfind
          obtain ⟨rects, hrects, hfound⟩ := recomputed_found h hrows hcols hst hfind
          rw [hrects] at hstep
          cases hstep
          exact ⟨by simp, hfound⟩
  | placing rects =>
      simp only [recompute] at hstep
      rw [if_neg (hclean h.maps.panesClean)] at hstep
      cases hstep
      exact ⟨by simp, recomputed_continues h (fun e he => hok e (List.mem_of_mem_filter he)) id⟩
  | applying rest =>
      cases rest with
      | nil =>
          cases hstep
          exact ⟨by simp, recomputed_continues h trivial id⟩
      | cons e rest =>
          obtain ⟨p, rect⟩ := e
          have hrest : ∀ e ∈ rest, OnlyIn s e.1 w := fun e he => hok e (List.mem_cons_of_mem _ he)
          have hp : OnlyIn s p w := hok (p, rect) List.mem_cons_self
          simp only [recompute] at hstep
          split at hstep
          · cases hstep
            exact ⟨by simp, recomputed_continues h hrest id⟩
          · cases hstep
            exact ⟨by simp, recomputed_setSize h hp _ ⟨hp, hrest⟩ trivial⟩
  | storedRows p cols rest =>
      cases hstep
      exact ⟨by simp, recomputed_setSize h hok.1 _ hok.2 trivial⟩
  | notifying =>
      cases hstep
      obtain ⟨ticks, hticks, heq⟩ := notifyWindowChanged_eq s w
      have hpending : s.subscribed = true → w = s.watched → 0 < ticks := by
        intro hsub hw
        have hpos := notify_pending hsub hw
        rw [heq] at hpos
        exact hpos
      rw [heq]
      refine ⟨by simp, recomputed_quiet h ⟨rfl, rfl, rfl, rfl, hticks⟩ rfl
        ⟨rfl, rfl, rfl, rfl, rfl, rfl, rfl, rfl⟩ rfl (fun _ heq => by cases heq) ?_ ?_⟩
      · exact fun hsub hw _ => Or.inr (hpending hsub hw)
      · exact fun hsub hw _ => Or.inr (hpending hsub hw)

end

section

variable {s s' : Watching} {client : ℕ} {stream : AttachStream}

/-- INTERNAL: a stream's task takes a step that leaves the maps and the panes alone. -/
theorem keeps_stream (stream' : AttachStream) (h : EngineOk s)
    (hstream : s.streams.lookup client = some stream) (hframe : StreamFrame s s')
    (hstreams : s'.streams = s.streams.insert client stream') (hsame : SameMaps s s')
    (hpanes : s'.panes = s.panes) (hok : StreamOk s stream')
    (hnot : ¬ Recomputes s.watched (fun _ => True) stream) : Keeps False s s' := by
  have hshrinks := shrinks_of_sessions hsame.sessions hsame.nextPane
  refine ⟨h.stream hshrinks (h.maps.same hsame) hframe.calls hstreams (hok.mono hshrinks),
    effect_stream hstream hstreams hframe.calls hframe.watched hframe.watch hframe.events
      hframe.pendingTicks (tree_gone hshrinks hframe.watched) ?_ ?_ ?_,
    not_taken hsame.sessions hframe.watched⟩
  · intro _ hplacing
    refine absurd ?_ hnot
    cases stream with
    | reporting w stage => exact ⟨hplacing.1, trivial⟩
    | cleaning w stage => exact ⟨hplacing.1, trivial⟩
    | _ => exact hplacing.elim
  · exact fun _ _ hrecomputes => absurd hrecomputes hnot
  · exact fun _ => Or.inl (unchanged_of_eq hsame.sessions hpanes hsame.viewports)

/-- INTERNAL: the viewports of a window change, and its recomputation follows. -/
theorem keeps_viewports {w : Uuid} {clients : Viewports} {stream' : AttachStream} (h : EngineOk s)
    (hstream : s.streams.lookup client = some stream)
    (hstream' : ∀ P : RecomputeStage → Prop, P .waiting → Recomputes w P stream')
    (hok : StreamOk s stream') (hnot : ∀ P : RecomputeStage → Prop, ¬ Recomputes s.watched P stream)
    (hclamped : ViewportsClamped clients) :
    Keeps False s (Watching.setStream { s with viewports := s.viewports.insert w clients } client
      stream') := by
  have hshrinks : Shrinks s (Watching.setStream
      { s with viewports := s.viewports.insert w clients } client stream') :=
    shrinks_of_sessions rfl rfl
  have hmaps : MapsOk (Watching.setStream
      { s with viewports := s.viewports.insert w clients } client stream') := by
    refine h.maps.congr rfl rfl rfl rfl ?_ h.maps.sessionsClean h.maps.panesClean h.maps.resizeClean
    intro v clients' hv
    obtain ⟨-, rfl⟩ | hold := lookup_of_insert hv
    · exact hclamped
    · exact h.maps.clamped v clients' hold
  refine ⟨h.stream hshrinks hmaps rfl rfl (hok.mono hshrinks),
    effect_stream hstream rfl rfl rfl rfl rfl (Nat.le_refl _) id ?_ ?_ ?_, not_taken rfl rfl⟩
  · exact fun _ hplacing => absurd hplacing (hnot _)
  · exact fun _ _ hrecomputes => absurd hrecomputes (hnot _)
  · intro _
    by_cases hw : w = s.watched
    · exact Or.inr (hw ▸ hstream' _ trivial)
    · left
      refine unchanged_of rfl (fun _ _ _ _ => rfl) ?_
      exact AList.lookup_insert_ne fun heq => hw heq.symm

/-- INTERNAL: a stream is in a recomputation of the window `w`, wherever it came from. -/
theorem keeps_recompute {w : Uuid} {stage : RecomputeStage} {s₁ : Watching}
    (outcome : RecomputeOutcome) (stream' : AttachStream) (h : EngineOk s)
    (hstream : s.streams.lookup client = some stream)
    (hrecomputes : ∀ P : RecomputeStage → Prop, Recomputes s.watched P stream ↔ w = s.watched ∧ P stage)
    (hnext : ∀ stage', outcome = .continues stage' →
      (StageOk s₁ w stage' → StreamOk s₁ stream') ∧
        ∀ P : RecomputeStage → Prop, Recomputes s.watched P stream' ↔ w = s.watched ∧ P stage')
    (hreturns : outcome = .returns → StreamOk s₁ stream') (hok : StageOk s w stage)
    (hstep : s.recompute client w stage = some (s₁, outcome)) :
    Keeps False s (s₁.setStream client stream') := by
  obtain ⟨hpanic, hdone⟩ := recomputed_recompute h hok hstep
  have hstreams : (s₁.setStream client stream').streams = s.streams.insert client stream' := by
    rw [← hdone.streams]
    rfl
  have hshrinks : Shrinks s (s₁.setStream client stream') :=
    ⟨hdone.shrinks.holds, hdone.shrinks.windowIn, hdone.shrinks.nextPane⟩
  have hmaps : MapsOk (s₁.setStream client stream') :=
    hdone.maps.same ⟨rfl, rfl, rfl, rfl, rfl, rfl, rfl, rfl⟩
  have hok' : StreamOk s₁ stream' := by
    cases outcome with
    | continues stage' => exact (hnext stage' rfl).1 (hdone.ok stage' rfl)
    | returns => exact hreturns rfl
    | panics => exact absurd rfl hpanic
  have hgoesOn : nextStage outcome ≠ none → w = s.watched →
      Recomputes s.watched (fun _ => True) stream' := by
    intro hsome hw
    cases outcome with
    | continues stage' => exact ((hnext stage' rfl).2 _).mpr ⟨hw, trivial⟩
    | returns => exact absurd rfl hsome
    | panics => exact absurd rfl hsome
  have hnot : (tree s).isSome → tree (s₁.setStream client stream') = none → False := by
    intro hexists hnone
    have hsame : tree s = none := hdone.stays.symm.trans hnone
    rw [hsame] at hexists
    cases hexists
  refine ⟨h.stream hshrinks hmaps hdone.frame.calls hstreams
      (hok'.mono (shrinks_of_sessions rfl rfl)),
    effect_stream hstream hstreams hdone.frame.calls hdone.frame.watched hdone.frame.watch
      hdone.frame.events hdone.frame.pendingTicks (tree_gone hshrinks hdone.frame.watched) ?_ ?_ ?_,
    hnot⟩
  · intro hsub hplacing
    obtain ⟨hw, hplaces⟩ := (hrecomputes _).mp hplacing
    obtain ⟨stage', hstage', hplaces'⟩ | hpending := hdone.placing hsub hw hplaces
    · left
      cases outcome with
      | continues stage'' =>
          cases hstage'
          exact ((hnext stage' rfl).2 _).mpr ⟨hw, hplaces'⟩
      | returns => cases hstage'
      | panics => cases hstage'
    · exact Or.inr hpending
  · intro hsub hexists hrec
    obtain ⟨hw, -⟩ := (hrecomputes _).mp hrec
    exact (hdone.finds hsub hw hexists).imp_left fun hsome => hgoesOn hsome hw
  · intro hexists
    exact (hdone.changed hexists).imp_right fun ⟨hw, hsome⟩ => hgoesOn hsome hw

theorem keeps_refl (h : EngineOk s) : Keeps False s s :=
  ⟨h, ⟨rfl, rfl, rfl, id, fun _ => id, fun _ _ => Or.inr, fun _ _ => Or.inl ⟨rfl, rfl⟩⟩,
    not_taken rfl rfl⟩

/-- INTERNAL: a client attaches, under an id of its own. -/
theorem keeps_attach (h : EngineOk s) (hknown : Known s) (pane : Uuid) : Keeps False s (s.attach pane) := by
  have hfresh : s.streams.lookup s.nextClientId = none := by
    cases hlookup : s.streams.lookup s.nextClientId with
    | none => rfl
    | some stream => exact absurd (hknown _ stream hlookup) (Nat.lt_irrefl _)
  have hne : ∀ {client stream}, s.streams.lookup client = some stream →
      (s.attach pane).streams.lookup client = some stream := by
    intro client stream hstream
    refine (AList.lookup_insert_ne ?_).trans hstream
    rintro rfl
    rw [hfresh] at hstream
    cases hstream
  refine ⟨h.stream (shrinks_of_sessions rfl rfl)
    (h.maps.same ⟨rfl, rfl, rfl, rfl, rfl, rfl, rfl, rfl⟩) rfl rfl trivial,
    ⟨rfl, rfl, rfl, id, ?_, ?_, ?_⟩, not_taken rfl rfl⟩
  · rintro - (hpending | hcall | ⟨client, stream, hstream, hplacing⟩)
    · exact Or.inl hpending
    · exact Or.inr (Or.inl hcall)
    · exact Or.inr (Or.inr ⟨client, stream, hne hstream, hplacing⟩)
  · rintro - - ⟨client, stream, hstream, hrec⟩
    exact Or.inr ⟨client, stream, hne hstream, hrec⟩
  · exact fun _ _ => Or.inl (unchanged_of_eq rfl rfl rfl)

theorem keeps_reportViewport {rows cols : ℕ} (h : EngineOk s)
    (hstream : s.streams.lookup client = some stream)
    (hstep : s.reportViewport client rows cols stream = some s') : Keeps False s s' := by
  cases stream with
  | receiving window =>
      cases window with
      | none =>
          cases hstep
          exact keeps_refl h
      | some window =>
          cases hstep
          exact keeps_viewports h hstream (fun P hP => ⟨rfl, hP⟩) trivial (fun _ => id)
            (viewportsClamped_insert (clamped_getD h window) client (min rows u16Max) (min cols u16Max))
  | _ => cases hstep

theorem keeps_endStream (h : EngineOk s) (hstream : s.streams.lookup client = some stream)
    (hstep : s.endStream client stream = some s') : Keeps False s s' := by
  cases stream with
  | receiving window =>
      cases window with
      | none =>
          cases hstep
          exact keeps_stream .done h hstream ⟨rfl, rfl, rfl, rfl, Nat.le_refl _⟩ rfl
            ⟨rfl, rfl, rfl, rfl, rfl, rfl, rfl, rfl⟩ rfl trivial id
      | some window =>
          cases hstep
          exact keeps_stream (.sleeping window) h hstream ⟨rfl, rfl, rfl, rfl, Nat.le_refl _⟩ rfl
            ⟨rfl, rfl, rfl, rfl, rfl, rfl, rfl, rfl⟩ rfl trivial id
  | _ => cases hstep

/-- INTERNAL: the tasks of a stream notify the watchers of whatever they change.
SRC: main.rs:1668-1743, engine.rs:1211-1345 -/
theorem keeps_advanceStream (h : EngineOk s) (hstream : s.streams.lookup client = some stream)
    (hstep : s.advanceStream client stream = some s') : Keeps False s s' := by
  have hok : StreamOk s stream := h.streams client stream hstream
  cases stream with
  | reporting w stage =>
      obtain ⟨⟨s₁, outcome⟩, hrecompute, hstep⟩ := Option.bind_eq_some_iff.mp hstep
      have hpanic := (recomputed_recompute h hok hrecompute).1
      cases outcome with
      | continues stage' =>
          cases hstep
          refine keeps_recompute (.continues stage') (.reporting w stage') h hstream
            (fun P => Iff.rfl) ?_ (fun heq => nomatch heq) hok hrecompute
          intro stage'' heq
          cases heq
          exact ⟨id, fun P => Iff.rfl⟩
      | returns =>
          cases hstep
          exact keeps_recompute .returns (.receiving (some w)) h hstream (fun P => Iff.rfl)
            (fun _ heq => nomatch heq) (fun _ => trivial) hok hrecompute
      | panics => exact absurd rfl hpanic
  | cleaning w stage =>
      obtain ⟨⟨s₁, outcome⟩, hrecompute, hstep⟩ := Option.bind_eq_some_iff.mp hstep
      have hpanic := (recomputed_recompute h hok hrecompute).1
      cases outcome with
      | continues stage' =>
          cases hstep
          refine keeps_recompute (.continues stage') (.cleaning w stage') h hstream
            (fun P => Iff.rfl) ?_ (fun heq => nomatch heq) hok hrecompute
          intro stage'' heq
          cases heq
          exact ⟨id, fun P => Iff.rfl⟩
      | returns =>
          cases hstep
          exact keeps_recompute .returns .done h hstream (fun P => Iff.rfl)
            (fun _ heq => nomatch heq) (fun _ => trivial) hok hrecompute
      | panics => exact absurd rfl hpanic
  | sleeping window =>
      have hmoves : ∀ stream', StreamOk s stream' → Keeps False s (s.setStream client stream') :=
        fun stream' hok' => keeps_stream stream' h hstream ⟨rfl, rfl, rfl, rfl, Nat.le_refl _⟩ rfl
          ⟨rfl, rfl, rfl, rfl, rfl, rfl, rfl, rfl⟩ rfl hok' id
      simp only [advanceStream] at hstep
      rw [if_neg (by rw [h.maps.sessionsClean]; exact Bool.false_ne_true),
        if_neg (by rw [h.maps.panesClean]; exact Bool.false_ne_true)] at hstep
      split at hstep
      · cases hstep
        exact hmoves _ trivial
      · cases hstep
        exact hmoves _ trivial
  | unregistering window =>
      simp only [advanceStream, unregisterViewport] at hstep
      split at hstep
      · rename_i clients hclients
        cases hstep
        exact keeps_viewports h hstream (fun P hP => ⟨rfl, hP⟩) trivial (fun _ => id)
          (viewportsClamped_remove (h.maps.clamped window clients hclients) client)
      · cases hstep
        exact keeps_stream (.cleaning window .waiting) h hstream ⟨rfl, rfl, rfl, rfl, Nat.le_refl _⟩
          rfl ⟨rfl, rfl, rfl, rfl, rfl, rfl, rfl, rfl⟩ rfl trivial id
  | _ => cases hstep

end

/-! ## The task -/

/-- The last event is current. -/
def Current (s : Watching) : Prop :=
  ∃ layout, s.windowSnapshot s.watched = some layout ∧
    s.events.getLast? = some ⟨layout, s.attachedClientCount s.watched⟩

/-- What the task has is current, or it is due to look again. -/
def WatchOk (s : Watching) : Prop :=
  match s.watch with
  | .notStarted | .subscribed | .ticked => True
  | .first layout | .snapshot layout => Due s ∨ s.windowSnapshot s.watched = some layout
  | .receiving => Due s ∨ Current s
  | .ended => tree s = none

/-- The task has yet to look at the window, or a tick is on its way to it. -/
def WillLook (s : Watching) : Prop :=
  s.watch = .notStarted ∨ s.watch = .subscribed ∨ s.watch = .ticked ∨ Announced s

/-- What a step needs for the task to hear of what it does. -/
structure Timely (s : Watching) (e : WatchingEvent) : Prop where
  /-- The window is taken away only while the task will look. -/
  closes : ∀ c call, e = .advance c → s.calls.lookup c = some call → TakesWindow s call → WillLook s
  /-- The first look finds the window, or the task will look again. -/
  opens : e = .watch → s.watch = .subscribed → tree s = none → Announced s
  /-- A split finds its session when it answers. -/
  splits : ∀ c call, e = .advance c → s.calls.lookup c = some call → FindsSession s call

section

variable {s s' : Watching}

theorem snapshot_isSome_iff (s : Watching) :
    (s.windowSnapshot s.watched).isSome ↔ (tree s).isSome := by
  rw [windowSnapshot_eq, Option.isSome_map]
  rfl

theorem subscribed_iff (s : Watching) :
    s.subscribed = true ↔ s.watch ≠ .notStarted ∧ s.watch ≠ .ended := by
  unfold subscribed
  cases s.watch with
  | _ => simp

theorem due_of_effect (heffect : Effect s s') (hsub : s.subscribed = true)
    (hclosed : tree s' = none → Announced s) (h : Due s) : Due s' := by
  obtain hannounced | ⟨-, hintended⟩ := h
  · exact Or.inl (heffect.announced hsub hannounced)
  · by_cases hexists : (tree s').isSome
    · obtain hannounced | hintended' := heffect.intended hsub hexists hintended
      · exact Or.inl hannounced
      · exact Or.inr ⟨hexists, hintended'⟩
    · exact Or.inl (heffect.announced hsub (hclosed (Option.not_isSome_iff_eq_none.mp hexists)))

/-- INTERNAL: what the task was told is still so, or it is due to look again. -/
theorem due_or_unchanged (heffect : Effect s s') (hsub : s.subscribed = true)
    (hclosed : tree s' = none → Announced s) : Due s' ∨ Unchanged s s' := by
  by_cases hexists : (tree s').isSome
  · obtain hsame | hannounced | hintended := heffect.changed hsub hexists
    · exact Or.inr hsame
    · exact Or.inl (Or.inl hannounced)
    · exact Or.inl (Or.inr ⟨hexists, hintended⟩)
  · left
    exact Or.inl (heffect.announced hsub (hclosed (Option.not_isSome_iff_eq_none.mp hexists)))

/-- INTERNAL: what the task has stays current through a step of somebody else. -/
theorem watchOk_effect (h : WatchOk s) (heffect : Effect s s')
    (hcloses : (tree s).isSome → tree s' = none → WillLook s) : WatchOk s' := by
  -- a window that goes while the task does not look was gone, or is announced
  have hlost : s.watch ≠ .notStarted → s.watch ≠ .subscribed → s.watch ≠ .ticked →
      (tree s).isSome → tree s' = none → Announced s := by
    intro hstarted hsubscribed hticked hexists hnone
    obtain heq | heq | heq | hannounced := hcloses hexists hnone
    · exact absurd heq hstarted
    · exact absurd heq hsubscribed
    · exact absurd heq hticked
    · exact hannounced
  have hlook : ∀ layout, s.subscribed = true →
      ((tree s).isSome → tree s' = none → Announced s) →
      Due s ∨ s.windowSnapshot s.watched = some layout →
      Due s' ∨ s'.windowSnapshot s'.watched = some layout := by
    intro layout hsub hlost' hboth
    rw [heffect.watched]
    obtain hannounced | ⟨hexists, hintended⟩ | hsnapshot := or_assoc.mp hboth
    · exact Or.inl (Or.inl (heffect.announced hsub hannounced))
    · exact Or.inl (due_of_effect heffect hsub (hlost' hexists) (Or.inr ⟨hexists, hintended⟩))
    · have hexists : (tree s).isSome := by
        rw [← snapshot_isSome_iff, hsnapshot]
        rfl
      obtain hdue | hsame := due_or_unchanged heffect hsub (hlost' hexists)
      · exact Or.inl hdue
      · exact Or.inr (hsame.1.trans hsnapshot)
  unfold WatchOk at h ⊢
  rw [heffect.watch]
  cases hwatch : s.watch with
  | notStarted => trivial
  | subscribed => trivial
  | ticked => trivial
  | first layout =>
      rw [hwatch] at h hlost
      exact hlook layout (by rw [subscribed_iff, hwatch]; simp) (hlost nofun nofun nofun) h
  | snapshot layout =>
      rw [hwatch] at h hlost
      exact hlook layout (by rw [subscribed_iff, hwatch]; simp) (hlost nofun nofun nofun) h
  | receiving =>
      rw [hwatch] at h hlost
      have hsub : s.subscribed = true := by
        rw [subscribed_iff, hwatch]
        simp
      obtain hdue | ⟨layout, hsnapshot, hlast⟩ := h
      · obtain hannounced | ⟨hexists, hintended⟩ := hdue
        · exact Or.inl (Or.inl (heffect.announced hsub hannounced))
        · exact Or.inl (due_of_effect heffect hsub (hlost nofun nofun nofun hexists)
            (Or.inr ⟨hexists, hintended⟩))
      · have hexists : (tree s).isSome := by
          rw [← snapshot_isSome_iff, hsnapshot]
          rfl
        obtain hdue | hsame := due_or_unchanged heffect hsub (hlost nofun nofun nofun hexists)
        · exact Or.inl hdue
        · refine Or.inr ⟨layout, ?_, ?_⟩
          · rw [heffect.watched, hsame.1, hsnapshot]
          · rw [heffect.watched, heffect.events, hsame.2, hlast]
  | ended =>
      rw [hwatch] at h
      exact heffect.gone h

/-- INTERNAL: the task changes nothing that the calls and the streams rely on. -/
theorem engineOk_task (h : EngineOk s) (watch : WatchTask) (pendingTicks : ℕ)
    (events : List WindowLayoutEvent) : EngineOk { s with watch, pendingTicks, events } where
  maps := h.maps.same ⟨rfl, rfl, rfl, rfl, rfl, rfl, rfl, rfl⟩
  calls c call hcall := (h.calls c call hcall).mono (shrinks_of_sessions rfl rfl)
  streams client stream hstream :=
    (h.streams client stream hstream).mono (shrinks_of_sessions rfl rfl)

theorem withSnapshot_eq (h : EngineOk s) (k : Option LayoutSnapshot → Watching) :
    s.withSnapshot k = k (s.windowSnapshot s.watched) := by
  unfold withSnapshot
  rw [if_neg (by rw [h.maps.sessionsClean]; exact Bool.false_ne_true),
    if_neg (by rw [h.maps.panesClean]; exact Bool.false_ne_true)]

/-- INTERNAL: an event that carries what the task has just read is current, or it is due. -/
theorem watchOk_sendEvent {layout : LayoutSnapshot}
    (h : Due s ∨ s.windowSnapshot s.watched = some layout) : WatchOk (s.sendEvent layout) :=
  h.imp id fun hsnapshot => ⟨layout, hsnapshot, List.getLast?_concat⟩

/-- INTERNAL: a look at the window leaves nothing due that was not, unless it finds none.
SRC: main.rs:1168-1212 -/
theorem task_step (h : EngineOk s) (hwatch : WatchOk s)
    (hopens : s.watch = .subscribed → tree s = none → Announced s)
    (hstep : s.advanceWatch s.watch = some s') : EngineOk s' ∧ WatchOk s' := by
  have hnone : s.windowSnapshot s.watched = none → tree s = none := by
    intro hsnapshot
    rw [← Option.not_isSome_iff_eq_none, ← snapshot_isSome_iff, hsnapshot]
    exact Bool.false_ne_true
  unfold WatchOk at hwatch
  cases htask : s.watch with
  | notStarted =>
      rw [htask] at hstep
      cases hstep
  | subscribed =>
      rw [htask] at hstep
      simp only [advanceWatch, withSnapshot_eq h, Option.some_inj] at hstep
      cases hsnapshot : s.windowSnapshot s.watched with
      | none =>
          rw [hsnapshot] at hstep
          subst hstep
          exact ⟨engineOk_task h _ _ _, Or.inl (Or.inl (hopens htask (hnone hsnapshot)))⟩
      | some layout =>
          rw [hsnapshot] at hstep
          subst hstep
          exact ⟨engineOk_task h _ _ _, Or.inr hsnapshot⟩
  | first layout =>
      rw [htask] at hstep hwatch
      cases hstep
      exact ⟨engineOk_task h _ _ _, watchOk_sendEvent hwatch⟩
  | receiving =>
      rw [htask] at hstep
      simp only [advanceWatch] at hstep
      split at hstep
      · cases hstep
      · split at hstep
        · cases hstep
          refine ⟨engineOk_task h _ _ _, ?_⟩
          unfold WatchOk
          rw [htask]
          exact Or.inl (Or.inl (Or.inl (Nat.succ_pos 15)))
        · cases hstep
          exact ⟨engineOk_task h _ _ _, trivial⟩
  | ticked =>
      rw [htask] at hstep
      simp only [advanceWatch, withSnapshot_eq h, Option.some_inj] at hstep
      cases hsnapshot : s.windowSnapshot s.watched with
      | none =>
          rw [hsnapshot] at hstep
          subst hstep
          exact ⟨engineOk_task h _ _ _, hnone hsnapshot⟩
      | some layout =>
          rw [hsnapshot] at hstep
          subst hstep
          exact ⟨engineOk_task h _ _ _, Or.inr hsnapshot⟩
  | snapshot layout =>
      rw [htask] at hstep hwatch
      cases hstep
      exact ⟨engineOk_task h _ _ _, watchOk_sendEvent hwatch⟩
  | ended =>
      rw [htask] at hstep
      cases hstep

/-! ## Whole runs -/

structure WatchInv (s : Watching) : Prop where
  engine : EngineOk s
  known : Known s
  watch : WatchOk s

theorem watchInv_keeps {e : WatchingEvent} {taken : Prop} (h : WatchInv s)
    (hstep : s.step e = some s') (hkeeps : Keeps taken s s') (htaken : taken → WillLook s) :
    WatchInv s' where
  engine := hkeeps.ok
  known := known_step h.known hstep
  watch := watchOk_effect h.watch hkeeps.effect fun hexists hnone => htaken (hkeeps.taken hexists hnone)

theorem watchInv_step {e : WatchingEvent} (h : WatchInv s) (htimely : Timely s e)
    (hstep : s.step e = some s') : WatchInv s' := by
  cases e with
  | splitPane c target o =>
      have hok : CallOk s (.splitLookup target o) := trivial
      exact watchInv_keeps h hstep (keeps_begin h.engine hok hstep) False.elim
  | closePane c pane =>
      have hok : CallOk s (.closeLookup pane) := trivial
      exact watchInv_keeps h hstep (keeps_begin h.engine hok hstep) False.elim
  | killSession c session =>
      have hok : CallOk s (.killLayout session) := trivial
      exact watchInv_keeps h hstep (keeps_begin h.engine hok hstep) False.elim
  | advance c =>
      obtain ⟨call, hcall, hadvance⟩ := Option.bind_eq_some_iff.mp hstep
      exact watchInv_keeps h hstep
        (keeps_advanceCall h.engine hcall (htimely.splits c call rfl hcall) hadvance)
        (htimely.closes c call rfl hcall)
  | attach pane =>
      have hattach := hstep
      cases hattach
      exact watchInv_keeps h hstep (keeps_attach h.engine h.known pane) False.elim
  | resize client rows cols =>
      obtain ⟨stream, hstream, hreport⟩ := Option.bind_eq_some_iff.mp hstep
      exact watchInv_keeps h hstep (keeps_reportViewport h.engine hstream hreport) False.elim
  | endStream client =>
      obtain ⟨stream, hstream, hend⟩ := Option.bind_eq_some_iff.mp hstep
      exact watchInv_keeps h hstep (keeps_endStream h.engine hstream hend) False.elim
  | stream client =>
      obtain ⟨stream, hstream, hadvance⟩ := Option.bind_eq_some_iff.mp hstep
      exact watchInv_keeps h hstep (keeps_advanceStream h.engine hstream hadvance) False.elim
  | watchWindow =>
      have hknown := known_step h.known hstep
      simp only [step] at hstep
      split at hstep
      · cases hstep
        exact ⟨engineOk_task h.engine .subscribed s.pendingTicks s.events, hknown, trivial⟩
      · cases hstep
  | watch =>
      obtain ⟨hengine, hwatch⟩ := task_step h.engine h.watch (htimely.opens rfl) hstep
      exact ⟨hengine, known_step h.known hstep, hwatch⟩

/-- The layouts of an engine that has loaded its sessions: they are sound, and the operations have
built them. -/
structure BuiltSessions (sessions : Sessions) (nextPane : Uuid) : Prop where
  loadable : Loadable sessions nextPane
  built : ∀ sid st, sessions.lookup sid = some st → ∀ win ∈ st.windows, BuiltWindow win

theorem indexed_loaded {sessions : Sessions} (h : LayoutInv sessions) {w sid : Uuid}
    (hw : WindowIn sessions w sid) :
    ((sessions.entries.flatMap fun e => e.2.windows.map (·.id, e.1)).foldl
      (fun m e => m.insert e.1 e.2) (∅ : AList fun _ : Uuid => Uuid)).lookup w = some sid := by
  have hmem : w ∈ (sessions.entries.flatMap fun e => e.2.windows.map (·.id, e.1)).foldl
      (fun m e => m.insert e.1 e.2) (∅ : AList fun _ : Uuid => Uuid) := by
    rw [mem_foldl_insert]
    obtain ⟨st, hst, hid⟩ := hw
    obtain ⟨win, hwin, rfl⟩ := List.mem_map.mp hid
    left
    refine List.mem_map.mpr ⟨(win.id, sid), List.mem_flatMap.mpr ⟨⟨sid, st⟩, ?_, ?_⟩, rfl⟩
    · exact AList.mem_lookup_iff.mp hst
    · exact List.mem_map_of_mem hwin
  obtain ⟨sid', hsid'⟩ := Option.isSome_iff_exists.mp (AList.lookup_isSome.mpr hmem)
  obtain hin | hempty := lookup_foldl_insert _ _ hsid'
  · obtain ⟨⟨sid₀, st⟩, hentry, hpair⟩ := List.mem_flatMap.mp hin
    obtain ⟨win, hwin, heq⟩ := List.mem_map.mp hpair
    cases heq
    have hw' : WindowIn sessions win.id sid₀ :=
      ⟨st, AList.mem_lookup_iff.mpr hentry, List.mem_map_of_mem hwin⟩
    rw [hsid', h.sessionOf win.id sid sid₀ hw hw']
  · rw [AList.lookup_empty] at hempty
    cases hempty

theorem watchInv_loaded {sessions : Sessions} {nextPane : Uuid} (h : BuiltSessions sessions nextPane)
    (size : Uuid → PaneSize) (watched : Uuid) :
    WatchInv (loaded sessions size nextPane watched) where
  engine := {
    maps := {
      layout := h.loadable.layout
      built := h.built
      indexed := fun _ _ hw => indexed_loaded h.loadable.layout hw
      placed := by
        intro p w hp
        have hindex : (EngineState.loaded sessions nextPane).paneWindow.lookup p = some w := hp
        have hholds : Holds sessions p w := loaded_paneWindow hindex
        exact ⟨h.loadable.panes p w hholds, fun v hv => h.loadable.layout.single p v w hv hholds⟩
      fresh := h.loadable.panes
      clamped := fun _ _ hclients => nomatch hclients
      sessionsClean := rfl
      panesClean := rfl
      resizeClean := rfl }
    calls := fun _ _ hcall => nomatch hcall
    streams := fun _ _ hstream => nomatch hstream }
  known := fun _ _ hstream => nomatch hstream
  watch := trivial

/-- No call of the engine is in flight, and the task has consumed its ticks. -/
structure Quiescent (s : Watching) : Prop where
  calls : s.calls = ∅
  streams : ∀ client stream, s.streams.lookup client = some stream →
    ∀ w, ¬ Recomputes w (fun _ => True) stream
  ticks : s.pendingTicks = 0
  watch : s.watch = .receiving ∨ s.watch = .ended

/-- The last event that was sent is current, or the window is gone and the stream has ended. -/
def Agrees (s : Watching) : Prop :=
  Current s ∨ s.windowSnapshot s.watched = none ∧ s.watch = .ended

theorem not_due_of_quiescent (h : Quiescent s) : ¬ Due s := by
  have hstream : ∀ P : RecomputeStage → Prop, ¬ ∃ client stream,
      s.streams.lookup client = some stream ∧ Recomputes s.watched P stream := by
    rintro P ⟨client, stream, hlookup, hrec⟩
    refine h.streams client stream hlookup s.watched ?_
    cases stream with
    | reporting w stage => exact ⟨hrec.1, trivial⟩
    | cleaning w stage => exact ⟨hrec.1, trivial⟩
    | _ => exact hrec.elim
  rintro ((hpending | ⟨c, call, hcall, -⟩ | hplacing) | ⟨-, hintended⟩)
  · exact absurd hpending (by rw [h.ticks]; exact Nat.lt_irrefl 0)
  · rw [h.calls, AList.lookup_empty] at hcall
    cases hcall
  · exact hstream _ hplacing
  · exact hstream _ hintended

/-- INTERNAL: in every run whose steps are all timely, whenever no call is in flight and the task has
consumed its ticks, its last event carries the current layout and count, or the window is gone and
its stream has ended.
SRC: main.rs:1168-1212, engine.rs:1211-1365 -/
theorem watchWindow_agrees {sessions : Sessions} {nextPane : Uuid}
    (h : BuiltSessions sessions nextPane) (size : Uuid → PaneSize) (watched : Uuid)
    {es : List WatchingEvent} {s : Watching}
    (htimely : Along step Timely (loaded sessions size nextPane watched) es)
    (hrun : run step (loaded sessions size nextPane watched) es = some s) (hquiet : Quiescent s) :
    Agrees s := by
  have hinv : WatchInv s := run_invariant_along WatchInv
    (fun _ _ _ h htimely hstep => watchInv_step h htimely hstep) (watchInv_loaded h size watched)
    htimely hrun
  have hwatch := hinv.watch
  unfold WatchOk at hwatch
  obtain heq | heq := hquiet.watch
  · rw [heq] at hwatch
    exact Or.inl (hwatch.resolve_left (not_due_of_quiescent hquiet))
  · rw [heq] at hwatch
    refine Or.inr ⟨?_, heq⟩
    rw [← Option.not_isSome_iff_eq_none, snapshot_isSome_iff, Option.not_isSome_iff_eq_none]
    exact hwatch

end

/-! ## Two runs -/

theorem builtSessions_one : BuiltSessions oneSession 4 := by
  have hlookup : ∀ sid st, oneSession.lookup sid = some st →
      sid = 1 ∧ st = ⟨[EngineState.newWindow 2 3], 2⟩ := by
    intro sid st hst
    obtain hnew | hold := lookup_of_insert hst
    · exact hnew
    · rw [AList.lookup_empty] at hold
      cases hold
  have hwindow : ∀ w sid, WindowIn oneSession w sid → w = 2 ∧ sid = 1 := by
    rintro w sid ⟨st, hst, hmem⟩
    obtain ⟨rfl, rfl⟩ := hlookup sid st hst
    exact ⟨List.mem_singleton.mp hmem, rfl⟩
  have hholds : ∀ p w, Holds oneSession p w → p = 3 ∧ w = 2 := by
    rintro p w ⟨sid, st, hst, hin⟩
    obtain ⟨rfl, rfl⟩ := hlookup sid st hst
    exact windowsHold_newWindow.mp hin
  refine ⟨⟨⟨?_, ?_, ?_, ?_⟩, ?_, ?_, ?_⟩, ?_⟩
  · intro sid st hst
    rw [(hlookup sid st hst).2]
    exact List.nodup_singleton 2
  · intro sid st hst win hwin
    rw [(hlookup sid st hst).2] at hwin
    rw [List.mem_singleton.mp hwin]
    exact List.nodup_singleton 3
  · intro w sid sid' hw hw'
    rw [(hwindow w sid hw).2, (hwindow w sid' hw').2]
  · intro p w w' hw hw'
    rw [(hholds p w hw).2, (hholds p w' hw').2]
  · intro p w hw
    rw [(hholds p w hw).1]
    decide
  · intro w sid hw
    rw [(hwindow w sid hw).1]
    decide
  · intro sid hsid
    obtain ⟨st, hst⟩ := Option.isSome_iff_exists.mp (AList.lookup_isSome.mpr hsid)
    rw [(hlookup sid st hst).1]
    decide
  · intro sid st hst win hwin
    rw [(hlookup sid st hst).2] at hwin
    rw [List.mem_singleton.mp hwin]
    exact ⟨trivial, List.nodup_singleton 3, by decide, by decide⟩

/-- No window is taken away, no split has lost its session, and no first look finds nothing. -/
def harmless (s : Watching) : WatchingEvent → Bool
  | .advance c =>
    match s.calls.lookup c with
    | some (.killLayout _) | some (.closeLayout _ _ _) => false
    | some (.splitSnapshot _ session) => (s.sessions.lookup session).isSome
    | _ => true
  | .watch => (tree s).isSome
  | _ => true

theorem timely_of_harmless (s : Watching) (e : WatchingEvent) (h : harmless s e = true) :
    Timely s e := by
  refine ⟨?_, ?_, ?_⟩
  · rintro c call rfl hcall htakes
    cases call with
    | killLayout session => simp [harmless, hcall] at h
    | closeLayout pane window session => simp [harmless, hcall] at h
    | _ => exact htakes.elim
  · rintro rfl - hnone
    simp [harmless, hnone] at h
  · rintro c call rfl hcall
    cases call with
    | splitSnapshot window session =>
        intro hnone
        simp [harmless, hcall, hnone] at h
    | _ => trivial

/-- A client watches the window, takes the first event, and reads what a split sends. -/
def watchASplit : List WatchingEvent :=
  [.watchWindow, .watch, .watch, .splitPane 0 3 .horizontal] ++
    (List.replicate 6 (.advance 0) ++ List.replicate 3 .watch)

theorem quiescent_of_entries {s : Watching} (hcalls : s.calls.entries = [])
    (hstreams : s.streams.entries = []) (hticks : s.pendingTicks = 0)
    (hwatch : s.watch = .receiving) : Quiescent s := by
  refine ⟨AList.ext hcalls, ?_, hticks, Or.inl hwatch⟩
  intro client stream hstream
  have hmem := AList.mem_lookup_iff.mp hstream
  rw [hstreams] at hmem
  cases hmem

theorem watchWindow_agrees_split :
    ∃ s, run step (loaded oneSession (fun _ => ⟨true, 24, 80⟩) 4 2) watchASplit = some s ∧
      Quiescent s ∧ s.events.length = 2 ∧ Agrees s := by
  have hrun : ((run step (loaded oneSession (fun _ => ⟨true, 24, 80⟩) 4 2) watchASplit).any fun s =>
      decide (s.calls.entries = [] ∧ s.streams.entries = [] ∧ s.pendingTicks = 0 ∧
        s.watch = .receiving ∧ s.events.length = 2)) = true := by
    decide +kernel
  obtain ⟨s, hs, hend⟩ := (Option.any_eq_true _ _).mp hrun
  obtain ⟨hcalls, hstreams, hticks, hwatch, hevents⟩ := of_decide_eq_true hend
  have hquiet := quiescent_of_entries hcalls hstreams hticks hwatch
  have hharmless : Along step (fun s e => harmless s e = true)
      (loaded oneSession (fun _ => ⟨true, 24, 80⟩) 4 2) watchASplit := by
    decide +kernel
  exact ⟨s, hs, hquiet, hevents, watchWindow_agrees builtSessions_one _ _
    (hharmless.mono timely_of_harmless) hs hquiet⟩

/-- The session is killed while a client watches its window: nothing tells the task. -/
theorem killedSession_keeps_watch :
    BuiltSessions oneSession 4 ∧
    ∃ s, run step (loaded oneSession (fun _ => ⟨true, 24, 80⟩) 4 2)
        [.watchWindow, .watch, .watch, .killSession 0 1, .advance 0, .advance 0, .advance 0] =
          some s ∧
      Quiescent s ∧ ¬ Agrees s := by
  have hrun : ((run step (loaded oneSession (fun _ => ⟨true, 24, 80⟩) 4 2)
      [.watchWindow, .watch, .watch, .killSession 0 1, .advance 0, .advance 0, .advance 0]).any
        fun s => decide (s.calls.entries = [] ∧ s.streams.entries = [] ∧ s.pendingTicks = 0 ∧
          s.watch = .receiving ∧ s.windowSnapshot s.watched = none)) = true := by
    decide +kernel
  obtain ⟨s, hs, hend⟩ := (Option.any_eq_true _ _).mp hrun
  obtain ⟨hcalls, hstreams, hticks, hwatch, hsnapshot⟩ := of_decide_eq_true hend
  refine ⟨builtSessions_one, s, hs, quiescent_of_entries hcalls hstreams hticks hwatch, ?_⟩
  rintro (⟨layout, hlayout, -⟩ | ⟨-, hended⟩)
  · rw [hsnapshot] at hlayout
    cases hlayout
  · rw [hwatch] at hended
    cases hended

end Tymux.Analysis.WindowWatch
