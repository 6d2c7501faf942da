import Tymux.Analysis.ViewportRelease
import Tymux.Analysis.WindowTrees
import Tymux.Analysis.ViewportFloor

/-!
# What a watcher of a window knows

Whoever changes what a watcher is told of its window sends a tick afterwards, with two exceptions:
`kill_session` and the `close_pane` that closes the window. So as long as the window is there, the
last event is current, or a tick is on its way (`Due`): it waits in the channel, or a call that has
changed the window has yet to send it. When the window goes, the task learns it from such a tick or
not at all.
-/

set_option autoImplicit false

namespace Tymux.Analysis.WindowWatch

open Tymux.Model Tymux.Lib Watching ViewportRelease

/-! ## What the calls rely on -/

/-- No window other than `w` has the pane, now or later. -/
def OnlyIn (s : Watching) (p w : Uuid) : Prop :=
  p < s.nextPane ∧ ∀ v, Holds s.sessions p v → v = w

/-- No window has the pane, now or later. -/
def Removed (s : Watching) (p : Uuid) : Prop :=
  p < s.nextPane ∧ ∀ v, ¬ Holds s.sessions p v

/-- There is no such window. -/
def Gone (s : Watching) (w : Uuid) : Prop := ∀ sid, ¬ WindowIn s.sessions w sid

def CallOk (s : Watching) : LayoutCall → Prop
  | .splitInsertPane p w _ | .splitIndex p w _ | .closeLayout p w _ => OnlyIn s p w
  | .closeIndex p w closed | .closePanes p w closed => Removed s p ∧ (closed → Gone s w)
  | .killIndex ws ps => (∀ p ∈ ps, Removed s p) ∧ ∀ w ∈ ws, Gone s w
  | .killPanes ps => ∀ p ∈ ps, Removed s p
  | _ => True

def StageOk (s : Watching) (w : Uuid) : RecomputeStage → Prop
  | .sized rows cols => rows ≤ u16Max ∧ cols ≤ u16Max
  | .found sid rows cols =>
    (rows ≤ u16Max ∧ cols ≤ u16Max) ∧ ∀ sid', WindowIn s.sessions w sid' → sid' = sid
  | .placing rects | .applying rects => ∀ e ∈ rects, OnlyIn s e.1 w
  | .storedRows p _ rest => OnlyIn s p w ∧ ∀ e ∈ rest, OnlyIn s e.1 w
  | _ => True

def StreamOk (s : Watching) : AttachStream → Prop
  | .reporting w stage | .cleaning w stage => StageOk s w stage
  | _ => True

/-- The engine's maps: the layouts are sound, the index is right about the windows that are there,
and no lock is poisoned. -/
structure MapsOk (s : Watching) : Prop where
  layout : LayoutInv s.sessions
  built : ∀ sid st, s.sessions.lookup sid = some st → ∀ win ∈ st.windows, BuiltWindow win
  indexed : ∀ w sid, WindowIn s.sessions w sid → s.windowSession.lookup w = some sid
  placed : ∀ p w, s.paneWindow.lookup p = some w → OnlyIn s p w
  fresh : ∀ p w, Holds s.sessions p w → p < s.nextPane
  clamped : ∀ w clients, s.viewports.lookup w = some clients → ViewportsClamped clients
  sessionsClean : s.sessionsPoisoned = false
  panesClean : s.panesPoisoned = false
  resizeClean : s.resizePoisoned = []

structure EngineOk (s : Watching) : Prop where
  maps : MapsOk s
  calls : ∀ c call, s.calls.lookup c = some call → CallOk s call
  streams : ∀ client stream, s.streams.lookup client = some stream → StreamOk s stream

/-- Panes leave windows and windows leave sessions; what comes is a new pane. -/
structure Shrinks (s s' : Watching) : Prop where
  holds : ∀ p w, Holds s'.sessions p w → Holds s.sessions p w ∨ s.nextPane ≤ p
  windowIn : ∀ w sid, WindowIn s'.sessions w sid → WindowIn s.sessions w sid
  nextPane : s.nextPane ≤ s'.nextPane

theorem shrinks_of_sessions {s s' : Watching} (hsessions : s'.sessions = s.sessions)
    (hnext : s'.nextPane = s.nextPane) : Shrinks s s' where
  holds _ _ h := Or.inl (hsessions ▸ h)
  windowIn _ _ h := hsessions ▸ h
  nextPane := Nat.le_of_eq hnext.symm

section

variable {s s' : Watching}

theorem OnlyIn.mono {p w : Uuid} (h : OnlyIn s p w) (hs : Shrinks s s') : OnlyIn s' p w := by
  refine ⟨Nat.lt_of_lt_of_le h.1 hs.nextPane, fun v hv => ?_⟩
  obtain hold | hnew := hs.holds p v hv
  · exact h.2 v hold
  · exact absurd h.1 (Nat.not_lt.mpr hnew)

theorem Removed.mono {p : Uuid} (h : Removed s p) (hs : Shrinks s s') : Removed s' p := by
  refine ⟨Nat.lt_of_lt_of_le h.1 hs.nextPane, fun v hv => ?_⟩
  obtain hold | hnew := hs.holds p v hv
  · exact h.2 v hold
  · exact absurd h.1 (Nat.not_lt.mpr hnew)

theorem Gone.mono {w : Uuid} (h : Gone s w) (hs : Shrinks s s') : Gone s' w :=
  fun sid hsid => h sid (hs.windowIn w sid hsid)

theorem CallOk.mono {call : LayoutCall} (h : CallOk s call) (hs : Shrinks s s') :
    CallOk s' call := by
  cases call with
  | splitInsertPane p w sid => exact OnlyIn.mono h hs
  | splitIndex p w sid => exact OnlyIn.mono h hs
  | closeLayout p w sid => exact OnlyIn.mono h hs
  | closeIndex p w closed => exact ⟨h.1.mono hs, fun hclosed => (h.2 hclosed).mono hs⟩
  | closePanes p w closed => exact ⟨h.1.mono hs, fun hclosed => (h.2 hclosed).mono hs⟩
  | killIndex ws ps => exact ⟨fun p hp => (h.1 p hp).mono hs, fun w hw => (h.2 w hw).mono hs⟩
  | killPanes ps => exact fun p hp => (h p hp).mono hs
  | _ => trivial

theorem StageOk.mono {w : Uuid} {stage : RecomputeStage} (h : StageOk s w stage)
    (hs : Shrinks s s') : StageOk s' w stage := by
  cases stage with
  | sized rows cols => exact h
  | found sid rows cols => exact ⟨h.1, fun sid' hsid' => h.2 sid' (hs.windowIn w sid' hsid')⟩
  | placing rects => exact fun e he => (h e he).mono hs
  | applying rest => exact fun e he => (h e he).mono hs
  | storedRows p cols rest => exact ⟨h.1.mono hs, fun e he => (h.2 e he).mono hs⟩
  | _ => trivial

theorem StreamOk.mono {stream : AttachStream} (h : StreamOk s stream) (hs : Shrinks s s') :
    StreamOk s' stream := by
  cases stream with
  | reporting w stage => exact StageOk.mono h hs
  | cleaning w stage => exact StageOk.mono h hs
  | _ => trivial

/-- INTERNAL: a call has changed the maps, and goes on or returns. -/
theorem EngineOk.call (h : EngineOk s) (hs : Shrinks s s') (hmaps : MapsOk s')
    (hstreams : s'.streams = s.streams) {c : ℕ} (next : Option LayoutCall)
    (hcalls : s'.calls = updateCall s.calls c next) (hnext : ∀ call, next = some call → CallOk s' call) :
    EngineOk s' where
  maps := hmaps
  calls := by
    rw [hcalls]
    apply forall_updateCall (P := fun _ call => CallOk s' call)
    · intro c' call _ hcall
      exact (h.calls c' call hcall).mono hs
    · exact hnext
  streams client stream hstream := by
    rw [hstreams] at hstream
    exact (h.streams client stream hstream).mono hs

/-- INTERNAL: a stream has changed the maps, and goes on. -/
theorem EngineOk.stream (h : EngineOk s) (hs : Shrinks s s') (hmaps : MapsOk s')
    (hcalls : s'.calls = s.calls) {client : ℕ} {stream : AttachStream}
    (hstreams : s'.streams = s.streams.insert client stream) (hstream : StreamOk s' stream) :
    EngineOk s' where
  maps := hmaps
  calls c call hcall := by
    rw [hcalls] at hcall
    exact (h.calls c call hcall).mono hs
  streams client' stream' hlookup := by
    rw [hstreams] at hlookup
    obtain ⟨-, rfl⟩ | hold := lookup_of_insert hlookup
    · exact hstream
    · exact (h.streams client' stream' hold).mono hs

/-- The maps after an update of what is neither a session nor an index. -/
theorem MapsOk.congr (h : MapsOk s) (hsessions : s'.sessions = s.sessions)
    (hwindow : s'.windowSession = s.windowSession) (hpane : s'.paneWindow = s.paneWindow)
    (hnext : s'.nextPane = s.nextPane)
    (hclamped : ∀ w clients, s'.viewports.lookup w = some clients → ViewportsClamped clients)
    (hsclean : s'.sessionsPoisoned = false) (hpclean : s'.panesPoisoned = false)
    (hrclean : s'.resizePoisoned = []) : MapsOk s' where
  layout := hsessions ▸ h.layout
  built := hsessions ▸ h.built
  indexed := by
    rw [hsessions, hwindow]
    exact h.indexed
  placed p w hp := by
    rw [hpane] at hp
    exact (h.placed p w hp).mono (shrinks_of_sessions hsessions hnext)
  fresh := by
    rw [hsessions, hnext]
    exact h.fresh
  clamped := hclamped
  sessionsClean := hsclean
  panesClean := hpclean
  resizeClean := hrclean

end

/-! ## What is on its way to the watcher -/

/-- The window whose watchers a call will notify, whatever happens. -/
def commits : LayoutCall → Option Uuid
  | .splitInsertPane _ w _ | .splitIndex _ w _ | .splitSnapshot w _ | .splitNotify w => some w
  | .closeIndex _ w closed | .closePanes _ w closed => if closed then none else some w
  | _ => none

/-- The recomputation has found the window. -/
def Placing : RecomputeStage → Prop
  | .placing _ | .applying _ | .storedRows _ _ _ | .notifying => True
  | _ => False

/-- The stream is in a recomputation of the window, at a stage in `P`. -/
def Recomputes (w : Uuid) (P : RecomputeStage → Prop) : AttachStream → Prop
  | .reporting w' stage | .cleaning w' stage => w' = w ∧ P stage
  | _ => False

/-- A call or a stream will notify the watchers of the window. -/
def Committed (s : Watching) : Prop :=
  (∃ c call, s.calls.lookup c = some call ∧ commits call = some s.watched) ∨
    ∃ client stream, s.streams.lookup client = some stream ∧ Recomputes s.watched Placing stream

/-- A stream will notify them if it finds the window. -/
def Intended (s : Watching) : Prop :=
  ∃ client stream, s.streams.lookup client = some stream ∧
    Recomputes s.watched (fun _ => True) stream

/-- A tick waits in the channel, or will be sent. -/
def Announced (s : Watching) : Prop := 0 < s.pendingTicks ∨ Committed s

def tree (s : Watching) : Option LayoutNode := treeOf s.sessions s.watched

/-- The task will be told of something new. -/
def Due (s : Watching) : Prop := Announced s ∨ (tree s).isSome ∧ Intended s

/-- What a watcher is told of its window is as it was. -/
def Unchanged (s s' : Watching) : Prop :=
  s'.windowSnapshot s.watched = s.windowSnapshot s.watched ∧
    s'.attachedClientCount s.watched = s.attachedClientCount s.watched

theorem windowSnapshot_eq (s : Watching) (w : Uuid) :
    s.windowSnapshot w = (treeOf s.sessions w).map s.layoutToSnapshot := by
  unfold windowSnapshot findWindow treeOf
  rw [Option.map_map]
  rfl

/-- What a step of a call or a stream comes to for the task. -/
structure Effect (s s' : Watching) : Prop where
  watched : s'.watched = s.watched
  watch : s'.watch = s.watch
  events : s'.events = s.events
  gone : tree s = none → tree s' = none
  announced : s.subscribed = true → Announced s → Announced s'
  intended : s.subscribed = true → (tree s').isSome → Intended s → Announced s' ∨ Intended s'
  changed : s.subscribed = true → (tree s').isSome → Unchanged s s' ∨ Announced s' ∨ Intended s'

section

variable {s s' : Watching}

theorem unchanged_of (htree : treeOf s'.sessions s.watched = treeOf s.sessions s.watched)
    (hpanes : ∀ t, treeOf s.sessions s.watched = some t → ∀ p ∈ t.leaves,
      s'.panes.lookup p = s.panes.lookup p)
    (hviewports : s'.viewports.lookup s.watched = s.viewports.lookup s.watched) :
    Unchanged s s' := by
  constructor
  · rw [windowSnapshot_eq, windowSnapshot_eq, htree]
    cases htreeOf : treeOf s.sessions s.watched with
    | none => rfl
    | some t =>
        simp only [Option.map_some, Option.some_inj, layoutToSnapshot, LayoutSnapshot.mk.injEq,
          true_and]
        apply List.map_congr_left
        intro p hp
        rw [hpanes t htreeOf p hp]
  · unfold attachedClientCount
    rw [hviewports]

theorem unchanged_of_eq (hsessions : s'.sessions = s.sessions) (hpanes : s'.panes = s.panes)
    (hviewports : s'.viewports = s.viewports) : Unchanged s s' :=
  unchanged_of (by rw [hsessions]) (fun _ _ _ _ => by rw [hpanes]) (by rw [hviewports])

theorem holds_of_tree {w : Uuid} {t : LayoutNode} (h : treeOf s.sessions w = some t) {p : Uuid}
    (hp : p ∈ t.leaves) : Holds s.sessions p w := by
  obtain ⟨sid, st, win, hst, hwin, hid, rfl⟩ := exists_of_treeOf h
  exact ⟨sid, st, hst, win, hwin, hid, hp⟩

/-- INTERNAL: a call takes a step that keeps its word: it goes on with what it owes the watchers,
or it has notified them. -/
theorem effect_call {c : ℕ} {call : LayoutCall} {next : Option LayoutCall}
    (hcall : s.calls.lookup c = some call) (hcalls : s'.calls = updateCall s.calls c next)
    (hstreams : s'.streams = s.streams) (hwatched : s'.watched = s.watched)
    (hwatch : s'.watch = s.watch) (hevents : s'.events = s.events)
    (hticks : s.pendingTicks ≤ s'.pendingTicks) (hgone : tree s = none → tree s' = none)
    (hcommits : s.subscribed = true → commits call = some s.watched →
      (∃ call', next = some call' ∧ commits call' = some s.watched) ∨ 0 < s'.pendingTicks)
    (hchanged : (tree s').isSome → Unchanged s s' ∨
      ∃ call', next = some call' ∧ commits call' = some s.watched) : Effect s s' := by
  have hcommitted : ∀ call', next = some call' → commits call' = some s.watched → Announced s' := by
    rintro call' rfl hcall'
    refine Or.inr (Or.inl ⟨c, call', ?_, ?_⟩)
    · rw [hcalls, lookup_updateCall_self]
    · rw [hwatched]
      exact hcall'
  refine ⟨hwatched, hwatch, hevents, hgone, ?_, ?_, ?_⟩
  · intro hsub hannounced
    obtain hpending | ⟨c', call', hcall', hcommit⟩ | ⟨client, stream, hstream, hplacing⟩ := hannounced
    · exact Or.inl (Nat.lt_of_lt_of_le hpending hticks)
    · by_cases hc : c' = c
      · subst hc
        rw [hcall, Option.some_inj] at hcall'
        subst hcall'
        obtain ⟨call'', hnext, hcommit''⟩ | hpending := hcommits hsub hcommit
        · exact hcommitted call'' hnext hcommit''
        · exact Or.inl hpending
      · refine Or.inr (Or.inl ⟨c', call', ?_, ?_⟩)
        · rw [hcalls, lookup_updateCall_of_ne hc, hcall']
        · rw [hwatched]
          exact hcommit
    · refine Or.inr (Or.inr ⟨client, stream, ?_, ?_⟩)
      · rw [hstreams, hstream]
      · rw [hwatched]
        exact hplacing
  · intro _ _ hintended
    right
    unfold Intended
    rw [hstreams, hwatched]
    exact hintended
  · intro _ hexists
    obtain hsame | ⟨call', hnext, hcommit⟩ := hchanged hexists
    · exact Or.inl hsame
    · exact Or.inr (Or.inl (hcommitted call' hnext hcommit))

/-- INTERNAL: a stream takes a step. A recomputation of the watched window either goes on, where it
does not forget that it has found the window, or it has notified, or it has not found it. -/
theorem effect_stream {client : ℕ} {stream stream' : AttachStream}
    (hstream : s.streams.lookup client = some stream)
    (hstreams : s'.streams = s.streams.insert client stream') (hcalls : s'.calls = s.calls)
    (hwatched : s'.watched = s.watched) (hwatch : s'.watch = s.watch)
    (hevents : s'.events = s.events) (hticks : s.pendingTicks ≤ s'.pendingTicks)
    (hgone : tree s = none → tree s' = none)
    (hplacing : s.subscribed = true → Recomputes s.watched Placing stream →
      Recomputes s.watched Placing stream' ∨ 0 < s'.pendingTicks)
    (hrecomputes : s.subscribed = true → (tree s').isSome →
      Recomputes s.watched (fun _ => True) stream →
        Recomputes s.watched (fun _ => True) stream' ∨ 0 < s'.pendingTicks)
    (hchanged : (tree s').isSome → Unchanged s s' ∨
      Recomputes s.watched (fun _ => True) stream') : Effect s s' := by
  have hself : s'.streams.lookup client = some stream' := by
    rw [hstreams, AList.lookup_insert]
  refine ⟨hwatched, hwatch, hevents, hgone, ?_, ?_, ?_⟩
  · intro hsub hannounced
    obtain hpending | ⟨c, call, hcall, hcommit⟩ | ⟨client', st, hst, hrec⟩ := hannounced
    · exact Or.inl (Nat.lt_of_lt_of_le hpending hticks)
    · refine Or.inr (Or.inl ⟨c, call, ?_, ?_⟩)
      · rw [hcalls, hcall]
      · rw [hwatched]
        exact hcommit
    · by_cases hclient : client' = client
      · subst hclient
        rw [hstream, Option.some_inj] at hst
        subst hst
        obtain hrec' | hpending := hplacing hsub hrec
        · refine Or.inr (Or.inr ⟨client', stream', hself, ?_⟩)
          rw [hwatched]
          exact hrec'
        · exact Or.inl hpending
      · refine Or.inr (Or.inr ⟨client', st, ?_, ?_⟩)
        · rw [hstreams, AList.lookup_insert_ne hclient, hst]
        · rw [hwatched]
          exact hrec
  · rintro hsub hexists ⟨client', st, hst, hrec⟩
    by_cases hclient : client' = client
    · subst hclient
      rw [hstream, Option.some_inj] at hst
      subst hst
      obtain hrec' | hpending := hrecomputes hsub hexists hrec
      · refine Or.inr ⟨client', stream', hself, ?_⟩
        rw [hwatched]
        exact hrec'
      · exact Or.inl (Or.inl hpending)
    · refine Or.inr ⟨client', st, ?_, ?_⟩
      · rw [hstreams, AList.lookup_insert_ne hclient, hst]
      · rw [hwatched]
        exact hrec
  · intro _ hexists
    obtain hsame | hrec := hchanged hexists
    · exact Or.inl hsame
    · refine Or.inr (Or.inr ⟨client, stream', hself, ?_⟩)
      rw [hwatched]
      exact hrec

end

/-! ## The calls -/

/-- The maps are as they were. -/
structure SameMaps (s s' : Watching) : Prop where
  sessions : s'.sessions = s.sessions
  windowSession : s'.windowSession = s.windowSession
  paneWindow : s'.paneWindow = s.paneWindow
  nextPane : s'.nextPane = s.nextPane
  viewports : s'.viewports = s.viewports
  sessionsPoisoned : s'.sessionsPoisoned = s.sessionsPoisoned
  panesPoisoned : s'.panesPoisoned = s.panesPoisoned
  resizePoisoned : s'.resizePoisoned = s.resizePoisoned

/-- A step of a call: the streams and the task are as they were, with a tick more perhaps. -/
structure CallFrame (s s' : Watching) (c : ℕ) (next : Option LayoutCall) : Prop where
  calls : s'.calls = updateCall s.calls c next
  streams : s'.streams = s.streams
  viewports : s'.viewports = s.viewports
  watched : s'.watched = s.watched
  watch : s'.watch = s.watch
  events : s'.events = s.events
  pendingTicks : s.pendingTicks ≤ s'.pendingTicks

/-- What the proofs about the steps come to. A step takes the window away only if `taken`. -/
structure Keeps (taken : Prop) (s s' : Watching) : Prop where
  ok : EngineOk s'
  effect : Effect s s'
  taken : (tree s).isSome → tree s' = none → taken

/-- The call is about to take the watched window away: its session is killed, or its last pane is
closed. -/
def TakesWindow (s : Watching) : LayoutCall → Prop
  | .killLayout session => WindowIn s.sessions s.watched session
  | .closeLayout pane window _ => window = s.watched ∧ tree s = some (.leaf pane)
  | _ => False

section

variable {s s' : Watching} {c : ℕ} {call : LayoutCall} {taken : Prop}

theorem MapsOk.same (h : MapsOk s) (hsame : SameMaps s s') : MapsOk s' := by
  apply h.congr hsame.sessions hsame.windowSession hsame.paneWindow hsame.nextPane
  · rw [hsame.viewports]
    exact h.clamped
  · rw [hsame.sessionsPoisoned, h.sessionsClean]
  · rw [hsame.panesPoisoned, h.panesClean]
  · rw [hsame.resizePoisoned, h.resizeClean]

theorem tree_gone (hs : Shrinks s s') (hwatched : s'.watched = s.watched) (h : tree s = none) :
    tree s' = none := by
  unfold tree at h ⊢
  rw [hwatched, treeOf_eq_none_iff]
  rw [treeOf_eq_none_iff] at h
  exact fun sid hsid => h sid (hs.windowIn _ sid hsid)

theorem not_taken (hsessions : s'.sessions = s.sessions) (hwatched : s'.watched = s.watched)
    (hexists : (tree s).isSome) (hnone : tree s' = none) : taken := by
  unfold tree at hexists hnone
  rw [hsessions, hwatched] at hnone
  rw [hnone] at hexists
  cases hexists

theorem keeps_call (next : Option LayoutCall) (h : EngineOk s) (hcall : s.calls.lookup c = some call)
    (hframe : CallFrame s s' c next) (hs : Shrinks s s') (hmaps : MapsOk s')
    (hnext : ∀ call', next = some call' → CallOk s' call')
    (hcommits : s.subscribed = true → commits call = some s.watched →
      (∃ call', next = some call' ∧ commits call' = some s.watched) ∨ 0 < s'.pendingTicks)
    (hchanged : (tree s').isSome → Unchanged s s' ∨
      ∃ call', next = some call' ∧ commits call' = some s.watched)
    (htaken : (tree s).isSome → tree s' = none → taken) : Keeps taken s s' :=
  ⟨h.call hs hmaps hframe.streams next hframe.calls hnext,
    effect_call hcall hframe.calls hframe.streams hframe.watched hframe.watch hframe.events
      hframe.pendingTicks (tree_gone hs hframe.watched) hcommits hchanged, htaken⟩

/-- INTERNAL: a step that leaves the maps and the panes alone. -/
theorem keeps_quiet (next : Option LayoutCall) (h : EngineOk s) (hcall : s.calls.lookup c = some call)
    (hframe : CallFrame s s' c next) (hsame : SameMaps s s') (hpanes : s'.panes = s.panes)
    (hnext : ∀ call', next = some call' → CallOk s' call')
    (hcommits : s.subscribed = true → commits call = some s.watched →
      (∃ call', next = some call' ∧ commits call' = some s.watched) ∨ 0 < s'.pendingTicks) :
    Keeps taken s s' :=
  keeps_call next h hcall hframe (shrinks_of_sessions hsame.sessions hsame.nextPane) (h.maps.same hsame)
    hnext hcommits (fun _ => Or.inl (unchanged_of_eq hsame.sessions hpanes hsame.viewports))
    (not_taken hsame.sessions hframe.watched)

/-- INTERNAL: a call that owes the watchers nothing returns. -/
theorem keeps_finish (h : EngineOk s) (hcall : s.calls.lookup c = some call)
    (hcommits : commits call = none) : Keeps taken s (s.finish c) := by
  refine keeps_quiet none h hcall ⟨rfl, rfl, rfl, rfl, rfl, rfl, Nat.le_refl _⟩
    ⟨rfl, rfl, rfl, rfl, rfl, rfl, rfl, rfl⟩ rfl (fun _ hnone => nomatch hnone) ?_
  intro _ hcommit
  rw [hcommits] at hcommit
  cases hcommit

/-- INTERNAL: a call goes on with what it owes. -/
theorem keeps_goto (h : EngineOk s) (hcall : s.calls.lookup c = some call) {call' : LayoutCall}
    (hok : CallOk s call') (hcommits : ∀ w, commits call = some w → commits call' = some w) :
    Keeps taken s (s.goto c call') := by
  refine keeps_quiet (some call') h hcall ⟨rfl, rfl, rfl, rfl, rfl, rfl, Nat.le_refl _⟩
    ⟨rfl, rfl, rfl, rfl, rfl, rfl, rfl, rfl⟩ rfl ?_ fun _ hcommit =>
      Or.inl ⟨call', rfl, hcommits _ hcommit⟩
  intro call'' heq
  cases heq
  exact hok.mono (shrinks_of_sessions rfl rfl)

theorem notify_pending {w : Uuid} (hsub : s.subscribed = true) (hw : w = s.watched) :
    0 < (s.notifyWindowChanged w).pendingTicks := by
  unfold notifyWindowChanged
  rw [if_pos ⟨hw, hsub⟩]
  exact Nat.succ_pos _

theorem windowIn_insert {sessions : Sessions} {sid : Uuid} {st st' : SessionState}
    (hst : sessions.lookup sid = some st)
    (hids : ∀ w ∈ st'.windows.map SessionWindow.id, w ∈ st.windows.map SessionWindow.id) {w v : Uuid}
    (h : WindowIn (sessions.insert sid st') w v) : WindowIn sessions w v := by
  obtain ⟨st'', hst'', hmem⟩ := h
  obtain ⟨rfl, rfl⟩ | hold := lookup_of_insert hst''
  · exact ⟨st, hst, hids w hmem⟩
  · exact ⟨st'', hold, hmem⟩

theorem built_insert {sessions : Sessions} {sid : Uuid} {st' : SessionState}
    (h : ∀ sid st, sessions.lookup sid = some st → ∀ win ∈ st.windows, BuiltWindow win)
    (hst' : ∀ win ∈ st'.windows, BuiltWindow win) :
    ∀ sid' st, (sessions.insert sid st').lookup sid' = some st → ∀ win ∈ st.windows,
      BuiltWindow win := by
  intro sid' st hlookup
  obtain ⟨-, rfl⟩ | hold := lookup_of_insert hlookup
  · exact hst'
  · exact h sid' st hold

theorem keeps_splitLayout (h : EngineOk s) {target window session : Uuid} {o : Orientation}
    (hcall : s.calls.lookup c = some (.splitLayout target o window session))
    (hstep : s.advanceCall c (.splitLayout target o window session) = some s') : Keeps taken s s' := by
  obtain ⟨hpoisoned, -⟩ | ⟨-, hstep⟩ := withSessions_cases hstep
  · rw [h.maps.sessionsClean] at hpoisoned
    cases hpoisoned
  · cases hst : s.sessions.lookup session with
    | none =>
        rw [hst] at hstep
        cases hstep
        exact keeps_finish h hcall rfl
    | some st =>
        rw [hst] at hstep
        have hbuilt := h.maps.built session st hst
        obtain ⟨r, hr⟩ : ∃ r, EngineState.splitWindow target o s.nextPane window st.windows = some r :=
          splitWindow_built hbuilt
        dsimp only at hstep
        rw [hr] at hstep
        cases r with
        | none =>
            cases hstep
            exact keeps_finish h hcall rfl
        | some windows =>
            cases hstep
            have hnew : ∀ v, ¬ Holds s.sessions s.nextPane v := fun v hv =>
              absurd (h.maps.fresh _ v hv) (Nat.lt_irrefl _)
            obtain ⟨hlayout, hholds⟩ := layout_splitPane h.maps.layout hst hr hnew st.activeWindowId
            have hids := (splitWindow_spec st.windows hr (fun win hwin => (hbuilt win hwin).nodup)
              fun v hv => hnew v ⟨session, st, hst, hv⟩).1
            have hwindowIn : ∀ w sid, WindowIn (s.sessions.insert session ⟨windows, st.activeWindowId⟩)
                w sid → WindowIn s.sessions w sid := fun w sid hw =>
              windowIn_insert hst (fun v hv => hids ▸ hv) hw
            have hshrinks : Shrinks s { s with
                sessions := s.sessions.insert session ⟨windows, st.activeWindowId⟩
                nextPane := s.nextPane + 1 } := by
              refine ⟨fun p w hp => ?_, hwindowIn, Nat.le_succ _⟩
              obtain hold | ⟨rfl, -⟩ := (hholds p w).mp hp
              · exact Or.inl hold
              · exact Or.inr (Nat.le_refl _)
            refine keeps_call (some (.splitInsertPane s.nextPane window session)) h hcall
              ⟨rfl, rfl, rfl, rfl, rfl, rfl, Nat.le_refl _⟩
              ⟨hshrinks.holds, hshrinks.windowIn, hshrinks.nextPane⟩ ?_ ?_ ?_ ?_ ?_
            · exact {
                layout := hlayout
                built := built_insert h.maps.built
                  (built_split hr hbuilt fun v hv => hnew v ⟨session, st, hst, hv⟩)
                indexed := fun w sid hw => h.maps.indexed w sid (hwindowIn w sid hw)
                placed := fun p w hp => (h.maps.placed p w hp).mono
                  ⟨hshrinks.holds, hshrinks.windowIn, hshrinks.nextPane⟩
                fresh := by
                  intro p w hp
                  obtain hold | ⟨rfl, -⟩ := (hholds p w).mp hp
                  · exact Nat.lt_succ_of_lt (h.maps.fresh p w hold)
                  · exact Nat.lt_succ_self _
                clamped := h.maps.clamped
                sessionsClean := h.maps.sessionsClean
                panesClean := h.maps.panesClean
                resizeClean := h.maps.resizeClean }
            · intro call' heq
              cases heq
              refine ⟨Nat.lt_succ_self _, fun v hv => ?_⟩
              obtain hold | ⟨-, rfl⟩ := (hholds _ v).mp hv
              · exact absurd hold (hnew v)
              · rfl
            · intro _ hcommit
              cases hcommit
            · intro _
              by_cases hwatched : window = s.watched
              · exact Or.inr ⟨_, rfl, congrArg some hwatched⟩
              · left
                apply unchanged_of
                · exact treeOf_insert h.maps.layout hlayout hst
                    (treeIn_split hr fun heq => hwatched heq.symm)
                · exact fun _ _ _ _ => rfl
                · rfl
            · intro hexists hnone
              -- every window of before has its id among those of now
              obtain ⟨sid, st₀, hst₀, hmem⟩ := treeOf_isSome_iff.mp hexists
              refine absurd ?_ (treeOf_eq_none_iff.mp hnone sid)
              by_cases heq : sid = session
              · subst heq
                rw [hst, Option.some_inj] at hst₀
                subst hst₀
                exact ⟨_, AList.lookup_insert _, hids ▸ hmem⟩
              · exact ⟨st₀, (AList.lookup_insert_ne heq).trans hst₀, hmem⟩

/-- INTERNAL: a close takes its pane out of its window, and the window with it if it was the last.
SRC: engine.rs:742-803 -/
theorem keeps_closeLayout (h : EngineOk s) {pane window session : Uuid}
    (hcall : s.calls.lookup c = some (.closeLayout pane window session))
    (hstep : s.advanceCall c (.closeLayout pane window session) = some s') : Keeps (window = s.watched ∧ tree s = some (.leaf pane)) s s' := by
  obtain ⟨hpoisoned, -⟩ | ⟨-, hstep⟩ := withSessions_cases hstep
  · rw [h.maps.sessionsClean] at hpoisoned
    cases hpoisoned
  · cases hst : s.sessions.lookup session with
    | none =>
        rw [hst] at hstep
        cases hstep
        exact keeps_finish h hcall rfl
    | some st =>
        rw [hst] at hstep
        dsimp only at hstep
        cases hclose : EngineState.closeWindow pane window st.windows with
        | none =>
            rw [hclose] at hstep
            cases hstep
            exact keeps_finish h hcall rfl
        | some r =>
            obtain ⟨ws, closed⟩ := r
            rw [hclose] at hstep
            have hok : OnlyIn s pane window := h.calls c _ hcall
            have hbuilt := h.maps.built session st hst
            have hids := h.maps.layout.ids session st hst
            obtain ⟨hothers, hclosed, hself⟩ := treeIn_close hclose hids
            have hsub := (closeWindow_spec st.windows hclose hids fun win hwin =>
              (hbuilt win hwin).nodup).1
            have hin : WindowIn s.sessions window session := by
              refine ⟨st, hst, ?_⟩
              by_contra hno
              rw [treeIn_eq_none_iff.mpr hno] at hself
              cases hself
            -- whatever becomes of the session, its windows are `ws`
            have hmain : ∀ sessions : Sessions,
                (∀ p v, Holds sessions p v ↔ Holds s.sessions p v ∧ p ≠ pane) →
                LayoutInv sessions →
                (∀ w sid, WindowIn sessions w sid → WindowIn s.sessions w sid) →
                (∀ sid, WindowIn sessions window sid → closed.isSome → False) →
                (∀ sid st, sessions.lookup sid = some st → ∀ win ∈ st.windows, BuiltWindow win) →
                (s.watched ≠ window → treeOf sessions s.watched = treeOf s.sessions s.watched) →
                (closed = none → s.watched = window → treeOf sessions s.watched ≠ none) →
                Keeps (window = s.watched ∧ tree s = some (.leaf pane)) s (Watching.goto { s with sessions } c
                  (.closeIndex pane window closed.isSome)) := by
              intro sessions hholds hlayout hwindowIn hgone hbuilt' htree hstays
              have hshrinks : Shrinks s (Watching.goto { s with sessions } c
                  (.closeIndex pane window closed.isSome)) :=
                ⟨fun p w hp => Or.inl ((hholds p w).mp hp).1, hwindowIn, Nat.le_refl _⟩
              refine keeps_call (some (.closeIndex pane window closed.isSome)) h hcall
                ⟨rfl, rfl, rfl, rfl, rfl, rfl, Nat.le_refl _⟩ hshrinks ?_ ?_ ?_ ?_ ?_
              · exact {
                  layout := hlayout
                  built := hbuilt'
                  indexed := fun w sid hw => h.maps.indexed w sid (hwindowIn w sid hw)
                  placed := fun p w hp => (h.maps.placed p w hp).mono hshrinks
                  fresh := fun p w hp => h.maps.fresh p w ((hholds p w).mp hp).1
                  clamped := h.maps.clamped
                  sessionsClean := h.maps.sessionsClean
                  panesClean := h.maps.panesClean
                  resizeClean := h.maps.resizeClean }
              · intro call' heq
                cases heq
                exact ⟨⟨hok.1, fun v hv => ((hholds pane v).mp hv).2 rfl⟩,
                  fun hsome sid hsid => hgone sid hsid hsome⟩
              · intro _ hcommit
                cases hcommit
              · intro hexists
                by_cases hwatched : s.watched = window
                · right
                  refine ⟨_, rfl, ?_⟩
                  have hopen : ¬ closed.isSome := by
                    intro hsome
                    obtain ⟨sid, hsid⟩ := treeOf_isSome_iff.mp hexists
                    exact hgone sid (hwatched ▸ hsid) hsome
                  simp [commits, hopen, hwatched]
                · left
                  exact unchanged_of (htree hwatched) (fun _ _ _ _ => rfl) rfl
              · intro hexists hnone
                have hwatched : s.watched = window := by
                  by_contra hne
                  have hsame : tree s = none := (htree hne).symm.trans hnone
                  rw [hsame] at hexists
                  cases hexists
                refine ⟨hwatched.symm, ?_⟩
                cases closed with
                | some w =>
                    have hv : window ∈ st.windows.map SessionWindow.id := by
                      by_contra hno
                      rw [treeIn_eq_none_iff.mpr hno] at hself
                      cases hself
                    unfold tree
                    rw [hwatched, treeOf_eq_treeIn h.maps.layout hst hv]
                    exact treeIn_closed hclose hbuilt
                | none => exact absurd hnone (hstays rfl hwatched)
            obtain ⟨hlayout, hholds⟩ := layout_closePane h.maps.layout hst hclose hok.2 st.activeWindowId
            have hwindowIn : ∀ {active : Uuid} w sid,
                WindowIn (s.sessions.insert session ⟨ws, active⟩) w sid → WindowIn s.sessions w sid :=
              fun w sid hw => windowIn_insert hst (fun v hv => hsub.subset hv) hw
            have hgone : ∀ {active : Uuid} sid,
                WindowIn (s.sessions.insert session ⟨ws, active⟩) window sid → closed.isSome → False := by
              rintro active sid hsid hsome
              obtain rfl := h.maps.layout.sessionOf window sid session (hwindowIn window sid hsid) hin
              obtain ⟨st', hst', hmem⟩ := hsid
              rw [AList.lookup_insert, Option.some_inj] at hst'
              subst hst'
              exact treeIn_eq_none_iff.mp (hclosed.mp hsome) hmem
            cases ws with
            | nil =>
                cases hstep
                have hnil : ∀ p v, ¬ WindowsHold [] p v := fun p v ⟨win, hwin, _⟩ => nomatch hwin
                apply hmain
                · intro p v
                  rw [← hholds, holds_erase, holds_insert]
                  exact (or_iff_right (hnil p v)).symm
                · exact h.maps.layout.erase session
                · exact fun w sid hw => (windowIn_erase hw).2
                · intro sid hsid _
                  obtain ⟨hne, hold⟩ := windowIn_erase hsid
                  exact hne (h.maps.layout.sessionOf window sid session hold hin)
                · exact fun sid st hlookup => h.maps.built sid st (lookup_of_erase hlookup).2
                · intro hne
                  apply treeOf_erase h.maps.layout hst
                  rw [← treeIn_eq_none_iff, ← hothers s.watched hne]
                  rfl
                · rintro rfl
                  cases hclosed.mpr rfl
            | cons w ws =>
                dsimp only at hstep
                rw [if_neg (by rw [h.maps.panesClean]; exact Bool.false_ne_true)] at hstep
                cases hstep
                apply hmain
                · exact (layout_closePane h.maps.layout hst hclose hok.2 _).2
                · exact (layout_closePane h.maps.layout hst hclose hok.2 _).1
                · exact hwindowIn
                · exact hgone
                · exact built_insert h.maps.built (built_close hclose hbuilt)
                · intro hne
                  exact treeOf_insert h.maps.layout
                    (layout_closePane h.maps.layout hst hclose hok.2 _).1 hst (hothers s.watched hne)
                · rintro rfl rfl hnone
                  refine treeOf_eq_none_iff.mp hnone session ⟨_, AList.lookup_insert _, ?_⟩
                  by_contra hno
                  cases hclosed.mpr (treeIn_eq_none_iff.mpr hno)

theorem keeps_splitLookup (h : EngineOk s) {target : Uuid} {o : Orientation}
    (hcall : s.calls.lookup c = some (.splitLookup target o))
    (hstep : s.advanceCall c (.splitLookup target o) = some s') : Keeps taken s s' := by
  simp only [advanceCall] at hstep
  split at hstep
  · cases hstep
    exact keeps_finish h hcall rfl
  · cases hstep
    exact keeps_goto h hcall trivial fun w hw => by cases hw

/-- INTERNAL: the new pane enters the map, where the layout has it already. -/
theorem keeps_splitInsertPane (h : EngineOk s) {pane window session : Uuid}
    (hcall : s.calls.lookup c = some (.splitInsertPane pane window session))
    (hstep : s.advanceCall c (.splitInsertPane pane window session) = some s') : Keeps taken s s' := by
  have hok : OnlyIn s pane window := h.calls c _ hcall
  simp only [advanceCall] at hstep
  rw [if_neg (by rw [h.maps.panesClean]; exact Bool.false_ne_true)] at hstep
  cases hstep
  refine keeps_call (some (.splitIndex pane window session)) h hcall
    ⟨rfl, rfl, rfl, rfl, rfl, rfl, Nat.le_refl _⟩ (shrinks_of_sessions rfl rfl)
    (h.maps.same ⟨rfl, rfl, rfl, rfl, rfl, rfl, rfl, rfl⟩) ?_ ?_ ?_ (not_taken rfl rfl)
  · intro call' heq
    cases heq
    exact hok
  · exact fun _ hcommit => Or.inl ⟨_, rfl, hcommit⟩
  · intro _
    by_cases hwatched : window = s.watched
    · exact Or.inr ⟨_, rfl, congrArg some hwatched⟩
    · left
      refine unchanged_of rfl (fun t ht p hp => ?_) rfl
      apply AList.lookup_insert_ne
      rintro rfl
      exact hwatched (hok.2 _ (holds_of_tree ht hp)).symm

theorem keeps_splitIndex (h : EngineOk s) {pane window session : Uuid}
    (hcall : s.calls.lookup c = some (.splitIndex pane window session))
    (hstep : s.advanceCall c (.splitIndex pane window session) = some s') : Keeps taken s s' := by
  have hok : OnlyIn s pane window := h.calls c _ hcall
  cases hstep
  refine keeps_call (some (.splitSnapshot window session)) h hcall
    ⟨rfl, rfl, rfl, rfl, rfl, rfl, Nat.le_refl _⟩ (shrinks_of_sessions rfl rfl) ?_ ?_ ?_ ?_
    (not_taken rfl rfl)
  · have hplaced : ∀ p w, (s.paneWindow.insert pane window).lookup p = some w → OnlyIn s p w := by
      intro p w hp
      obtain ⟨rfl, rfl⟩ | hold := lookup_of_insert hp
      · exact hok
      · exact h.maps.placed p w hold
    exact { h.maps with placed := hplaced }
  · intro call' heq
    cases heq
    exact trivial
  · exact fun _ hcommit => Or.inl ⟨_, rfl, hcommit⟩
  · exact fun _ => Or.inl (unchanged_of_eq rfl rfl rfl)

theorem keeps_splitSnapshot (h : EngineOk s) {window session : Uuid}
    (hcall : s.calls.lookup c = some (.splitSnapshot window session))
    (hfound : s.sessions.lookup session ≠ none)
    (hstep : s.advanceCall c (.splitSnapshot window session) = some s') : Keeps taken s s' := by
  obtain ⟨hpoisoned, -⟩ | ⟨-, hstep⟩ := withSessions_cases hstep
  · rw [h.maps.sessionsClean] at hpoisoned
    cases hpoisoned
  · rw [if_neg] at hstep
    · cases hstep
      exact keeps_goto h hcall trivial fun w hw => hw
    · rintro (hpoisoned | hnone)
      · rw [h.maps.panesClean] at hpoisoned
        cases hpoisoned
      · exact hfound hnone

theorem keeps_splitNotify (h : EngineOk s) {window : Uuid}
    (hcall : s.calls.lookup c = some (.splitNotify window))
    (hstep : s.advanceCall c (.splitNotify window) = some s') : Keeps taken s s' := by
  cases hstep
  obtain ⟨ticks, hticks, heq⟩ := notifyWindowChanged_eq s window
  have hpending : s.subscribed = true → window = s.watched → 0 < ticks := by
    intro hsub hw
    have hpos := notify_pending hsub hw
    rw [heq] at hpos
    exact hpos
  rw [heq]
  refine keeps_quiet none h hcall ⟨rfl, rfl, rfl, rfl, rfl, rfl, hticks⟩
    ⟨rfl, rfl, rfl, rfl, rfl, rfl, rfl, rfl⟩ rfl (fun _ hnone => nomatch hnone) ?_
  intro hsub hcommit
  exact Or.inr (hpending hsub (Option.some_inj.mp hcommit))

theorem keeps_closeLookup (h : EngineOk s) {pane : Uuid}
    (hcall : s.calls.lookup c = some (.closeLookup pane))
    (hstep : s.advanceCall c (.closeLookup pane) = some s') : Keeps taken s s' := by
  simp only [advanceCall] at hstep
  split at hstep
  · cases hstep
    exact keeps_finish h hcall rfl
  · rename_i window session hfound
    cases hstep
    obtain ⟨w, hw, hrest⟩ := Option.bind_eq_some_iff.mp hfound
    obtain ⟨sid, -, hpair⟩ := Option.bind_eq_some_iff.mp hrest
    cases hpair
    exact keeps_goto h hcall (h.maps.placed pane window hw) fun w hw => by cases hw

theorem keeps_closeIndex (h : EngineOk s) {pane window : Uuid} {closed : Bool}
    (hcall : s.calls.lookup c = some (.closeIndex pane window closed))
    (hstep : s.advanceCall c (.closeIndex pane window closed) = some s') : Keeps taken s s' := by
  obtain ⟨hremoved, hgone⟩ : Removed s pane ∧ (closed → Gone s window) := h.calls c _ hcall
  cases hstep
  refine keeps_call (some (.closePanes pane window closed)) h hcall
    ⟨rfl, rfl, rfl, rfl, rfl, rfl, Nat.le_refl _⟩ (shrinks_of_sessions rfl rfl) ?_ ?_ ?_ ?_
    (not_taken rfl rfl)
  · have hindexed : ∀ w sid, WindowIn s.sessions w sid →
        (if closed = true then s.windowSession.erase window else s.windowSession).lookup w =
          some sid := by
      intro w sid hw
      split
      · rename_i hclosed
        have hne : w ≠ window := by
          rintro rfl
          exact hgone hclosed sid hw
        rw [AList.lookup_erase_ne hne]
        exact h.maps.indexed w sid hw
      · exact h.maps.indexed w sid hw
    have hplaced : ∀ p w, (s.paneWindow.erase pane).lookup p = some w → OnlyIn s p w :=
      fun p w hp => h.maps.placed p w (lookup_of_erase hp).2
    exact { h.maps with indexed := hindexed, placed := hplaced }
  · intro call' heq
    cases heq
    exact ⟨hremoved, hgone⟩
  · exact fun _ hcommit => Or.inl ⟨_, rfl, hcommit⟩
  · exact fun _ => Or.inl (unchanged_of_eq rfl rfl rfl)

/-- INTERNAL: the watchers of the window are notified unless it was closed.
SRC: engine.rs:806-848 -/
theorem keeps_closePanes (h : EngineOk s) {pane window : Uuid} {closed : Bool}
    (hcall : s.calls.lookup c = some (.closePanes pane window closed))
    (hstep : s.advanceCall c (.closePanes pane window closed) = some s') : Keeps taken s s' := by
  obtain ⟨hremoved, -⟩ : Removed s pane ∧ (closed → Gone s window) := h.calls c _ hcall
  simp only [advanceCall] at hstep
  rw [if_neg (by rw [h.maps.panesClean]; exact Bool.false_ne_true)] at hstep
  have hmain : ∀ ticks, s.pendingTicks ≤ ticks →
      (s.subscribed = true → closed = false → window = s.watched → 0 < ticks) →
      Keeps taken s (Watching.finish { s with panes := s.panes.erase pane, pendingTicks := ticks } c) := by
    intro ticks hticks hpending
    refine keeps_call none h hcall ⟨rfl, rfl, rfl, rfl, rfl, rfl, hticks⟩
      (shrinks_of_sessions rfl rfl) (h.maps.same ⟨rfl, rfl, rfl, rfl, rfl, rfl, rfl, rfl⟩)
      (fun _ hnone => by cases hnone) ?_ (fun _ => Or.inl ?_) (not_taken rfl rfl)
    · intro hsub hcommit
      right
      cases closed with
      | true => cases hcommit
      | false => exact hpending hsub rfl (Option.some_inj.mp hcommit)
    · refine unchanged_of rfl (fun t ht p hp => ?_) rfl
      apply AList.lookup_erase_ne
      rintro rfl
      exact hremoved.2 _ (holds_of_tree ht hp)
  cases closed with
  | true =>
      cases hstep
      exact hmain s.pendingTicks (Nat.le_refl _) fun _ hopen => by cases hopen
  | false =>
      obtain ⟨ticks, hticks, heq⟩ :=
        notifyWindowChanged_eq { s with panes := s.panes.erase pane } window
      rw [if_neg Bool.false_ne_true, heq] at hstep
      cases hstep
      apply hmain ticks hticks
      intro hsub _ hw
      have hpos := notify_pending (s := { s with panes := s.panes.erase pane }) hsub hw
      rw [heq] at hpos
      exact hpos

/-- INTERNAL: a kill takes a session with all of its windows.
SRC: engine.rs:588-600 -/
theorem keeps_killLayout (h : EngineOk s) {session : Uuid}
    (hcall : s.calls.lookup c = some (.killLayout session))
    (hstep : s.advanceCall c (.killLayout session) = some s') : Keeps (WindowIn s.sessions s.watched session) s s' := by
  obtain ⟨hpoisoned, -⟩ | ⟨-, hstep⟩ := withSessions_cases hstep
  · rw [h.maps.sessionsClean] at hpoisoned
    cases hpoisoned
  · cases hst : s.sessions.lookup session with
    | none =>
        rw [hst] at hstep
        cases hstep
        exact keeps_finish h hcall rfl
    | some st =>
        rw [hst] at hstep
        cases hstep
        have hholds := layout_killSession h.maps.layout hst
        have hgone : ∀ w ∈ st.windows.map SessionWindow.id, ∀ sid,
            ¬ WindowIn (s.sessions.erase session) w sid := by
          intro w hw sid hsid
          obtain ⟨hne, hold⟩ := windowIn_erase hsid
          exact hne (h.maps.layout.sessionOf w sid session hold ⟨st, hst, hw⟩)
        have hshrinks : Shrinks s (Watching.goto { s with sessions := s.sessions.erase session } c
            (.killIndex (st.windows.map SessionWindow.id) st.leaves)) :=
          ⟨fun p w hp => Or.inl ((hholds p w).mp hp).1, fun w sid hw => (windowIn_erase hw).2,
            Nat.le_refl _⟩
        refine keeps_call (some (.killIndex (st.windows.map SessionWindow.id) st.leaves)) h hcall
          ⟨rfl, rfl, rfl, rfl, rfl, rfl, Nat.le_refl _⟩ hshrinks ?_ ?_ ?_ ?_ ?_
        · exact {
            layout := h.maps.layout.erase session
            built := fun sid st hlookup => h.maps.built sid st (lookup_of_erase hlookup).2
            indexed := fun w sid hw => h.maps.indexed w sid (windowIn_erase hw).2
            placed := fun p w hp => (h.maps.placed p w hp).mono hshrinks
            fresh := fun p w hp => h.maps.fresh p w ((hholds p w).mp hp).1
            clamped := h.maps.clamped
            sessionsClean := h.maps.sessionsClean
            panesClean := h.maps.panesClean
            resizeClean := h.maps.resizeClean }
        · intro call' heq
          cases heq
          refine ⟨fun p hp => ⟨?_, fun v hv => ((hholds p v).mp hv).2 hp⟩, hgone⟩
          obtain ⟨w, hw⟩ := mem_session_leaves.mp hp
          exact h.maps.fresh p w ⟨session, st, hst, hw⟩
        · intro _ hcommit
          cases hcommit
        · intro hexists
          left
          have hv : s.watched ∉ st.windows.map SessionWindow.id := by
            intro hmem
            obtain ⟨sid, hsid⟩ := treeOf_isSome_iff.mp hexists
            exact hgone s.watched hmem sid hsid
          exact unchanged_of (treeOf_erase h.maps.layout hst hv) (fun _ _ _ _ => rfl) rfl
        · intro hexists hnone
          obtain ⟨sid, st', hst', hmem⟩ := treeOf_isSome_iff.mp hexists
          by_cases heq : sid = session
          · exact heq ▸ ⟨st', hst', hmem⟩
          · refine absurd ?_ (treeOf_eq_none_iff.mp hnone sid)
            exact ⟨st', (AList.lookup_erase_ne heq).trans hst', hmem⟩

theorem keeps_killIndex (h : EngineOk s) {windows panes : List Uuid}
    (hcall : s.calls.lookup c = some (.killIndex windows panes))
    (hstep : s.advanceCall c (.killIndex windows panes) = some s') : Keeps taken s s' := by
  obtain ⟨hremoved, hgone⟩ : (∀ p ∈ panes, Removed s p) ∧ ∀ w ∈ windows, Gone s w :=
    h.calls c _ hcall
  cases hstep
  refine keeps_call (some (.killPanes panes)) h hcall
    ⟨rfl, rfl, rfl, rfl, rfl, rfl, Nat.le_refl _⟩ (shrinks_of_sessions rfl rfl) ?_ ?_ ?_ ?_
    (not_taken rfl rfl)
  · have hindexed : ∀ w sid, WindowIn s.sessions w sid →
        (windows.foldl (fun m w => m.erase w) s.windowSession).lookup w = some sid := by
      intro w sid hw
      rw [lookup_foldl_erase_of_notMem windows _ fun hmem => hgone w hmem sid hw]
      exact h.maps.indexed w sid hw
    have hplaced : ∀ p w, (panes.foldl (fun m p => m.erase p) s.paneWindow).lookup p = some w →
        OnlyIn s p w := fun p w hp => h.maps.placed p w (lookup_foldl_erase panes _ hp)
    exact { h.maps with indexed := hindexed, placed := hplaced }
  · intro call' heq
    cases heq
    exact hremoved
  · intro _ hcommit
    cases hcommit
  · exact fun _ => Or.inl (unchanged_of_eq rfl rfl rfl)

theorem keeps_killPanes (h : EngineOk s) {panes : List Uuid}
    (hcall : s.calls.lookup c = some (.killPanes panes))
    (hstep : s.advanceCall c (.killPanes panes) = some s') : Keeps taken s s' := by
  have hremoved : ∀ p ∈ panes, Removed s p := h.calls c _ hcall
  simp only [advanceCall] at hstep
  rw [if_neg (by rw [h.maps.panesClean]; exact Bool.false_ne_true)] at hstep
  cases hstep
  refine keeps_call none h hcall ⟨rfl, rfl, rfl, rfl, rfl, rfl, Nat.le_refl _⟩
    (shrinks_of_sessions rfl rfl) (h.maps.same ⟨rfl, rfl, rfl, rfl, rfl, rfl, rfl, rfl⟩)
    (fun _ hnone => by cases hnone) ?_ (fun _ => Or.inl ?_) (not_taken rfl rfl)
  · intro _ hcommit
    cases hcommit
  · refine unchanged_of rfl (fun t ht p hp => ?_) rfl
    exact lookup_foldl_erase_of_notMem panes _ fun hmem => (hremoved p hmem).2 _ (holds_of_tree ht hp)

/-- The session of a split is there when it takes the snapshot of its answer. -/
def FindsSession (s : Watching) : LayoutCall → Prop
  | .splitSnapshot _ session => s.sessions.lookup session ≠ none
  | _ => True

/-- INTERNAL: what a call does to the layout it will tell the watchers, unless the window is gone. -/
theorem keeps_advanceCall (h : EngineOk s) (hcall : s.calls.lookup c = some call)
    (hfinds : FindsSession s call) (hstep : s.advanceCall c call = some s') : Keeps (TakesWindow s call) s s' := by
  cases call with
  | splitLookup target o => exact keeps_splitLookup h hcall hstep
  | splitLayout target o window session => exact keeps_splitLayout h hcall hstep
  | splitInsertPane pane window session => exact keeps_splitInsertPane h hcall hstep
  | splitIndex pane window session => exact keeps_splitIndex h hcall hstep
  | splitSnapshot window session => exact keeps_splitSnapshot h hcall hfinds hstep
  | splitNotify window => exact keeps_splitNotify h hcall hstep
  | closeLookup pane => exact keeps_closeLookup h hcall hstep
  | closeLayout pane window session => exact keeps_closeLayout h hcall hstep
  | closeIndex pane window closed => exact keeps_closeIndex h hcall hstep
  | closePanes pane window closed => exact keeps_closePanes h hcall hstep
  | killLayout session => exact keeps_killLayout h hcall hstep
  | killIndex windows panes => exact keeps_killIndex h hcall hstep
  | killPanes panes => exact keeps_killPanes h hcall hstep

/-- INTERNAL: a call that starts owes the watchers nothing. -/
theorem keeps_begin (h : EngineOk s) (hok : CallOk s call) (hstep : s.begin c call = some s') :
    Keeps taken s s' := by
  unfold begin at hstep
  split at hstep
  · cases hstep
  · rename_i hnone
    cases hstep
    have hfresh : s.calls.lookup c = none := AList.lookup_eq_none.mpr hnone
    refine ⟨h.call (shrinks_of_sessions rfl rfl)
      (h.maps.same ⟨rfl, rfl, rfl, rfl, rfl, rfl, rfl, rfl⟩) rfl (some call) rfl ?_, ⟨rfl, rfl, rfl, id, ?_, ?_, ?_⟩, not_taken rfl rfl⟩
    · intro call' heq
      cases heq
      exact hok.mono (shrinks_of_sessions rfl rfl)
    · rintro - (hpending | ⟨c', call', hcall', hcommit⟩ | hstream)
      · exact Or.inl hpending
      · refine Or.inr (Or.inl ⟨c', call', ?_, hcommit⟩)
        have hne : c' ≠ c := by
          rintro rfl
          rw [hfresh] at hcall'
          cases hcall'
        exact (AList.lookup_insert_ne hne).trans hcall'
      · exact Or.inr (Or.inr hstream)
    · exact fun _ _ hintended => Or.inr hintended
    · exact fun _ _ => Or.inl (unchanged_of_eq rfl rfl rfl)

end

end Tymux.Analysis.WindowWatch
