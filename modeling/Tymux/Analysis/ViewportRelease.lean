import Tymux.Model.Watching
import Tymux.Lib.Total
import Tymux.Lib.Keyed

/-!
# The viewports of the clients that have left

A client is registered by its first Resize and removed by the deferred cleanup of its stream, and
by nothing else: closing a window leaves its entry in the viewports alone. A cleanup that finds the
window gone takes for granted that the entry went with it, so that the client stays registered for
ever if it had sent a Resize. Where no cleanup finds the window of a registered client gone, whoever
is registered still has a stream that will remove it (`Accounted`).
-/

set_option autoImplicit false

namespace Tymux.Analysis.ViewportRelease

open Tymux.Model Tymux.Lib Watching

/-! ## What a step does to the viewports and the streams -/

theorem notifyWindowChanged_eq (s : Watching) (window : Uuid) :
    ∃ pendingTicks, s.pendingTicks ≤ pendingTicks ∧
      s.notifyWindowChanged window = { s with pendingTicks } := by
  unfold notifyWindowChanged
  split
  · exact ⟨_, Nat.le_succ _, rfl⟩
  · exact ⟨_, Nat.le_refl _, rfl⟩

theorem setSize_eq (s : Watching) (pane : Uuid) (f : PaneSize → PaneSize) :
    ∃ panes, s.setSize pane f = { s with panes } := by
  unfold setSize
  split
  · exact ⟨_, rfl⟩
  · exact ⟨_, rfl⟩

/-- The viewports and the streams are as they were. -/
structure SameClients (s s' : Watching) : Prop where
  viewports : s'.viewports = s.viewports
  streams : s'.streams = s.streams
  nextClientId : s'.nextClientId = s.nextClientId

theorem sameClients_notify (s : Watching) (window : Uuid) :
    SameClients s (s.notifyWindowChanged window) := by
  obtain ⟨_, -, heq⟩ := notifyWindowChanged_eq s window
  rw [heq]
  exact ⟨rfl, rfl, rfl⟩

theorem sameClients_setSize (s : Watching) (pane : Uuid) (f : PaneSize → PaneSize) :
    SameClients s (s.setSize pane f) := by
  obtain ⟨_, heq⟩ := setSize_eq s pane f
  rw [heq]
  exact ⟨rfl, rfl, rfl⟩

theorem withSessions_cases {s s' : Watching} {c : ℕ} {k : Option Watching}
    (h : s.withSessions c k = some s') :
    (s.sessionsPoisoned = true ∧ s' = s.finish c) ∨ (s.sessionsPoisoned = false ∧ k = some s') := by
  unfold withSessions at h
  split at h
  · rename_i hpoisoned
    cases h
    exact Or.inl ⟨hpoisoned, rfl⟩
  · rename_i hclean
    exact Or.inr ⟨by simpa using hclean, h⟩

theorem sameClients_of_withSessions {s s' : Watching} {c : ℕ} {k : Option Watching}
    (h : s.withSessions c k = some s') (hk : k = some s' → SameClients s s') : SameClients s s' := by
  obtain ⟨-, rfl⟩ | ⟨-, h⟩ := withSessions_cases h
  · exact ⟨rfl, rfl, rfl⟩
  · exact hk h

/-- INTERNAL: the calls that change layouts have nothing to do with viewports.
SRC: engine.rs:588-848 -/
theorem sameClients_advanceCall {s s' : Watching} {c : ℕ} {call : LayoutCall}
    (h : s.advanceCall c call = some s') : SameClients s s' := by
  cases call with
  | splitLookup target orientation =>
      simp only [advanceCall] at h
      split at h
      · cases h
        exact ⟨rfl, rfl, rfl⟩
      · cases h
        exact ⟨rfl, rfl, rfl⟩
  | splitLayout target orientation window session =>
      apply sameClients_of_withSessions h
      intro h
      split at h
      · cases h
        exact ⟨rfl, rfl, rfl⟩
      · split at h
        · cases h
          exact ⟨rfl, rfl, rfl⟩
        · cases h
          exact ⟨rfl, rfl, rfl⟩
        · cases h
          exact ⟨rfl, rfl, rfl⟩
  | splitInsertPane pane window session =>
      simp only [advanceCall] at h
      split at h
      · cases h
        exact ⟨rfl, rfl, rfl⟩
      · cases h
        exact ⟨rfl, rfl, rfl⟩
  | splitIndex pane window session =>
      cases h
      exact ⟨rfl, rfl, rfl⟩
  | splitSnapshot window session =>
      apply sameClients_of_withSessions h
      intro h
      split at h
      · cases h
        exact ⟨rfl, rfl, rfl⟩
      · cases h
        exact ⟨rfl, rfl, rfl⟩
  | splitNotify window =>
      cases h
      obtain ⟨hviewports, hstreams, hnext⟩ := sameClients_notify s window
      exact ⟨hviewports, hstreams, hnext⟩
  | closeLookup pane =>
      simp only [advanceCall] at h
      split at h
      · cases h
        exact ⟨rfl, rfl, rfl⟩
      · cases h
        exact ⟨rfl, rfl, rfl⟩
  | closeLayout pane window session =>
      apply sameClients_of_withSessions h
      intro h
      split at h
      · cases h
        exact ⟨rfl, rfl, rfl⟩
      · split at h
        · cases h
          exact ⟨rfl, rfl, rfl⟩
        · cases h
          exact ⟨rfl, rfl, rfl⟩
        · dsimp only at h
          split at h
          · cases h
            exact ⟨rfl, rfl, rfl⟩
          · cases h
            exact ⟨rfl, rfl, rfl⟩
  | closeIndex pane window windowClosed =>
      cases h
      exact ⟨rfl, rfl, rfl⟩
  | closePanes pane window windowClosed =>
      simp only [advanceCall] at h
      split at h
      · cases h
        exact ⟨rfl, rfl, rfl⟩
      · cases h
        split
        · exact ⟨rfl, rfl, rfl⟩
        · obtain ⟨hviewports, hstreams, hnext⟩ :=
            sameClients_notify { s with panes := s.panes.erase pane } window
          exact ⟨hviewports, hstreams, hnext⟩
  | killLayout session =>
      apply sameClients_of_withSessions h
      intro h
      split at h
      · cases h
        exact ⟨rfl, rfl, rfl⟩
      · cases h
        exact ⟨rfl, rfl, rfl⟩
  | killIndex windows panes =>
      cases h
      exact ⟨rfl, rfl, rfl⟩
  | killPanes panes =>
      simp only [advanceCall] at h
      split at h
      · cases h
        exact ⟨rfl, rfl, rfl⟩
      · cases h
        exact ⟨rfl, rfl, rfl⟩

/-- INTERNAL: a recomputation reads the viewports.
SRC: engine.rs:1270-1345 -/
theorem sameClients_recompute {s : Watching} {client : ℕ} {window : Uuid} {stage : RecomputeStage}
    {r : Watching × RecomputeOutcome} (h : s.recompute client window stage = some r) :
    SameClients s r.1 := by
  cases stage with
  | waiting =>
      simp only [recompute] at h
      split at h
      · cases h
        exact ⟨rfl, rfl, rfl⟩
      · split at h
        · cases h
        · cases h
          exact ⟨rfl, rfl, rfl⟩
  | locked =>
      cases h
      exact ⟨rfl, rfl, rfl⟩
  | sized rows cols =>
      simp only [recompute] at h
      split at h
      · cases h
        exact ⟨rfl, rfl, rfl⟩
      · cases h
        exact ⟨rfl, rfl, rfl⟩
  | found session rows cols =>
      simp only [recompute] at h
      split at h
      · cases h
        exact ⟨rfl, rfl, rfl⟩
      · split at h
        · cases h
          exact ⟨rfl, rfl, rfl⟩
        · split at h
          · cases h
            exact ⟨rfl, rfl, rfl⟩
          · split at h
            · cases h
              exact ⟨rfl, rfl, rfl⟩
            · cases h
              exact ⟨rfl, rfl, rfl⟩
  | placing rects =>
      simp only [recompute] at h
      split at h
      · cases h
        exact ⟨rfl, rfl, rfl⟩
      · cases h
        exact ⟨rfl, rfl, rfl⟩
  | applying rest =>
      cases rest with
      | nil =>
          cases h
          exact ⟨rfl, rfl, rfl⟩
      | cons e rest =>
          simp only [recompute] at h
          split at h
          · cases h
            exact ⟨rfl, rfl, rfl⟩
          · cases h
            exact sameClients_setSize ..
  | storedRows pane cols rest =>
      cases h
      exact sameClients_setSize ..
  | notifying =>
      cases h
      obtain ⟨hviewports, hstreams, hnext⟩ := sameClients_notify s window
      exact ⟨hviewports, hstreams, hnext⟩

/-- The client has an entry among the viewports of the window. -/
def Registered (s : Watching) (window : Uuid) (client : ℕ) : Prop :=
  ∃ clients, s.viewports.lookup window = some clients ∧ client ∈ clients.map Prod.fst

theorem SameClients.registered {s s' : Watching} (h : SameClients s s') (window : Uuid)
    (client : ℕ) : Registered s' window client ↔ Registered s window client := by
  unfold Registered
  rw [h.viewports]

theorem mem_insert_viewports {v : Viewports} {client client' rows cols : ℕ} :
    client' ∈ (v.insert client rows cols).map Prod.fst ↔
      client' ∈ v.map Prod.fst ∨ client' = client := by
  unfold Viewports.insert
  simp only [List.map_cons, List.mem_cons, List.mem_map, List.mem_filter, decide_eq_true_eq]
  constructor
  · rintro (rfl | ⟨e, ⟨he, -⟩, rfl⟩)
    · exact Or.inr rfl
    · exact Or.inl ⟨e, he, rfl⟩
  · rintro (⟨e, he, rfl⟩ | rfl)
    · by_cases heq : e.1 = client
      · exact Or.inl heq
      · exact Or.inr ⟨e, ⟨he, heq⟩, rfl⟩
    · exact Or.inl rfl

theorem mem_remove_viewports {v : Viewports} {client client' : ℕ} :
    client' ∈ (v.remove client).map Prod.fst ↔ client' ∈ v.map Prod.fst ∧ client' ≠ client := by
  unfold Viewports.remove
  simp only [List.mem_map, List.mem_filter, decide_eq_true_eq]
  constructor
  · rintro ⟨e, ⟨he, hne⟩, rfl⟩
    exact ⟨⟨e, he, rfl⟩, hne⟩
  · rintro ⟨⟨e, he, rfl⟩, hne⟩
    exact ⟨e, ⟨he, hne⟩, rfl⟩

theorem registered_register (s : Watching) (window client rows cols : ℕ) (window' : Uuid)
    (client' : ℕ) :
    Registered (s.registerViewport window client rows cols) window' client' ↔
      Registered s window' client' ∨ window' = window ∧ client' = client := by
  unfold Registered registerViewport
  by_cases hwindow : window' = window
  · subst hwindow
    simp only [AList.lookup_insert, Option.some.injEq, exists_eq_left', mem_insert_viewports,
      true_and]
    cases s.viewports.lookup window' with
    | none => simp
    | some clients => simp
  · simp only [AList.lookup_insert_ne hwindow, hwindow, false_and, or_false]

theorem registered_unregister (s : Watching) (window : Uuid) (client : ℕ) (window' : Uuid)
    (client' : ℕ) :
    Registered (s.unregisterViewport window client) window' client' ↔
      Registered s window' client' ∧ ¬ (window' = window ∧ client' = client) := by
  unfold unregisterViewport
  cases hclients : s.viewports.lookup window with
  | none =>
      constructor
      · intro h
        refine ⟨h, ?_⟩
        rintro ⟨rfl, -⟩
        obtain ⟨clients, hlookup, -⟩ := h
        rw [hclients] at hlookup
        cases hlookup
      · exact And.left
  | some clients =>
      unfold Registered
      by_cases hwindow : window' = window
      · subst hwindow
        simp only [AList.lookup_insert, Option.some.injEq, exists_eq_left', mem_remove_viewports,
          hclients, true_and]
      · simp only [AList.lookup_insert_ne hwindow, hwindow, false_and, not_false_eq_true, and_true]

/-! ## What a step does to one stream -/

/-- The window whose registration a stream will still remove. -/
def owes : AttachStream → Option Uuid
  | .receiving window => window
  | .reporting window _ | .sleeping window | .unregistering window => some window
  | .cleaning _ _ | .done | .dead => none

/-- What happens to the viewports when the stream of `client` goes from `stream` to `stream'`. -/
inductive Moves (s s' : Watching) (client : ℕ) (e : WatchingEvent) (stream stream' : AttachStream) :
    Prop
  | keeps (hviewports : s'.viewports = s.viewports)
      (howes : owes stream' = owes stream ∨ stream' = .dead)
  /-- The cleanup finds no window. -/
  | skips (window : Uuid) (he : e = .stream client) (hviewports : s'.viewports = s.viewports)
      (hstream : stream = .sleeping window) (hstream' : stream' = .done)
      (hgone : s.windowSnapshot window = none)
  | registers (window rows cols : ℕ)
      (hviewports : s'.viewports = (s.registerViewport window client rows cols).viewports)
      (howes : owes stream' = some window) (howes' : owes stream = some window)
  | unregisters (window : Uuid)
      (hviewports : s'.viewports = (s.unregisterViewport window client).viewports)
      (hstream : stream = .unregistering window)

/-- A stream whose state no step changes any more. -/
def Over : AttachStream → Prop
  | .done | .dead => True
  | _ => False

/-- What a step does to the clients: nothing, it opens a stream, or it moves one that is not over. -/
inductive ClientStep (s s' : Watching) (e : WatchingEvent) : Prop
  | same (h : SameClients s s')
  | opens (pane : Uuid) (h : s' = s.attach pane)
  | moves (client : ℕ) (stream stream' : AttachStream) (h : s.streams.lookup client = some stream)
      (hover : ¬ Over stream) (hstreams : s'.streams = s.streams.insert client stream')
      (hnext : s'.nextClientId = s.nextClientId) (hmoves : Moves s s' client e stream stream')

theorem clientStep_report {s s' : Watching} {e : WatchingEvent} {client rows cols : ℕ}
    {stream : AttachStream} (hstream : s.streams.lookup client = some stream)
    (h : s.reportViewport client rows cols stream = some s') : ClientStep s s' e := by
  cases stream with
  | receiving window =>
      cases window with
      | none =>
          cases h
          exact .same ⟨rfl, rfl, rfl⟩
      | some window =>
          cases h
          exact .moves client _ _ hstream id rfl rfl (.registers window _ _ rfl rfl rfl)
  | _ => cases h

theorem clientStep_end {s s' : Watching} {e : WatchingEvent} {client : ℕ}
    {stream : AttachStream} (hstream : s.streams.lookup client = some stream)
    (h : s.endStream client stream = some s') : ClientStep s s' e := by
  cases stream with
  | receiving window =>
      cases window with
      | none =>
          cases h
          exact .moves client _ _ hstream id rfl rfl (.keeps rfl (Or.inl rfl))
      | some window =>
          cases h
          exact .moves client _ _ hstream id rfl rfl (.keeps rfl (Or.inl rfl))
  | _ => cases h

theorem clientStep_recompute {s s' : Watching} {e : WatchingEvent} {client : ℕ} {window : Uuid}
    {stage : RecomputeStage} {stream : AttachStream} {r : Watching × RecomputeOutcome}
    (hstream : s.streams.lookup client = some stream) (hover : ¬ Over stream)
    (hr : s.recompute client window stage = some r) (stream' : AttachStream)
    (howes : owes stream' = owes stream ∨ stream' = .dead) (h : s' = r.1.setStream client stream') :
    ClientStep s s' e := by
  obtain ⟨hviewports, hstreams, hnext⟩ := sameClients_recompute hr
  subst h
  refine .moves client stream stream' hstream hover ?_ hnext (.keeps hviewports howes)
  show r.1.streams.insert client stream' = _
  rw [hstreams]

theorem clientStep_stream {s s' : Watching} {client : ℕ} {stream : AttachStream}
    (hstream : s.streams.lookup client = some stream)
    (h : s.advanceStream client stream = some s') : ClientStep s s' (.stream client) := by
  cases stream with
  | reporting window stage =>
      obtain ⟨⟨t, outcome⟩, hr, h⟩ := Option.bind_eq_some_iff.mp h
      cases outcome with
      | continues stage' =>
          cases h
          exact clientStep_recompute hstream id hr (.reporting window stage') (Or.inl rfl) rfl
      | returns =>
          cases h
          exact clientStep_recompute hstream id hr (.receiving (some window)) (Or.inl rfl) rfl
      | panics =>
          cases h
          exact clientStep_recompute hstream id hr .dead (Or.inr rfl) rfl
  | sleeping window =>
      simp only [advanceStream] at h
      split at h
      · cases h
        exact .moves client _ _ hstream id rfl rfl (.keeps rfl (Or.inr rfl))
      · split at h
        · cases h
          exact .moves client _ _ hstream id rfl rfl (.keeps rfl (Or.inr rfl))
        · split at h
          · rename_i hgone
            cases h
            exact .moves client _ _ hstream id rfl rfl
              (.skips window rfl rfl rfl rfl (Option.isNone_iff_eq_none.mp hgone))
          · cases h
            exact .moves client _ _ hstream id rfl rfl (.keeps rfl (Or.inl rfl))
  | unregistering window =>
      cases h
      have hsame : (s.unregisterViewport window client).streams = s.streams ∧
          (s.unregisterViewport window client).nextClientId = s.nextClientId := by
        unfold unregisterViewport
        split
        · exact ⟨rfl, rfl⟩
        · exact ⟨rfl, rfl⟩
      refine .moves client _ (.cleaning window .waiting) hstream id ?_ hsame.2
        (.unregisters window rfl rfl)
      show (s.unregisterViewport window client).streams.insert client _ = _
      rw [hsame.1]
  | cleaning window stage =>
      obtain ⟨⟨t, outcome⟩, hr, h⟩ := Option.bind_eq_some_iff.mp h
      cases outcome with
      | continues stage' =>
          cases h
          exact clientStep_recompute hstream id hr (.cleaning window stage') (Or.inl rfl) rfl
      | returns =>
          cases h
          exact clientStep_recompute hstream id hr .done (Or.inl rfl) rfl
      | panics =>
          cases h
          exact clientStep_recompute hstream id hr .dead (Or.inr rfl) rfl
  | receiving window => cases h
  | done => cases h
  | dead => cases h

theorem sameClients_watch {s s' : Watching} {task : WatchTask} (h : s.advanceWatch task = some s') :
    SameClients s s' := by
  have hsnapshot : ∀ k : Option LayoutSnapshot → Watching, (∀ x, SameClients s (k x)) →
      SameClients s (s.withSnapshot k) := by
    intro k hk
    unfold withSnapshot
    split
    · exact ⟨rfl, rfl, rfl⟩
    · split
      · exact ⟨rfl, rfl, rfl⟩
      · exact hk _
  cases task with
  | notStarted => cases h
  | subscribed =>
      cases h
      apply hsnapshot
      intro x
      cases x with
      | none => exact ⟨rfl, rfl, rfl⟩
      | some layout => exact ⟨rfl, rfl, rfl⟩
  | first layout =>
      cases h
      exact ⟨rfl, rfl, rfl⟩
  | receiving =>
      simp only [advanceWatch] at h
      split at h
      · cases h
      · split at h
        · cases h
          exact ⟨rfl, rfl, rfl⟩
        · cases h
          exact ⟨rfl, rfl, rfl⟩
  | ticked =>
      cases h
      apply hsnapshot
      intro x
      cases x with
      | none => exact ⟨rfl, rfl, rfl⟩
      | some layout => exact ⟨rfl, rfl, rfl⟩
  | snapshot layout =>
      cases h
      exact ⟨rfl, rfl, rfl⟩
  | ended => cases h

theorem sameClients_begin {s s' : Watching} {c : ℕ} {call : LayoutCall}
    (h : s.begin c call = some s') : SameClients s s' := by
  unfold begin at h
  split at h
  · cases h
  · cases h
    exact ⟨rfl, rfl, rfl⟩

theorem clientStep {s s' : Watching} {e : WatchingEvent} (h : s.step e = some s') :
    ClientStep s s' e := by
  cases e with
  | splitPane c target orientation => exact .same (sameClients_begin h)
  | closePane c pane => exact .same (sameClients_begin h)
  | killSession c session => exact .same (sameClients_begin h)
  | advance c =>
      obtain ⟨call, -, h⟩ := Option.bind_eq_some_iff.mp h
      exact .same (sameClients_advanceCall h)
  | attach pane =>
      cases h
      exact .opens pane rfl
  | resize client rows cols =>
      obtain ⟨stream, hstream, h⟩ := Option.bind_eq_some_iff.mp h
      exact clientStep_report hstream h
  | endStream client =>
      obtain ⟨stream, hstream, h⟩ := Option.bind_eq_some_iff.mp h
      exact clientStep_end hstream h
  | stream client =>
      obtain ⟨stream, hstream, h⟩ := Option.bind_eq_some_iff.mp h
      exact clientStep_stream hstream h
  | watchWindow =>
      simp only [step] at h
      split at h
      · cases h
        exact .same ⟨rfl, rfl, rfl⟩
      · cases h
  | watch => exact .same (sameClients_watch h)

/-! ## Who is registered -/

/-- A cleanup that looks for the window of a registered client finds it. -/
def FindsWindow (s : Watching) (e : WatchingEvent) : Prop :=
  ∀ client window, e = .stream client → s.streams.lookup client = some (.sleeping window) →
    Registered s window client → s.windowSnapshot window ≠ none

/-- Every stream opened so far has ended, and its cleanup has run. -/
def AllDone (s : Watching) : Prop :=
  ∀ client stream, s.streams.lookup client = some stream → stream = .done

/-- Whoever is registered has a stream that will see to it, unless one of its tasks panicked. -/
def Accounted (s : Watching) : Prop :=
  ∀ window client, Registered s window client →
    ∃ stream, s.streams.lookup client = some stream ∧ (owes stream = some window ∨ stream = .dead)

/-- The ids of the streams have been handed out. -/
def Known (s : Watching) : Prop :=
  ∀ client stream, s.streams.lookup client = some stream → client < s.nextClientId

/-- A stream is over, and its client is still registered or its task has panicked. -/
def Leaked (s : Watching) : Prop :=
  ∃ client stream, s.streams.lookup client = some stream ∧
    (stream = .dead ∨ stream = .done ∧ ∃ window, Registered s window client)

theorem registered_congr {s s' : Watching} (h : s'.viewports = s.viewports) (window : Uuid)
    (client : ℕ) : Registered s' window client ↔ Registered s window client := by
  unfold Registered
  rw [h]

theorem known_step {s s' : Watching} {e : WatchingEvent} (h : Known s) (hstep : s.step e = some s') :
    Known s' := by
  cases clientStep hstep with
  | same hsame =>
      intro client stream hstream
      rw [hsame.streams] at hstream
      rw [hsame.nextClientId]
      exact h client stream hstream
  | opens pane hopens =>
      subst hopens
      intro client stream hstream
      obtain ⟨rfl, -⟩ | hold := lookup_of_insert hstream
      · exact Nat.lt_succ_self _
      · exact Nat.lt_succ_of_lt (h client stream hold)
  | moves c st st' hst hover hstreams hnext hmoves =>
      intro client stream hstream
      rw [hstreams] at hstream
      rw [hnext]
      obtain ⟨rfl, -⟩ | hold := lookup_of_insert hstream
      · exact h client st hst
      · exact h client stream hold

theorem accounted_step {s s' : Watching} {e : WatchingEvent} (h : Accounted s) (hknown : Known s)
    (hfinds : FindsWindow s e) (hstep : s.step e = some s') : Accounted s' := by
  intro window client hregistered
  cases clientStep hstep with
  | same hsame =>
      rw [hsame.streams]
      exact h window client ((hsame.registered window client).mp hregistered)
  | opens pane hopens =>
      subst hopens
      obtain ⟨stream, hstream, howes⟩ := h window client hregistered
      have hne : client ≠ s.nextClientId := Nat.ne_of_lt (hknown client stream hstream)
      exact ⟨stream, (AList.lookup_insert_ne hne).trans hstream, howes⟩
  | moves c st st' hst hover hstreams hnext hmoves =>
      rw [hstreams]
      by_cases hclient : client = c
      · subst hclient
        rw [AList.lookup_insert]
        refine ⟨st', rfl, ?_⟩
        -- the stream that moves had the client's registration to see to
        have hmine : Registered s window client → owes st = some window := by
          intro hreg
          obtain ⟨stream, hstream, howes⟩ := h window client hreg
          rw [hst, Option.some_inj] at hstream
          subst hstream
          obtain howes | rfl := howes
          · exact howes
          · exact absurd trivial hover
        cases hmoves with
        | keeps hviewports howes =>
            have hreg := hmine ((registered_congr hviewports window client).mp hregistered)
            exact howes.imp_left fun heq => heq.trans hreg
        | skips window' he hviewports hsleeping hdone hgone =>
            have hreg := (registered_congr hviewports window client).mp hregistered
            have howes := hmine hreg
            rw [hsleeping] at howes hst
            cases howes
            exact absurd hgone (hfinds client window he hst hreg)
        | registers window' rows cols hviewports howes howes' =>
            rw [registered_congr hviewports, registered_register] at hregistered
            obtain hreg | ⟨rfl, -⟩ := hregistered
            · have hwindow := hmine hreg
              rw [howes'] at hwindow
              exact Or.inl (howes.trans hwindow)
            · exact Or.inl howes
        | unregisters window' hviewports hstream =>
            rw [registered_congr hviewports, registered_unregister] at hregistered
            have howes := hmine hregistered.1
            rw [hstream] at howes
            cases howes
            exact absurd ⟨rfl, rfl⟩ hregistered.2
      · rw [AList.lookup_insert_ne hclient]
        apply h window client
        cases hmoves with
        | keeps hviewports howes => exact (registered_congr hviewports window client).mp hregistered
        | skips window' he hviewports hsleeping hdone hgone =>
            exact (registered_congr hviewports window client).mp hregistered
        | registers window' rows cols hviewports howes howes' =>
            rw [registered_congr hviewports, registered_register] at hregistered
            exact hregistered.resolve_right fun hboth => hclient hboth.2
        | unregisters window' hviewports hstream =>
            rw [registered_congr hviewports, registered_unregister] at hregistered
            exact hregistered.1

/-- INTERNAL: nobody comes back to a stream that is over. -/
theorem leaked_step {s s' : Watching} {e : WatchingEvent} (h : Leaked s) (hknown : Known s)
    (hstep : s.step e = some s') : Leaked s' := by
  obtain ⟨client, stream, hstream, hleak⟩ := h
  have hisover : Over stream := by
    obtain rfl | ⟨rfl, -⟩ := hleak
    · exact trivial
    · exact trivial
  cases clientStep hstep with
  | same hsame =>
      refine ⟨client, stream, by rw [hsame.streams, hstream], hleak.imp_right fun hdone => ?_⟩
      obtain ⟨window, hwindow⟩ := hdone.2
      exact ⟨hdone.1, window, (hsame.registered window client).mpr hwindow⟩
  | opens pane hopens =>
      subst hopens
      have hne : client ≠ s.nextClientId := Nat.ne_of_lt (hknown client stream hstream)
      exact ⟨client, stream, (AList.lookup_insert_ne hne).trans hstream, hleak⟩
  | moves c st st' hst hover hstreams hnext hmoves =>
      have hne : client ≠ c := by
        rintro rfl
        rw [hst, Option.some_inj] at hstream
        exact hover (hstream ▸ hisover)
      refine ⟨client, stream, ?_, hleak.imp_right fun hdone => ?_⟩
      · rw [hstreams, AList.lookup_insert_ne hne, hstream]
      · obtain ⟨window, hwindow⟩ := hdone.2
        refine ⟨hdone.1, window, ?_⟩
        cases hmoves with
        | keeps hviewports howes => exact (registered_congr hviewports window client).mpr hwindow
        | skips window' he hviewports hsleeping hdone hgone =>
            exact (registered_congr hviewports window client).mpr hwindow
        | registers window' rows cols hviewports howes howes' =>
            rw [registered_congr hviewports, registered_register]
            exact Or.inl hwindow
        | unregisters window' hviewports hstream =>
            rw [registered_congr hviewports, registered_unregister]
            exact ⟨hwindow, fun hboth => hne hboth.2⟩

/-- INTERNAL: a cleanup that does not find the window leaves the client where it is.
SRC: main.rs:1719-1737 -/
theorem leaked_of_not_findsWindow {s s' : Watching} {e : WatchingEvent} (h : ¬ FindsWindow s e)
    (hstep : s.step e = some s') : Leaked s' := by
  unfold FindsWindow at h
  push Not at h
  obtain ⟨client, window, rfl, hstream, hregistered, hgone⟩ := h
  simp only [step, hstream, Option.bind_some, advanceStream] at hstep
  split at hstep
  · cases hstep
    exact ⟨client, .dead, AList.lookup_insert _, Or.inl rfl⟩
  · split at hstep
    · cases hstep
      exact ⟨client, .dead, AList.lookup_insert _, Or.inl rfl⟩
    · rw [if_pos (by rw [hgone]; rfl)] at hstep
      cases hstep
      exact ⟨client, .done, AList.lookup_insert _, Or.inr ⟨rfl, window, hregistered⟩⟩

theorem along_or_leaked {s s' : Watching} {es : List WatchingEvent} (hknown : Known s)
    (hrun : run step s es = some s') : Along step FindsWindow s es ∨ Leaked s' := by
  induction es generalizing s with
  | nil => exact Or.inl trivial
  | cons e es ih =>
      rw [run_cons, Option.bind_eq_some_iff] at hrun
      obtain ⟨s₁, hs₁, hrest⟩ := hrun
      have hknown₁ := known_step hknown hs₁
      by_cases hfinds : FindsWindow s e
      · obtain halong | hleaked := ih hknown₁ hrest
        · refine Or.inl ⟨hfinds, fun s₂ hs₂ => ?_⟩
          rw [hs₁, Option.some_inj] at hs₂
          exact hs₂ ▸ halong
        · exact Or.inr hleaked
      · right
        have hboth := run_invariant (fun s => Leaked s ∧ Known s) (fun _ => True)
          (fun s e s' _ h hstep => ⟨leaked_step h.1 h.2 hstep, known_step h.2 hstep⟩)
          (fun _ _ => trivial) ⟨leaked_of_not_findsWindow hfinds hs₁, hknown₁⟩ hrest
        exact hboth.1

/-- INTERNAL: once every stream has ended and its cleanup has run, nobody is registered for any
window if and only if no cleanup found the window of a registered client gone.
SRC: main.rs:1655-1745, engine.rs:1211-1243 -/
theorem viewports_released_iff (sessions : AList fun _ : Uuid => SessionState)
    (size : Uuid → PaneSize) (nextPane watched : Uuid) {es : List WatchingEvent} {s : Watching}
    (hrun : run step (loaded sessions size nextPane watched) es = some s) (hdone : AllDone s) :
    (∀ window client, ¬ Registered s window client) ↔
      Along step FindsWindow (loaded sessions size nextPane watched) es := by
  have hknown : Known (loaded sessions size nextPane watched) := by
    intro client stream hstream
    cases hstream
  constructor
  · intro hnone
    apply (along_or_leaked hknown hrun).resolve_right
    rintro ⟨client, stream, hstream, rfl | ⟨-, window, hwindow⟩⟩
    · cases hdone client _ hstream
    · exact hnone window client hwindow
  · intro halong window client hregistered
    have hstart : Accounted (loaded sessions size nextPane watched) := by
      rintro window client ⟨clients, hclients, -⟩
      cases hclients
    have hboth := run_invariant_along (fun s => Accounted s ∧ Known s)
      (fun s e s' h hfinds hstep => ⟨accounted_step h.1 h.2 hfinds hstep, known_step h.2 hstep⟩)
      ⟨hstart, hknown⟩ halong hrun
    obtain ⟨stream, hstream, howes⟩ := hboth.1 window client hregistered
    rw [hdone client stream hstream] at howes
    obtain howes | hdead := howes
    · cases howes
    · cases hdead

/-! ## Two runs -/

/-- A session with one window of one pane. -/
def oneSession : AList fun _ : Uuid => SessionState :=
  (∅ : AList fun _ : Uuid => SessionState).insert 1 ⟨[EngineState.newWindow 2 3], 2⟩

/-- A client attaches to the pane and sends a Resize. -/
def attachAndResize : List WatchingEvent :=
  [.attach 3, .resize 0 30 100] ++ List.replicate 9 (.stream 0)

theorem done_of_entries {s : Watching} (h : s.streams.entries = [⟨0, .done⟩]) : AllDone s := by
  intro client stream hstream
  have hmem := AList.mem_lookup_iff.mp hstream
  rw [h, List.mem_singleton] at hmem
  cases hmem
  rfl

/-- The stream ends, and its cleanup unregisters the client. -/
theorem viewports_released_cleanup :
    ∃ s, run step (loaded oneSession (fun _ => ⟨true, 24, 80⟩) 4 2)
        (attachAndResize ++ .endStream 0 :: List.replicate 11 (.stream 0)) = some s ∧
      AllDone s ∧ (∀ window client, ¬ Registered s window client) ∧
      Along step FindsWindow (loaded oneSession (fun _ => ⟨true, 24, 80⟩) 4 2)
        (attachAndResize ++ .endStream 0 :: List.replicate 11 (.stream 0)) := by
  have hrun : ((run step (loaded oneSession (fun _ => ⟨true, 24, 80⟩) 4 2)
      (attachAndResize ++ .endStream 0 :: List.replicate 11 (.stream 0))).any fun s =>
        decide (s.streams.entries = [⟨0, .done⟩] ∧ s.viewports.entries = [⟨2, []⟩])) = true := by
    decide +kernel
  obtain ⟨s, hs, hend⟩ := (Option.any_eq_true _ _).mp hrun
  obtain ⟨hstreams, hviewports⟩ := of_decide_eq_true hend
  have hdone := done_of_entries hstreams
  have hnone : ∀ window client, ¬ Registered s window client := by
    rintro window client ⟨clients, hclients, hmem⟩
    have hentry := AList.mem_lookup_iff.mp hclients
    rw [hviewports, List.mem_singleton] at hentry
    cases hentry
    cases hmem
  exact ⟨s, hs, hdone, hnone, (viewports_released_iff _ _ _ _ hs hdone).mp hnone⟩

/-- The session is killed before the stream ends. -/
theorem killedSession_keeps_viewport :
    ∃ s, run step (loaded oneSession (fun _ => ⟨true, 24, 80⟩) 4 2)
        (attachAndResize ++ [.killSession 0 1, .advance 0, .advance 0, .advance 0, .endStream 0,
          .stream 0]) = some s ∧
      AllDone s ∧ ¬ ∀ window client, ¬ Registered s window client := by
  have hrun : ((run step (loaded oneSession (fun _ => ⟨true, 24, 80⟩) 4 2)
      (attachAndResize ++ [.killSession 0 1, .advance 0, .advance 0, .advance 0, .endStream 0,
        .stream 0])).any fun s =>
        decide (s.streams.entries = [⟨0, .done⟩] ∧ s.viewports.entries = [⟨2, [(0, 30, 100)]⟩])) =
          true := by
    decide +kernel
  obtain ⟨s, hs, hend⟩ := (Option.any_eq_true _ _).mp hrun
  obtain ⟨hstreams, hviewports⟩ := of_decide_eq_true hend
  refine ⟨s, hs, done_of_entries hstreams, fun hnone => hnone 2 0 ⟨[(0, 30, 100)], ?_, by decide⟩⟩
  apply AList.mem_lookup_iff.mpr
  rw [hviewports]
  exact List.mem_singleton.mpr rfl

end Tymux.Analysis.ViewportRelease
