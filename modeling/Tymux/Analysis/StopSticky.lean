import Tymux.Analysis.SupervisionRuns

/-!
# A stopped pane stays stopped

A stop that succeeds leaves the supervisor `stopped`. Under the invariant of
`SupervisionRuns` that alone decides what can follow: no restart is pending, so `run_due`
passes the entry by, and a process that still runs has the stop flag up, so its exit is
accounted as `stopped` again. Policy changes act on `backoff` only, a budget reset on
`failed` only.
-/

set_option autoImplicit false

namespace Tymux.Analysis

open Tymux.Model Supervision

/-- Every event that is not a start or a restart of `id`: neither an operator's `start` or
`restart`, nor the spawn and registration of a new pane under that id, nor its removal. -/
def LeavesStopped (id : Uuid) : Event → Prop
  | .spawnPane _ id' => id' ≠ id
  | .registerLive id' _ _ _ _ _ => id' ≠ id
  | .registerRestored id' _ _ => id' ≠ id
  | .adoptStarted id' _ _ _ _ _ => id' ≠ id
  | .forget id' => id' ≠ id
  | .restart id' _ _ _ => id' ≠ id
  | .start id' _ => id' ≠ id
  | _ => True

/-- The pane is reported as stopped, and `n` processes have been started for it so far. -/
def StoppedWith (id : Uuid) (n : ℕ) (w : Supervision) : Prop :=
  w.stateOf id = some .stopped ∧ w.spawned.count id = n

theorem StoppedWith.touches {id id' : Uuid} {n : ℕ} {w w' : Supervision} (h : StoppedWith id n w)
    (ht : Touches id' w w') (hne : id' ≠ id) : StoppedWith id n w' := by
  refine ⟨?_, ?_⟩
  · unfold stateOf
    rw [ht.entries id hne.symm]
    exact h.1
  · rcases ht.spawned with hs | hs
    · rw [hs]
      exact h.2
    · rw [hs, List.count_cons_of_ne hne]
      exact h.2

section Steps

variable (delayMs : RestartPolicy → ℕ → F64 → ℕ)

/-- INTERNAL: what the reader thread does to the entries: nothing, or it accounts for the exit
of the pane that the entry points to.
SRC: pane.rs:613-647 -/
theorem readerStep_cases {w w' : Supervision} {a : ℕ} {code : Option ℤ} {now : ℕ} {unit : F64}
    (h : w.readerStep delayMs a code now unit = some w') :
    w'.spawned = w.spawned ∧ ((∀ id, w'.entry id = w.entry id) ∨
      ∃ p e, w.paneAt a = some p ∧ p.reader = .checked true ∧ w.entry p.id = some e ∧
        e.pane = some a ∧
        w'.entry p.id = some ⟨(e.sup.onExit delayMs now p.exitCode p.lastSignal unit).1, some a⟩ ∧
        ∀ id, id ≠ p.id → w'.entry id = w.entry id) := by
  unfold readerStep at h
  obtain ⟨p, hpa, h⟩ := Option.bind_eq_some_iff.mp h
  by_cases hr : p.reader = .checked true
  · simp only [hr] at h
    by_cases hmine : ∃ e, w.entry p.id = some e ∧ e.pane = some a
    · obtain ⟨e, he, hea⟩ := hmine
      rw [accountExit_of_entry delayMs _ _ _ he hea, paneAt_setPane_self, Option.map_some,
        Option.some_inj] at h
      subst h
      refine ⟨rfl, Or.inr ⟨p, e, hpa, hr, he, hea, ?_, ?_⟩⟩
      · simp
      · intro id hid
        simp [hid]
    · rw [accountExit_of_other delayMs hmine, hpa, Option.map_some, Option.some_inj] at h
      subst h
      exact ⟨rfl, Or.inl fun id => entry_setPane ..⟩
  · cases hphase : p.reader with
    | checked hook =>
        cases hook with
        | true => exact absurd hphase hr
        | false =>
            simp only [hphase, Option.some_inj] at h
            subst h
            exact ⟨rfl, Or.inl fun id => entry_setPane ..⟩
    | exited => simp [hphase] at h
    | _ =>
        simp only [hphase, Option.some_inj] at h
        subst h
        exact ⟨rfl, Or.inl fun id => entry_setPane ..⟩

/-- INTERNAL: a stopped supervisor has no restart pending, and its flag is up as long as a
process runs. -/
theorem stop_of_stopped {s : PaneSupervisor} (h : SupInv s) (hs : s.state = .stopped)
    (hrun : s.startedAtMs.isSome = true) : s.stopRequested = true := by
  rcases h.started hrun with hlive | hrestart | hstop
  · rw [hs] at hlive
    cases hlive
  · have := (h.restart hrestart).1
    rw [hs] at this
    cases this
  · exact hstop

/-- INTERNAL: no event but a start or a restart of the pane ends its stop.
SRC: supervision.rs:181-275, 322-462 -/
theorem stoppedWith_step {id : Uuid} {n : ℕ} {w w' : Supervision} (ev : Event)
    (hev : LeavesStopped id ev) (hw : Inv w) (h : StoppedWith id n w)
    (hstep : w.step delayMs ev = some w') : StoppedWith id n w' := by
  have hstate : ∃ e, w.entry id = some e ∧ e.sup.state = .stopped := by
    have := h.1
    unfold stateOf at this
    rwa [Option.map_eq_some_iff] at this
  obtain ⟨e, he, hstopped⟩ := hstate
  have hsup := (hw.entries id e he).sup
  cases ev with
  | spawnPane a id' =>
      simp only [step] at hstep
      split_ifs at hstep
      cases hstep
      exact ⟨h.1, (List.count_cons_of_ne hev).trans h.2⟩
  | reader a code now unit =>
      obtain ⟨hspawned, hsame | ⟨p, e', hpa, hr, he', hea, hnew, hothers⟩⟩ :=
        readerStep_cases delayMs hstep
      · refine ⟨?_, hspawned ▸ h.2⟩
        unfold stateOf
        rw [hsame id]
        exact h.1
      · refine ⟨?_, hspawned ▸ h.2⟩
        by_cases hid : id = p.id
        · subst hid
          rw [he, Option.some_inj] at he'
          subst he'
          -- the process that just died was still running for the supervisor
          have hl := hw.linked_of_pane he hea hpa
          have hrun := hl.started.mpr (Or.inr (Or.inr hr))
          have hflag := stop_of_stopped hsup hstopped hrun
          unfold stateOf
          rw [hnew]
          simp [PaneSupervisor.onExit, hflag]
        · unfold stateOf
          rw [hothers id hid]
          exact h.1
  | registerLive id' a policy now hookNow unit =>
      simp only [step] at hstep
      split_ifs at hstep with hid
      obtain ⟨p, hpa, hstep⟩ := Option.bind_eq_some_iff.mp hstep
      split_ifs at hstep with hhook
      cases hstep
      have hpid : p.id = id' := by simpa [hpa] using hid
      exact h.touches (installHook_spec delayMs hw hpa (by simpa using hhook) _ now hookNow
        unit).2 (hpid ▸ hev)
  | registerRestored id' persisted policy =>
      cases hstep
      refine ⟨?_, h.2⟩
      unfold stateOf registerRestored
      rw [entry_setEntry_of_ne w _ (Ne.symm hev)]
      exact h.1
  | adoptStarted id' a policy now hookNow unit =>
      simp only [step] at hstep
      split_ifs at hstep with hid
      obtain ⟨p, hpa, hstep⟩ := Option.bind_eq_some_iff.mp hstep
      split_ifs at hstep with hhook
      cases hstep
      have hpid : p.id = id' := by simpa [hpa] using hid
      exact h.touches (installHook_spec delayMs hw hpa (by simpa using hhook) _ now hookNow
        unit).2 (hpid ▸ hev)
  | forget id' =>
      cases hstep
      exact h.touches (forget_spec hw id').2 hev
  | runDue now due =>
      simp only [step] at hstep
      split_ifs at hstep with hdue
      cases hstep
      have hnot : id ∉ due.map Prod.fst := by
        intro hid
        have hdue' := List.of_mem_filter (hdue.mem_iff.mp hid)
        simp [isDue, he, PaneSupervisor.due, hstopped, LifecycleState.restartPending] at hdue'
      obtain ⟨hentry, hcount⟩ := (runDueLoop_spec delayMs due hw
        (hdue.nodup_iff.mpr (w.entries.keys_nodup.filter _))
        fun id' hid' => published_of_isDue (List.of_mem_filter (hdue.mem_iff.mp hid'))).2 id hnot
      refine ⟨?_, hcount.trans h.2⟩
      unfold stateOf
      rw [hentry]
      exact h.1
  | setPolicy id' policy =>
      cases hstep
      by_cases hid : id' = id
      · subst hid
        unfold setPolicy
        cases policy.validate with
        | error invalid => exact h
        | ok u =>
            have hkeep : (e.sup.setPolicy policy).state = .stopped := by
              simp [PaneSupervisor.setPolicy, hstopped]
            simp only [he]
            cases w.upgrade e with
            | none => exact ⟨by simp [stateOf, hkeep], h.2⟩
            | some ap => exact ⟨by simp [stateOf, hkeep], h.2⟩
      · exact h.touches (setPolicy_spec hw id' policy).2 hid
  | stop id' kill =>
      cases hstep
      by_cases hid : id' = id
      · subst hid
        obtain ⟨-, -, hspawned, hkeep | ⟨-, hkeep⟩⟩ := stop_spec hw id' kill
        · exact ⟨hkeep, hspawned ▸ h.2⟩
        · exact ⟨hkeep.trans h.1, hspawned ▸ h.2⟩
      · exact h.touches (stop_spec hw id' kill).2.1 hid
  | restart id' reset kill env =>
      cases hstep
      exact h.touches (restart_spec delayMs hw id' reset kill env).2 hev
  | start id' env =>
      cases hstep
      exact h.touches (start_spec delayMs hw id' env).2 hev
  | resetBudget id' =>
      cases hstep
      by_cases hid : id' = id
      · subst hid
        have hkeep : e.sup.resetBudget.state = .stopped := by
          simp [PaneSupervisor.resetBudget, hstopped]
        unfold resetBudget
        simp only [he]
        exact ⟨by simp [stateOf, hkeep], h.2⟩
      · exact h.touches (resetBudget_spec hw id').2 hid

end Steps

/-- INTERNAL: **stop is sticky.** From any reachable state, once a stop of `id` has returned
`Ok`, no sequence of other events, in any order and with any clock readings, starts a process
for `id`, and its reported state stays `stopped`, until the next start or restart of it.
SRC: restart.rs:379-555, supervision.rs:181-275, 322-462 -/
theorem stop_sticky (delayMs : RestartPolicy → ℕ → F64 → ℕ) (before : List Event)
    (w : Supervision) (hreach : Lib.run (step delayMs) init before = some w) (id : Uuid)
    (kill : Except String Unit) (outcome : SignalOutcome)
    (hstop : (w.stop id kill).2 = .ok outcome) (after : List Event)
    (hafter : ∀ ev ∈ after, LeavesStopped id ev) (w' : Supervision)
    (hrun : Lib.run (step delayMs) (w.stop id kill).1 after = some w') :
    w'.stateOf id = some .stopped ∧ w'.spawned.count id = w.spawned.count id := by
  have hw : Inv w := inv_run delayMs inv_init hreach
  obtain ⟨hinv, -, hspawned, hstopped | ⟨⟨err, herr⟩, -⟩⟩ := stop_spec hw id kill
  · have hstart : StoppedWith id (w.spawned.count id) (w.stop id kill).1 :=
      ⟨hstopped, by rw [hspawned]⟩
    have hboth : Inv w' ∧ StoppedWith id (w.spawned.count id) w' := by
      refine Lib.run_invariant (fun w => Inv w ∧ StoppedWith id _ w) (LeavesStopped id) ?_ hafter ⟨hinv, hstart⟩ hrun
      intro s ev s' hev hs hstep
      exact ⟨inv_step delayMs ev hs.1 hstep, stoppedWith_step delayMs ev hev hs.1 hs.2 hstep⟩
    exact hboth.2
  · rw [herr] at hstop
    cases hstop

/-- A pane under a policy that always restarts. -/
def registerAlways : List Event :=
  [.spawnPane 0 5, .registerLive 5 0 { RestartPolicy.default with mode := .always } 1 1 .nan]

/-- Its process dies and the timer ticks. -/
def dieAndTick : List Event :=
  [.reader 0 none 2 .nan, .reader 0 none 2 .nan, .reader 0 none 2 .nan, .reader 0 none 2 .nan,
    .runDue 9 []]

theorem stop_sticky_running :
    ∃ w w', Lib.run (step fun _ _ _ => 0) init registerAlways = some w ∧
      Lib.run (step fun _ _ _ => 0) (w.stop 5 (.ok ())).1 dieAndTick = some w' ∧
      w'.stateOf 5 = some .stopped ∧ w'.spawned.count 5 = w.spawned.count 5 := by
  refine ⟨_, _, rfl, rfl, stop_sticky (fun _ _ _ => 0) registerAlways _ rfl 5 (.ok ()) .signaled
    rfl dieAndTick ?_ _ rfl⟩
  intro ev hev
  simp only [dieAndTick, List.mem_cons, List.not_mem_nil, or_false] at hev
  rcases hev with rfl | rfl | rfl | rfl | rfl <;> trivial

end Tymux.Analysis
