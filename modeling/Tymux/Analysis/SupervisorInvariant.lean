import Tymux.Model.Restart

/-!
# What every transition of a supervisor keeps

`SupInv` relates the six fields that the transitions of `PaneSupervisor` update in different
subsets: a restart time is only set while a restart is pending and no process runs, the two
operator flags are only set while a process runs, a running process is live or has one of
the flags, and a pending restart has a time or waits for the running process.
-/

set_option autoImplicit false

namespace Tymux.Analysis

open Tymux.Model PaneSupervisor

structure SupInv (s : PaneSupervisor) : Prop where
  next : s.nextRestartAtMs.isSome → s.startedAtMs = none ∧ s.state.restartPending = true
  live : s.state = .live → s.startedAtMs.isSome
  stop : s.stopRequested = true → s.state = .stopped ∧ s.startedAtMs.isSome
  restart : s.restartRequested = true → s.state = .restarting ∧ s.startedAtMs.isSome
  started : s.startedAtMs.isSome →
    s.state = .live ∨ s.restartRequested = true ∨ s.stopRequested = true
  pending : s.state.restartPending = true →
    s.nextRestartAtMs.isSome ∨ s.restartRequested = true

/-- No process is running and no operator request waits for one. -/
structure Idle (s : PaneSupervisor) : Prop where
  started : s.startedAtMs = none
  stop : s.stopRequested = false
  restart : s.restartRequested = false

theorem SupInv.idle {s : PaneSupervisor} (h : SupInv s) (hs : s.startedAtMs = none) : Idle s where
  started := hs
  stop := by
    rw [Bool.eq_false_iff]
    intro hstop
    have := (h.stop hstop).2
    simp [hs] at this
  restart := by
    rw [Bool.eq_false_iff]
    intro hrestart
    have := (h.restart hrestart).2
    simp [hs] at this

/-- INTERNAL: an idle supervisor satisfies the invariant as soon as its restart time agrees
with its state. -/
theorem Idle.supInv {s : PaneSupervisor} (h : Idle s) (hlive : s.state ≠ .live)
    (hnext : s.nextRestartAtMs.isSome = s.state.restartPending) : SupInv s where
  next hn := ⟨h.started, hnext ▸ hn⟩
  live hl := absurd hl hlive
  stop hstop := absurd hstop (by simp [h.stop])
  restart hr := absurd hr (by simp [h.restart])
  started hs := absurd hs (by simp [h.started])
  pending hp := Or.inl (hnext ▸ hp)

theorem supInv_new (policy : RestartPolicy) : SupInv (new policy) :=
  Idle.supInv ⟨rfl, rfl, rfl⟩ (by simp [new]) rfl

theorem supInv_restore (p : PersistedRestartState) : SupInv (restore p) := by
  refine Idle.supInv ⟨rfl, rfl, rfl⟩ ?_ ?_
  · unfold restore
    cases p.state <;> simp
  · unfold restore
    cases p.state <;> rfl

theorem supInv_onStarted (s : PaneSupervisor) (now : ℕ) : SupInv (s.onStarted now) where
  next hn := by simp [onStarted] at hn
  live _ := rfl
  stop hs := by simp [onStarted] at hs
  restart hr := by simp [onStarted] at hr
  started _ := Or.inl rfl
  pending hp := by simp [onStarted, LifecycleState.restartPending] at hp

section Failure

variable (delayMs : RestartPolicy → ℕ → F64 → ℕ)

/-- INTERNAL: a failure leaves the supervisor idle, in backoff with a restart time or at rest
without one.
SRC: restart.rs:428-461 -/
theorem supInv_afterFailure {s : PaneSupervisor} (h : Idle s) (hnext : s.nextRestartAtMs = none)
    (now : ℕ) (code : Option ℤ) (ranFor : Option ℕ) (unit : F64) :
    SupInv (s.afterFailure delayMs now code ranFor unit).1 ∧
      Idle (s.afterFailure delayMs now code ranFor unit).1 := by
  rcases s.afterFailure_cases delayMs now code ranFor unit with
    heq | ⟨failures, heq | ⟨-, atMs, heq⟩⟩
  · rw [heq]
    have hidle : Idle { s with state := .exited } := ⟨h.started, h.stop, h.restart⟩
    exact ⟨hidle.supInv (by simp) (by simp [hnext, LifecycleState.restartPending]), hidle⟩
  · rw [heq]
    refine ⟨Idle.supInv ⟨h.started, h.stop, h.restart⟩ (by simp) ?_,
      ⟨h.started, h.stop, h.restart⟩⟩
    simp [hnext, LifecycleState.restartPending]
  · rw [heq]
    exact ⟨Idle.supInv ⟨h.started, h.stop, h.restart⟩ (by simp) rfl,
      ⟨h.started, h.stop, h.restart⟩⟩

/-- INTERNAL: an exit leaves the supervisor idle, whatever it was doing.
SRC: restart.rs:388-417 -/
theorem supInv_onExit (s : PaneSupervisor) (now : ℕ) (code signal : Option ℤ) (unit : F64) :
    SupInv (s.onExit delayMs now code signal unit).1 ∧
      Idle (s.onExit delayMs now code signal unit).1 := by
  unfold onExit
  dsimp only
  split_ifs with hstop hrestart
  · exact ⟨Idle.supInv ⟨rfl, rfl, rfl⟩ (by simp) rfl, ⟨rfl, rfl, rfl⟩⟩
  · have hstop' : s.stopRequested = false := by simpa using hstop
    exact ⟨Idle.supInv ⟨rfl, hstop', rfl⟩ (by simp) rfl, ⟨rfl, hstop', rfl⟩⟩
  · have hstop' : s.stopRequested = false := by simpa using hstop
    have hrestart' : s.restartRequested = false := by simpa using hrestart
    apply supInv_afterFailure delayMs _ rfl
    exact ⟨rfl, hstop', hrestart'⟩

/-- INTERNAL: a failed start leaves the supervisor idle. -/
theorem supInv_onSpawnFailed {s : PaneSupervisor} (hstop : s.stopRequested = false)
    (hrestart : s.restartRequested = false) (now : ℕ) (unit : F64) :
    SupInv (s.onSpawnFailed delayMs now unit).1 ∧ Idle (s.onSpawnFailed delayMs now unit).1 := by
  apply supInv_afterFailure delayMs _ rfl
  exact ⟨rfl, hstop, hrestart⟩

end Failure

/-- INTERNAL: an operator stop keeps the invariant: the flag goes up exactly when a process
runs.
SRC: restart.rs:487-501 -/
theorem supInv_requestStop {s : PaneSupervisor} (h : SupInv s) : SupInv s.requestStop.1 where
  next hn := by simp [requestStop] at hn
  live hl := by simp [requestStop] at hl
  stop hstop := by
    refine ⟨rfl, ?_⟩
    simp only [requestStop, Bool.or_eq_true, Bool.and_eq_true, or_self_right] at hstop
    rcases hstop with ⟨-, hstarted⟩ | hflag
    · exact hstarted
    · exact (h.stop hflag).2
  restart hr := by simp [requestStop] at hr
  started hs := by
    have hs' : s.startedAtMs.isSome = true := hs
    refine Or.inr (Or.inr ?_)
    rcases h.started hs' with hlive | hrestart | hstop
    · simp [requestStop, hlive, hs']
    · simp [requestStop, (h.restart hrestart).1, hs']
    · simp [requestStop, hstop]
  pending hp := by simp [requestStop, LifecycleState.restartPending] at hp

/-- INTERNAL: a stop signals exactly when a process runs.
SRC: restart.rs:487-501 -/
theorem requestStop_signals {s : PaneSupervisor} (h : SupInv s) :
    s.requestStop.2 = s.startedAtMs.isSome := by
  rw [Bool.eq_iff_iff]
  constructor
  · intro hsig
    simp only [requestStop, Bool.or_eq_true, Bool.and_eq_true] at hsig
    rcases hsig with ⟨-, hstarted⟩ | hflag
    · exact hstarted
    · exact (h.stop hflag).2
  · intro hs
    rcases h.started hs with hlive | hrestart | hstop
    · simp [requestStop, hlive, hs]
    · simp [requestStop, (h.restart hrestart).1, hs]
    · simp [requestStop, hstop]

/-- INTERNAL: an operator restart of a running process.
SRC: restart.rs:503-518 -/
theorem requestRestart_of_started {s : PaneSupervisor} (h : SupInv s)
    (hs : s.startedAtMs.isSome = true) (reset : Bool) :
    (s.requestRestart reset).2 = true ∧ SupInv (s.requestRestart reset).1 ∧
      (s.requestRestart reset).1.startedAtMs = s.startedAtMs := by
  have hnext : s.nextRestartAtMs = none := by
    cases hn : s.nextRestartAtMs with
    | none => rfl
    | some t =>
        have := (h.next (by simp [hn])).1
        simp [this] at hs
  cases reset <;>
  · refine ⟨by simp [requestRestart, hs], ?_, by simp [requestRestart, hs]⟩
    simp only [requestRestart, hs, if_true, if_false, Bool.false_eq_true]
    exact ⟨by simp [hnext], by simp, by simp, fun _ => ⟨rfl, hs⟩, fun _ => Or.inr (Or.inl rfl),
      fun _ => Or.inr rfl⟩

/-- INTERNAL: an operator restart with no process running only withdraws the stop request and,
if asked to, the budget.
SRC: restart.rs:503-518 -/
theorem requestRestart_of_idle {s : PaneSupervisor} (h : SupInv s) (hs : s.startedAtMs = none)
    (reset : Bool) :
    (s.requestRestart reset).2 = false ∧ SupInv (s.requestRestart reset).1 ∧
      Idle (s.requestRestart reset).1 := by
  have hidle := h.idle hs
  cases reset <;>
  · refine ⟨by simp [requestRestart, hs], ?_, ?_⟩
    · simp only [requestRestart, hs, Option.isSome_none, if_true, if_false, Bool.false_eq_true]
      refine ⟨fun hn => ⟨rfl, (h.next hn).2⟩, fun hl => ?_, by simp, fun hr => ?_, by simp,
        h.pending⟩
      · have := h.live hl
        simp [hs] at this
      · have := (h.restart hr).2
        simp [hs] at this
    · simp only [requestRestart, hs, Option.isSome_none, if_true, if_false, Bool.false_eq_true]
      exact ⟨rfl, rfl, hidle.restart⟩

theorem supInv_scheduleManualRestartNow {s : PaneSupervisor} (hs : s.startedAtMs = none)
    (now : ℕ) : SupInv (s.scheduleManualRestartNow now) :=
  Idle.supInv ⟨hs, rfl, rfl⟩ (by simp [scheduleManualRestartNow]) rfl

/-- INTERNAL: a policy change can only cancel a backoff, in which nothing runs.
SRC: restart.rs:539-555 -/
theorem supInv_setPolicy {s : PaneSupervisor} (h : SupInv s) (policy : RestartPolicy) :
    SupInv (s.setPolicy policy) ∧ (s.setPolicy policy).startedAtMs = s.startedAtMs ∧
      (s.setPolicy policy).restartRequested = s.restartRequested := by
  unfold setPolicy
  dsimp only
  split_ifs with hcancel
  · simp only [Bool.and_eq_true, decide_eq_true_eq] at hcancel
    have hb : s.state = .backoff := hcancel.1
    have hnone : s.startedAtMs = none := by
      rcases h.pending (by simp [hb, LifecycleState.restartPending]) with hn | hr
      · exact (h.next hn).1
      · have := (h.restart hr).1
        simp [hb] at this
    have hidle := h.idle hnone
    exact ⟨Idle.supInv ⟨hnone, hidle.stop, hidle.restart⟩ (by simp) rfl, rfl, rfl⟩
  · exact ⟨⟨h.next, h.live, h.stop, h.restart, h.started, h.pending⟩, rfl, rfl⟩

/-- INTERNAL: clearing the budget moves a failed pane to exited, in which nothing runs
either.
SRC: restart.rs:529-537 -/
theorem supInv_resetBudget {s : PaneSupervisor} (h : SupInv s) : SupInv s.resetBudget := by
  unfold resetBudget
  by_cases hf : s.state = .failed
  · have hnone : s.startedAtMs = none := by
      cases hs : s.startedAtMs with
      | none => rfl
      | some t =>
          rcases h.started (by simp [hs]) with hl | hr | hst
          · simp [hf] at hl
          · have := (h.restart hr).1
            simp [hf] at this
          · have := (h.stop hst).1
            simp [hf] at this
    have hnext : s.nextRestartAtMs = none := by
      cases hn : s.nextRestartAtMs with
      | none => rfl
      | some t =>
          have := (h.next (by simp [hn])).2
          simp [hf, LifecycleState.restartPending] at this
    have hidle := h.idle hnone
    refine Idle.supInv ⟨hnone, hidle.stop, hidle.restart⟩ ?_ ?_
    · simp [hf]
    · simp [hf, hnext, LifecycleState.restartPending]
  · rw [if_neg hf]
    exact ⟨h.next, h.live, h.stop, h.restart, h.started, h.pending⟩

end Tymux.Analysis
