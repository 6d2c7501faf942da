import Tymux.Model.Signals
import Tymux.Lib.Total

/-!
# Signals and the reaping of the child

A pid that was read from `pid` is passed to `kill` in a later operation, and the reader clears `pid`
in a later operation than the `waitpid` that gave the pid back. A signal goes to a process that has
not been reaped as long as `waitpid` does not return in the first window, and nobody reads `pid` in
the second.
-/

set_option autoImplicit false

namespace Tymux.Model

/-- The pid a call was made with.
SRC: pane.rs:853 -/
def SignalPhase.pid : SignalPhase → ℕ
  | .loaded pid | .signalled pid | .unexited pid | .polling pid _ | .polledExited pid _
  | .expired pid _ | .expiredExited pid _ | .expiredGeneration pid | .confirmed pid => pid

end Tymux.Model

namespace Tymux.Analysis.Signals

open Tymux.Model Tymux.Lib

/-- What `pid` holds at each stage. -/
def Staged (s : SignalState) : Prop :=
  match s.stage with
  | .running | .stored | .bumped | .reset => s.pid = s.child.pid ∧ s.child.reaped = false
  | .waited => s.pid = s.child.pid ∧ s.child.reaped = true
  | .cleared | .exited => s.pid = 0 ∧ s.child.reaped = true
  | .spawned => s.pid = 0 ∧ s.child.reaped = false

/-- The invariant: who is about to signal is about to signal the child. -/
structure Aimed (s : SignalState) : Prop where
  staged : Staged s
  nonzero : ∀ call phase, s.calls.lookup call = some phase → phase.pid ≠ 0
  aimed : ∀ call phase, s.calls.lookup call = some phase → phase.target ≠ none →
    s.child = ⟨phase.pid, false⟩

/-- `waitpid` does not return while a signal is about to be sent, and `pid` is not read between the
return of `waitpid` and the store of 0. -/
def Unraced (s : SignalState) : SignalEvent → Prop
  | .waitpid => ∀ call phase, s.calls.lookup call = some phase → phase.target = none
  | .signalThenKill _ => s.stage ≠ .waited
  | .next call _ _ => ∀ pid, s.calls.lookup call = some (.expiredGeneration pid) → s.stage ≠ .waited
  | _ => True

/-- The event passes no pid to `kill` but that of the child, which has not been reaped. -/
def Unreaped (s : SignalState) (e : SignalEvent) : Prop :=
  ∀ pid, s.killed e = some pid → s.child = ⟨pid, false⟩

theorem aimed_init (pid : ℕ) : Aimed (.init pid) where
  staged := ⟨rfl, rfl⟩
  nonzero := fun call phase h => by cases h
  aimed := fun call phase h => by cases h

theorem target_eq {phase : SignalPhase} {pid : ℕ} (h : phase.target = some pid) :
    phase.pid = pid := by
  cases phase <;> simp_all [SignalPhase.target, SignalPhase.pid]

/-- INTERNAL: outside the window after `waitpid`, a pid that is read is that of the child, which has
not been reaped.
SRC: pane.rs:619-626, pane.rs:694-696 -/
theorem child_of_pid {s : SignalState} (hs : Staged s) (hwaited : s.stage ≠ .waited)
    (hpid : s.pid ≠ 0) : s.child = ⟨s.pid, false⟩ := by
  obtain ⟨⟨cpid, reaped⟩, stage, pid, exited, generation, calls⟩ := s
  cases stage <;> simp_all [Staged]

theorem next_pid {s : SignalState} {delivered deadline : Bool} {phase phase' : SignalPhase}
    (h : phase.next s delivered deadline = some phase') : phase'.pid = phase.pid := by
  cases phase <;> simp only [SignalPhase.next] at h
  case unexited pid =>
    cases h
    rfl
  case confirmed pid => cases h
  case polling pid thisGeneration =>
    split at h
    · cases h
      rfl
    · split at h <;> cases h
      rfl
  all_goals
    split at h <;> cases h
    rfl

/-- INTERNAL: the second `kill` is next only after `live_pid` was read and found to be the pid. -/
theorem next_target {s : SignalState} {delivered deadline : Bool} {phase phase' : SignalPhase}
    (h : phase.next s delivered deadline = some phase') (htarget : phase'.target ≠ none) :
    phase = .expiredGeneration s.pid := by
  cases phase <;> simp only [SignalPhase.next] at h
  case expiredGeneration pid =>
    split at h
    · rename_i hpid
      rw [hpid]
    · cases h
  case unexited pid =>
    cases h
    exact absurd rfl htarget
  case confirmed pid => cases h
  case polling pid thisGeneration =>
    split at h
    · cases h
      exact absurd rfl htarget
    · split at h <;> cases h
      exact absurd rfl htarget
  all_goals
    split at h <;> cases h
    exact absurd rfl htarget

/-! ## The calls -/

/-- A call or its thread moves to a phase that is aimed as well. -/
theorem aimed_setCall {s : SignalState} (hs : Aimed s) (call : ℕ) {phase : Option SignalPhase}
    (hphase : ∀ p, phase = some p → p.pid ≠ 0 ∧ (p.target ≠ none → s.child = ⟨p.pid, false⟩)) :
    Aimed (s.setCall call phase) := by
  have hcalls : ∀ c p, (s.setCall call phase).calls.lookup c = some p →
      p.pid ≠ 0 ∧ (p.target ≠ none → s.child = ⟨p.pid, false⟩) := by
    intro c p hp
    cases phase with
    | none =>
        by_cases hc : c = call
        · subst hc
          rw [SignalState.setCall, AList.lookup_erase] at hp
          cases hp
        · rw [SignalState.setCall, AList.lookup_erase_ne hc] at hp
          exact ⟨hs.nonzero c p hp, hs.aimed c p hp⟩
    | some q =>
        by_cases hc : c = call
        · subst hc
          rw [SignalState.setCall, AList.lookup_insert, Option.some_inj] at hp
          subst hp
          exact hphase q rfl
        · rw [SignalState.setCall, AList.lookup_insert_ne hc] at hp
          exact ⟨hs.nonzero c p hp, hs.aimed c p hp⟩
  cases phase with
  | none => exact ⟨hs.staged, fun c p hp => (hcalls c p hp).1, fun c p hp => (hcalls c p hp).2⟩
  | some q => exact ⟨hs.staged, fun c p hp => (hcalls c p hp).1, fun c p hp => (hcalls c p hp).2⟩

theorem aimed_signalThenKill {s s' : SignalState} (hs : Aimed s) {call : ℕ}
    (hwaited : s.stage ≠ .waited) (h : s.step (.signalThenKill call) = some s') : Aimed s' := by
  simp only [SignalState.step] at h
  split at h
  · cases h
  · split at h
    · cases h
      exact hs
    · rename_i hpid
      cases h
      apply aimed_setCall hs call
      rintro p ⟨rfl⟩
      exact ⟨hpid, fun _ => child_of_pid hs.staged hwaited hpid⟩

theorem aimed_next {s s' : SignalState} (hs : Aimed s) {call : ℕ} {delivered deadline : Bool}
    (hquiet : Unraced s (.next call delivered deadline))
    (h : s.step (.next call delivered deadline) = some s') : Aimed s' := by
  simp only [SignalState.step, Option.map_eq_some_iff] at h
  obtain ⟨phase, hphase, rfl⟩ := h
  apply aimed_setCall hs call
  intro p hp
  have hnonzero : phase.pid ≠ 0 := hs.nonzero call phase hphase
  refine ⟨next_pid hp ▸ hnonzero, fun htarget => ?_⟩
  have hlast := next_target hp htarget
  rw [hlast] at hphase hp hnonzero
  rw [next_pid hp]
  exact child_of_pid hs.staged (hquiet _ hphase) hnonzero

/-! ## The reader and the respawn -/

/-- A stage that leaves the child and the calls as they are. -/
theorem aimed_stage {s s' : SignalState} (hs : Aimed s) (hstaged : Staged s')
    (hchild : s'.child = s.child) (hcalls : s'.calls = s.calls) : Aimed s' where
  staged := hstaged
  nonzero := fun call phase h => hs.nonzero call phase (hcalls ▸ h)
  aimed := fun call phase h htarget => hchild ▸ hs.aimed call phase (hcalls ▸ h) htarget

/-- A stage that changes the child while no signal is about to be sent. -/
theorem aimed_child {s s' : SignalState} (hs : Aimed s) (hstaged : Staged s')
    (hcalls : s'.calls = s.calls)
    (hnone : ∀ call phase, s.calls.lookup call = some phase → phase.target = none) : Aimed s' where
  staged := hstaged
  nonzero := fun call phase h => hs.nonzero call phase (hcalls ▸ h)
  aimed := fun call phase h htarget => absurd (hnone call phase (hcalls ▸ h)) htarget

/-- No signal is about to be sent to a child that has been reaped. -/
theorem target_none_of_reaped {s : SignalState} (hs : Aimed s) (hreaped : s.child.reaped = true)
    (call : ℕ) (phase : SignalPhase) (h : s.calls.lookup call = some phase) : phase.target = none := by
  by_contra htarget
  rw [hs.aimed call phase h htarget] at hreaped
  cases hreaped

theorem aimed_step {s s' : SignalState} {e : SignalEvent} (hs : Aimed s) (he : Unraced s e)
    (h : s.step e = some s') : Aimed s' := by
  have hstaged := hs.staged
  cases e with
  | signalThenKill call => exact aimed_signalThenKill hs he h
  | next call delivered deadline => exact aimed_next hs he h
  | waitpid =>
      simp only [SignalState.step] at h
      split at h <;> cases h
      rename_i hstage
      simp only [Staged, hstage] at hstaged
      exact aimed_child hs ⟨hstaged.1, rfl⟩ rfl he
  | startProcess pid =>
      simp only [SignalState.step] at h
      split at h <;> cases h
      rename_i hstage
      simp only [Staged, hstage] at hstaged
      exact aimed_child hs ⟨hstaged.1, rfl⟩ rfl (target_none_of_reaped hs hstaged.2)
  | clearPid | publishExited | storePid | bumpGeneration | clearExited | startReader =>
      simp only [SignalState.step] at h
      split at h <;> cases h
      rename_i hstage
      simp only [Staged, hstage] at hstaged
      refine aimed_stage hs ?_ rfl rfl
      simp [Staged, hstaged]

theorem unreaped_of_aimed {s : SignalState} (hs : Aimed s) (e : SignalEvent) : Unreaped s e := by
  intro pid hpid
  cases e <;> simp only [SignalState.killed, reduceCtorEq] at hpid
  case next call delivered deadline =>
    rw [Option.bind_eq_some_iff] at hpid
    obtain ⟨phase, hphase, htarget⟩ := hpid
    rw [← target_eq htarget]
    apply hs.aimed call phase hphase
    rw [htarget]
    exact Option.some_ne_none pid

/-- **In a run in which neither window is hit, every signal goes to the child, and the child has not
been reaped.** -/
theorem signals_unreaped (pid : ℕ) {es : List SignalEvent}
    (hquiet : Along SignalState.step Unraced (.init pid) es) :
    Along SignalState.step Unreaped (.init pid) es := by
  apply hquiet.of_invariant (I := Aimed) _ _ (aimed_init pid)
  · intro s e s' hs he h
    exact aimed_step hs he h
  · intro s e hs _
    exact unreaped_of_aimed hs e

/-- The signal is sent before the child is reaped. -/
theorem signals_unreaped_before :
    Along SignalState.step Unreaped (.init 7) [.signalThenKill 0, .next 0 true false, .waitpid] := by
  have hphases : ∀ phase : SignalPhase, phase.target = none → ∀ call phase',
      (AList.singleton 0 phase : AList fun _ : ℕ => SignalPhase).lookup call = some phase' →
        phase'.target = none := by
    intro phase hphase call phase' h
    by_cases hcall : call = 0
    · subst hcall
      cases h
      exact hphase
    · rw [← AList.insert_empty, AList.lookup_insert_ne hcall] at h
      cases h
  apply signals_unreaped
  refine ⟨?_, fun s₁ h₁ => ?_⟩
  · exact ChildStage.noConfusion
  · cases h₁
    refine ⟨?_, fun s₂ h₂ => ?_⟩
    · intro pid h
      cases h
    · cases h₂
      exact ⟨hphases (.signalled 7) rfl, fun s₃ _ => trivial⟩

/-- The child is reaped between the load of the pid and `kill`; `pid` is loaded after the child was
reaped and before 0 is stored; the child is reaped after the last check of the escalation. -/
theorem signals_reaped :
    ¬ Along SignalState.step Unreaped (.init 7) [.signalThenKill 0, .waitpid, .next 0 true false] ∧
    ¬ Along SignalState.step Unreaped (.init 7) [.waitpid, .signalThenKill 0, .next 0 true false] ∧
    ¬ Along SignalState.step Unreaped (.init 7)
      [.signalThenKill 0, .next 0 true false, .next 0 true false, .next 0 true false,
        .next 0 true true, .next 0 true true, .next 0 true true, .next 0 true true, .waitpid,
        .next 0 true true] := by
  refine ⟨fun h => ?_, fun h => ?_, fun h => ?_⟩
  · have hlast := ((h.2 _ rfl).2 _ rfl).1 7 rfl
    cases hlast
  · have hlast := ((h.2 _ rfl).2 _ rfl).1 7 rfl
    cases hlast
  · have hlast := (((((((((h.2 _ rfl).2 _ rfl).2 _ rfl).2 _ rfl).2 _ rfl).2 _ rfl).2 _ rfl).2 _ rfl).2
      _ rfl).1 7 rfl
    cases hlast

end Tymux.Analysis.Signals
