import Tymux.Model.Creation

/-!
# What a failed creation leaves behind

`split_pane` and `create_window` return their errors after the process was started, and drop their
handle. The reader thread has a handle of its own, so the process runs on, in no window, with the
budgets that its pane was granted; only a process that could not be started, or has ended by then,
leaves nothing behind.
-/

set_option autoImplicit false

namespace Tymux.Analysis.Creations

open Tymux.Model Tymux.Model.Host

variable {delayMs : RestartPolicy → ℕ → F64 → ℕ}

/-- Processes, budgets and maps are what they were. -/
structure LeftAsBefore (h h' : Host) : Prop where
  processes : ∀ addr, h'.Runs addr ↔ h.Runs addr
  scrollback : h'.scrollbackUsed = h.scrollbackUsed
  replay : h'.replayUsed = h.replayUsed
  sessions : h'.engine.sessions = h.engine.sessions
  panes : h'.engine.panes = h.engine.panes
  supervision : h'.engine.supervision = h.engine.supervision
  paneWindow : h'.engine.paneWindow = h.engine.paneWindow
  windowSession : h'.engine.windowSession = h.engine.windowSession

/-! ## The maps -/

/-- INTERNAL: no error is returned after a map was changed.
SRC: engine.rs:675-736 -/
theorem splitPane_error {s s' : Engine} {target : Uuid} {o : Orientation} {env : LaunchEnv}
    {e : CallError} (h : s.splitPane delayMs target o env = some (s', .error e)) : s' = s := by
  unfold Engine.splitPane at h
  cases hspawn : env.spawn with
  | error message =>
      rw [hspawn] at h
      exact (Prod.mk.inj (Option.some_inj.mp h)).1.symm
  | ok u =>
      rw [hspawn] at h
      dsimp only at h
      split at h
      · exact (Prod.mk.inj (Option.some_inj.mp h)).1.symm
      · split at h
        · exact (Prod.mk.inj (Option.some_inj.mp h)).1.symm
        · obtain ⟨r, -, h⟩ := Option.bind_eq_some_iff.mp h
          cases r with
          | error err => exact (Prod.mk.inj (Option.some_inj.mp h)).1.symm
          | ok windows =>
              obtain ⟨s'', -, h⟩ := Option.bind_eq_some_iff.mp h
              cases (Prod.mk.inj (Option.some_inj.mp h)).2

/-- INTERNAL: the same for a window.
SRC: engine.rs:851-893 -/
theorem createWindow_error {s s' : Engine} {session : Uuid} {env : LaunchEnv} {e : CallError}
    (h : s.createWindow delayMs session env = some (s', .error e)) : s' = s := by
  unfold Engine.createWindow at h
  cases hspawn : env.spawn with
  | error message =>
      rw [hspawn] at h
      exact (Prod.mk.inj (Option.some_inj.mp h)).1.symm
  | ok u =>
      rw [hspawn] at h
      dsimp only at h
      split at h
      · exact (Prod.mk.inj (Option.some_inj.mp h)).1.symm
      · obtain ⟨s'', -, h⟩ := Option.bind_eq_some_iff.mp h
        cases (Prod.mk.inj (Option.some_inj.mp h)).2

theorem callEngine_error {s s' : Engine} {env : LaunchEnv} {call : Creation} {e : CallError}
    (h : callEngine delayMs s env call = some (s', .error e)) : s' = s := by
  cases call with
  | splitPane target o => exact splitPane_error h
  | createWindow session => exact createWindow_error h

/-! ## The pane object -/

theorem dropHandle_eq {h : Host} {addr : ℕ} {o : PaneObject} (ho : h.objects.lookup addr = some o)
    (hmem : addr ∈ h.objects) :
    h.dropHandle addr = h.keep addr { o with handles := o.handles - 1 } hmem := by
  unfold dropHandle
  split
  · rename_i hnone
    rw [ho] at hnone
    cases hnone
  · rename_i o' ho'
    rw [ho] at ho'
    cases ho'
    rfl

theorem endReader_eq {h : Host} {addr : ℕ} {o : PaneObject} (ho : h.objects.lookup addr = some o)
    (hmem : addr ∈ h.objects) :
    h.endReader addr = h.keep addr { o with running := false, reader := false } hmem := by
  unfold endReader
  split
  · rename_i hnone
    rw [ho] at hnone
    cases hnone
  · rename_i o' ho'
    rw [ho] at ho'
    cases ho'
    rfl

theorem lookup_spawn (h : Host) : h.spawn.objects.lookup h.nextObject =
    some ⟨true, true, 1, scrollbackGrant h.scrollbackUsed, replayGrant h.replayUsed⟩ :=
  AList.lookup_insert _

theorem mem_spawn (h : Host) : h.nextObject ∈ h.spawn.objects :=
  (AList.mem_insert _).mpr (.inl rfl)

/-- INTERNAL: the handle of the reader thread keeps the process.
SRC: pane.rs:510-516 -/
theorem runs_of_dropHandle (h : Host) : (h.spawn.dropHandle h.nextObject).Runs h.nextObject := by
  rw [dropHandle_eq (lookup_spawn h) (mem_spawn h)]
  refine ⟨⟨true, true, 0, scrollbackGrant h.scrollbackUsed, replayGrant h.replayUsed⟩, ?_, rfl⟩
  exact AList.lookup_insert _

theorem not_runs_next (h : Host) : ¬ h.Runs h.nextObject := by
  rintro ⟨o, ho, -⟩
  exact h.fresh h.nextObject le_rfl (AList.lookup_isSome.mp (by rw [ho]; rfl))

/-- INTERNAL: without a reader thread the handle of the call is the last one.
SRC: pane.rs:1116-1137 -/
theorem leftAsBefore_of_ended (h : Host) :
    LeftAsBefore h ((h.spawn.endReader h.nextObject).dropHandle h.nextObject) := by
  have hended : h.spawn.endReader h.nextObject = h.spawn.setObject h.nextObject
      ⟨false, false, 1, scrollbackGrant h.scrollbackUsed, replayGrant h.replayUsed⟩
        (mem_spawn h) := by
    rw [endReader_eq (lookup_spawn h) (mem_spawn h)]
    rfl
  have hlookup : (h.spawn.endReader h.nextObject).objects.lookup h.nextObject =
      some ⟨false, false, 1, scrollbackGrant h.scrollbackUsed, replayGrant h.replayUsed⟩ := by
    rw [hended]
    exact AList.lookup_insert _
  have hmem : h.nextObject ∈ (h.spawn.endReader h.nextObject).objects :=
    AList.lookup_isSome.mp (by rw [hlookup]; rfl)
  have hdrop : (h.spawn.endReader h.nextObject).dropHandle h.nextObject =
      (h.spawn.endReader h.nextObject).release h.nextObject
        ⟨false, false, 0, scrollbackGrant h.scrollbackUsed, replayGrant h.replayUsed⟩ := by
    rw [dropHandle_eq hlookup hmem]
    rfl
  rw [hdrop, hended]
  refine ⟨fun addr => ?_, Nat.add_sub_cancel .., Nat.add_sub_cancel .., rfl, rfl, rfl, rfl, rfl⟩
  by_cases haddr : addr = h.nextObject
  · subst haddr
    refine iff_of_false ?_ (not_runs_next h)
    rintro ⟨o, ho, -⟩
    rw [release, AList.lookup_erase] at ho
    cases ho
  · unfold Runs
    rw [release, AList.lookup_erase_ne haddr, setObject, AList.lookup_insert_ne haddr, spawn,
      AList.lookup_insert_ne haddr]

/-! ## The calls -/

/-- **What a failed creation leaves behind.** A `split_pane` or `create_window` that returns an
error leaves everything as it was exactly if its process could not be started, or has ended.
SRC: engine.rs:675-714, 851-866, pane.rs:510-516 -/
theorem failed_creation_iff {h h' : Host} {call : Creation} {env : CreationEnv} {e : CallError}
    (hcall : h.create delayMs call env = some (h', .error e)) :
    LeftAsBefore h h' ↔ (∃ message, env.spawn = .error message) ∨ env.ended = true := by
  obtain ⟨⟨engine, result⟩, hengine, hrest⟩ := Option.bind_eq_some_iff.mp hcall
  cases hspawn : env.spawn with
  | error message =>
      simp only [hspawn] at hrest
      obtain ⟨rfl, rfl⟩ := Prod.mk.inj (Option.some_inj.mp hrest)
      obtain rfl := callEngine_error hengine
      refine iff_of_true ?_ (.inl ⟨message, rfl⟩)
      exact ⟨fun _ => .rfl, rfl, rfl, rfl, rfl, rfl, rfl, rfl⟩
  | ok u =>
      simp only [hspawn] at hrest
      obtain ⟨rfl, rfl⟩ := Prod.mk.inj (Option.some_inj.mp hrest)
      obtain rfl := callEngine_error hengine
      by_cases hended : env.ended = true
      · rw [if_pos hended]
        exact iff_of_true (leftAsBefore_of_ended h) (.inr hended)
      · rw [if_neg hended]
        refine iff_of_false (fun hsame => ?_) ?_
        · exact not_runs_next h ((hsame.processes _).mp (runs_of_dropHandle h))
        · rintro (⟨message, herror⟩ | hyes)
          · cases herror
          · exact hended hyes

/-- A shell that runs on. -/
def shellStarts : CreationEnv where
  now := 0
  spawn := .ok ()
  unit := .finite 0
  hookNow := 0
  ended := false

/-- The window of a session that does not exist. -/
theorem failed_creation_window :
    LeftAsBefore .init (Host.init.spawn.dropHandle 0) ↔
      (∃ message, shellStarts.spawn = .error message) ∨ shellStarts.ended = true :=
  @failed_creation_iff (fun _ _ _ => 0) .init _ (.createWindow 7) shellStarts (.sessionNotFound 7)
    rfl

theorem failed_creation_leaves_process :
    ¬ ∀ (h h' : Host) (call : Creation) (env : CreationEnv) (e : CallError),
      h.create (fun _ _ _ => 0) call env = some (h', .error e) → LeftAsBefore h h' := by
  intro hclaim
  have hsame := hclaim .init _ (.createWindow 7) shellStarts (.sessionNotFound 7) rfl
  exact not_runs_next .init ((hsame.processes 0).mp (runs_of_dropHandle .init))

end Tymux.Analysis.Creations
