import Tymux.Analysis.SoleListener

/-!
# A daemon that starts alone

While nobody else takes a step and no call of the operating system fails, a daemon that starts
serves, whatever others have left: a missing directory is made, a stale socket removed, the lock of
a process that has ended taken. It is refused for the directory it finds, for a lock that is held,
and for a listener that answers (`refusal`), and then the socket is what it was.
-/

set_option autoImplicit false

namespace Tymux.Analysis

open Tymux.Model.DaemonStartup Tymux.Lib

namespace SoleListener

/-- Another daemon is in the way. -/
def contended (h : Host) : Option StartError :=
  if ∃ lock ∈ h.lockFile, lock ∈ h.locked then some .lockHeld
  else if ∃ file ∈ h.socketFile, file.inode ∈ h.listening then some .alreadyRunning
  else none

/-- Why a daemon that starts now is refused. -/
def refusal (h : Host) (uid : UInt32) (group : Option UInt32) : Option StartError :=
  match h.parent with
  | none => contended h
  | some dir =>
    let mode := dir.mode &&& 0o777
    let expected := expectedParentMode group
    if dir.owner ≠ uid ∨ mode ≠ expected then
      some (.untrustedParent dir.owner mode uid expected)
    else contended h

/-- INTERNAL: steps of one daemon, none of which fails. -/
def Solo (pid : ℕ) (h h' : Host) : Prop :=
  ∃ n, run Host.step h (List.replicate n (.advance pid none)) = some h'

variable {h h₁ h' : Host} {pid : ℕ} {d : Daemon}

attribute [local simp] Host.main Host.ensureSocketParentDir Host.acquireSocketLock
  Host.reconcileStaleSocket Host.bindUdsListener Call.next Call.within

theorem solo_refl : Solo pid h h := ⟨0, rfl⟩

theorem solo_step {s : Stage} (h₁ : Host) (s' : Stage)
    (hmain : (h.put pid { d with stage := s }).main { d with stage := s } none s =
      some (h₁.put pid { d with stage := s }, s'))
    (hrest : Solo pid (h₁.put pid { d with stage := s' }) h') :
    Solo pid (h.put pid { d with stage := s }) h' := by
  obtain ⟨n, hn⟩ := hrest
  refine ⟨n + 1, ?_⟩
  have hfirst : (h.put pid { d with stage := s }).step (.advance pid none) =
      some (h₁.put pid { d with stage := s' }) := by
    simp only [Host.step, Host.put, AList.lookup_insert, Option.bind_some] at hmain ⊢
    rw [hmain]
    simp [AList.insert_insert]
  rw [List.replicate_succ, run_cons, hfirst]
  exact hn

theorem mem_locked_put {lock : ℕ} (hpid : h.daemons.lookup pid = none) (hd : d.stage.lock = none) :
    lock ∈ (h.put pid d).locked ↔ lock ∈ h.locked := by
  unfold Host.locked Host.put
  rw [(collect_insert_of_none d hpid).mem_iff]
  simp [hd]

theorem mem_listening_put {socket : ℕ} (hpid : h.daemons.lookup pid = none)
    (hd : d.stage.listener = none) :
    socket ∈ (h.put pid d).listening ↔ socket ∈ h.listening := by
  unfold Host.listening Host.put
  rw [(collect_insert_of_none d hpid).mem_iff]
  simp [hd]

/-- INTERNAL: the directory passes the check. -/
def Accepts (h : Host) (d : Daemon) : Prop :=
  ∃ dir, h.parent = some dir ∧ dir.owner = d.uid ∧ dir.mode &&& 0o777 = expectedParentMode d.group

theorem masked_expected (group : Option UInt32) :
    expectedParentMode group &&& 0o777 = expectedParentMode group := by
  cases group with
  | none => exact (by decide : (0o700 : UInt32) &&& 0o777 = 0o700)
  | some gid => exact (by decide : (0o750 : UInt32) &&& 0o777 = 0o750)

/-- INTERNAL: how the steps of one daemon end. -/
def Ends (h : Host) (pid : ℕ) (d : Daemon) (s : Stage) (Q : Host → Stage → Prop) : Prop :=
  ∃ h' s', Solo pid (h.put pid { d with stage := s }) (h'.put pid { d with stage := s' }) ∧ Q h' s'

theorem ends_now {s : Stage} {Q : Host → Stage → Prop} (hQ : Q h s) : Ends h pid d s Q :=
  ⟨h, s, solo_refl, hQ⟩

theorem ends_step {s : Stage} {Q : Host → Stage → Prop} (h₁ : Host) (s' : Stage)
    (hmain : (h.put pid { d with stage := s }).main { d with stage := s } none s =
      some (h₁.put pid { d with stage := s }, s'))
    (hrest : Ends h₁ pid d s' Q) : Ends h pid d s Q := by
  obtain ⟨h', t, hsolo, hQ⟩ := hrest
  exact ⟨h', t, solo_step h₁ s' hmain hsolo, hQ⟩

theorem Ends.mono {s : Stage} {Q R : Host → Stage → Prop} (hends : Ends h pid d s Q)
    (hQR : ∀ h' s', Q h' s' → R h' s') : Ends h pid d s R := by
  obtain ⟨h', s', hsolo, hQ⟩ := hends
  exact ⟨h', s', hsolo, hQR h' s' hQ⟩

def Serves (_ : Host) (s : Stage) : Prop := ∃ lock socket, s = .serving lock socket

/-- INTERNAL: the host after a successful `bind`. -/
def bindSocket (h : Host) (d : Daemon) : Host :=
  { h with
    socketFile := some ⟨h.nextInode, d.uid, d.gid, 0o777 &&& ~~~newUmask d.group⟩
    nextInode := h.nextInode + 1 }

theorem ends_binding {lock : ℕ} (hdir : Accepts h d) (hfree : h.socketFile = none) :
    Ends h pid d (.binding lock (.parent .exists)) Serves := by
  obtain ⟨dir, hparent, howner, hmode⟩ := hdir
  have hbound : Ends (bindSocket h d) pid d (.binding lock (.listen h.nextInode)) Serves := by
    cases hgroup : d.group with
    | none =>
        refine ends_step (bindSocket h d) (.serving lock h.nextInode) ?_ (ends_now ⟨_, _, rfl⟩)
        simp [hgroup]
    | some gid =>
        refine ends_step (bindSocket h d) (.binding lock (.chown h.nextInode)) ?_ ?_
        · simp [hgroup]
        · refine ends_step { bindSocket h d with
              socketFile := some ⟨h.nextInode, d.uid, gid, 0o777 &&& ~~~newUmask d.group⟩ }
            (.serving lock h.nextInode) ?_ (ends_now ⟨_, _, rfl⟩)
          simp [hgroup, bindSocket, Host.put]
  refine ends_step h (.binding lock (.parent .inspect)) ?_ ?_
  · simp [Host.put, hparent]
  refine ends_step h (.binding lock .bind) ?_ ?_
  · simp [Host.put, hparent, howner, hmode]
  refine ends_step (bindSocket h d) (.binding lock (.listen h.nextInode)) ?_ hbound
  simp [Host.put, hparent, hfree, bindSocket]

/-- INTERNAL: with the lock, a daemon is refused for a listener only. -/
theorem ends_reconciling {lock : ℕ} (hpid : h.daemons.lookup pid = none) (hdir : Accepts h d) :
    Ends h pid d (.reconciling lock .exists) fun h' s =>
      if ∃ file ∈ h.socketFile, file.inode ∈ h.listening then
        s = .exited .alreadyRunning ∧ h'.socketFile = h.socketFile
      else Serves h' s := by
  cases hfile : h.socketFile with
  | none =>
      refine ends_step h (.binding lock (.parent .exists)) ?_ ?_
      · simp [hfile]
      · simpa using ends_binding hdir hfile
  | some file =>
      have hput := @mem_listening_put h pid { d with stage := .reconciling lock .probe }
        file.inode hpid rfl
      refine ends_step h (.reconciling lock .probe) ?_ ?_
      · simp [hfile]
      by_cases hlive : file.inode ∈ h.listening
      · refine ends_step h (.exited .alreadyRunning) ?_ (ends_now ?_)
        · simp [hfile, hput, hlive]
        · simp [hlive, hfile]
      · refine ends_step h (.reconciling lock .remove) ?_ ?_
        · simp [hfile, hput, hlive]
        refine ends_step { h with socketFile := none } (.binding lock (.parent .exists)) ?_ ?_
        · simp [hfile, Host.put]
        · simpa [hlive] using ends_binding (h := { h with socketFile := none }) hdir rfl

/-- INTERNAL: how a daemon ends whose directory passes. -/
def Contends (h h' : Host) (s : Stage) : Prop :=
  (∀ e, contended h = some e → s = .exited e ∧ h'.socketFile = h.socketFile) ∧
    (contended h = none → Serves h' s)

/-- INTERNAL: the lock file is open. It may have been made for this daemon, and nobody holds it
then. -/
theorem ends_flock {lock : ℕ} (hpid : h.daemons.lookup pid = none) (hdir : Accepts h₁ d)
    (hdaemons : h₁.daemons = h.daemons) (hsocket : h₁.socketFile = h.socketFile)
    (hheld : (∃ lock ∈ h.lockFile, lock ∈ h.locked) ↔ lock ∈ h.locked) :
    Ends h₁ pid d (.acquiring (.flock lock)) (Contends h) := by
  have hpid₁ : h₁.daemons.lookup pid = none := by rw [hdaemons, hpid]
  have hlocked : h₁.locked = h.locked := by rw [Host.locked, hdaemons, Host.locked]
  have hlistening : h₁.listening = h.listening := by rw [Host.listening, hdaemons, Host.listening]
  have hput := @mem_locked_put h₁ pid { d with stage := .acquiring (.flock lock) } lock hpid₁ rfl
  rw [hlocked] at hput
  by_cases hlock : lock ∈ h.locked
  · refine ends_step h₁ (.exited .lockHeld) ?_ (ends_now ?_)
    · simp [hput, hlock]
    · have hcontended : contended h = some .lockHeld := by
        unfold contended
        rw [if_pos (hheld.mpr hlock)]
      simp [Contends, hcontended, hsocket]
  · refine ends_step h₁ (.reconciling lock .exists) ?_ ?_
    · simp [hput, hlock]
    refine (ends_reconciling hpid₁ hdir).mono fun h' s hends => ?_
    have hcontended : contended h = if ∃ file ∈ h.socketFile, file.inode ∈ h.listening then
        some .alreadyRunning else none := by
      unfold contended
      rw [if_neg (mt hheld.mp hlock)]
    rw [hsocket, hlistening] at hends
    unfold Contends
    rw [hcontended]
    split_ifs at hends ⊢ with hlive
    · simp [hends]
    · simpa using hends

theorem ends_acquiring (hinv : Inv h) (hpid : h.daemons.lookup pid = none) (hdir : Accepts h d) :
    Ends h pid d (.acquiring .openFile) (Contends h) := by
  obtain ⟨dir, hparent, -⟩ := id hdir
  cases hfile : h.lockFile with
  | some lock =>
      refine ends_step h (.acquiring (.flock lock)) ?_ ?_
      · simp [hparent, hfile]
      · exact ends_flock hpid hdir rfl rfl (by simp [hfile])
  | none =>
      let opened : Host := { h with lockFile := some h.nextInode, nextInode := h.nextInode + 1 }
      have hfree : h.nextInode ∉ h.locked := by
        intro hmem
        obtain ⟨q, e, he, hl⟩ := mem_locked.mp hmem
        exact absurd ((hinv.sound q e he).fresh _ hl) (lt_irrefl _)
      refine ends_step opened (.acquiring (.flock h.nextInode)) ?_ ?_
      · simp [hparent, hfile, opened, Host.put]
      · exact ends_flock hpid hdir rfl rfl (by simp [hfile, hfree])

/-- INTERNAL: how a daemon ends that starts now. -/
def Decided (h : Host) (d : Daemon) (h' : Host) (s : Stage) : Prop :=
  (∀ e, refusal h d.uid d.group = some e → s = .exited e ∧ h'.socketFile = h.socketFile) ∧
    (refusal h d.uid d.group = none → Serves h' s)

theorem ends_ensuring (hinv : Inv h) (hpid : h.daemons.lookup pid = none) :
    Ends h pid d (.ensuring .exists) (Decided h d) := by
  cases hparent : h.parent with
  | none =>
      let made : Host := { h with parent := some ⟨d.uid, 0o777 &&& ~~~d.umask⟩ }
      let permitted : Host := { h with parent := some ⟨d.uid, expectedParentMode d.group⟩ }
      refine ends_step h (.ensuring .create) ?_ ?_
      · simp [hparent]
      refine ends_step made (.ensuring .permit) ?_ ?_
      · simp [hparent, made, Host.put]
      refine ends_step permitted (.acquiring .openFile) ?_ ?_
      · simp [made, permitted, Host.put]
      have hinv' : Inv permitted := hinv.files rfl hinv.lockFile fun q e _ he =>
        he.kept rfl rfl rfl (by simp [hparent])
      have hrefusal : refusal h d.uid d.group = contended h := by
        unfold refusal
        rw [hparent]
      have haccepts : Accepts permitted d := ⟨_, rfl, rfl, masked_expected d.group⟩
      refine (ends_acquiring hinv' hpid haccepts).mono fun h' s hends => ?_
      unfold Decided
      rw [hrefusal]
      exact hends
  | some dir =>
      refine ends_step h (.ensuring .inspect) ?_ ?_
      · simp [hparent]
      by_cases hbad : dir.owner ≠ d.uid ∨ dir.mode &&& 0o777 ≠ expectedParentMode d.group
      · refine ends_step h (.exited (.untrustedParent dir.owner (dir.mode &&& 0o777) d.uid
          (expectedParentMode d.group))) ?_ (ends_now ?_)
        · simp only [Host.main, Host.ensureSocketParentDir, Host.put_parent, hparent, if_pos hbad,
            Call.next]
        · have hrefusal : refusal h d.uid d.group = some (.untrustedParent dir.owner
              (dir.mode &&& 0o777) d.uid (expectedParentMode d.group)) := by
            simp only [refusal, hparent, if_pos hbad]
          simp [Decided, hrefusal]
      · have hrefusal : refusal h d.uid d.group = contended h := by
          simp only [refusal, hparent, if_neg hbad]
        refine ends_step h (.acquiring .openFile) ?_ ?_
        · simp only [Host.main, Host.ensureSocketParentDir, Host.put_parent, hparent, if_neg hbad,
            Call.next]
        push Not at hbad
        refine (ends_acquiring hinv hpid ⟨dir, hparent, hbad⟩).mono fun h' s hends => ?_
        unfold Decided
        rw [hrefusal]
        exact hends

end SoleListener

open SoleListener

/-- INTERNAL: after any run, a daemon that starts and is not disturbed is refused for the reason that
`refusal` gives, and leaves the socket path alone; if there is none, it serves.
SRC: auth.rs:202-427, main.rs:2007-2032 -/
theorem starts_alone {parent : Option Directory} {lockFile : Bool} {stale : Option SocketFile}
    {events : List Event} {h : Host}
    (hcare : Along Host.step Considerate (boot parent lockFile stale) events)
    (hrun : run Host.step (boot parent lockFile stale) events = some h) (pid : ℕ)
    (hpid : h.daemons.lookup pid = none) (uid gid umask : UInt32) (group : Option UInt32) :
    ∃ n h' d, run Host.step h
        (.start pid uid gid umask group :: List.replicate n (.advance pid none)) = some h' ∧
      h'.daemons.lookup pid = some d ∧
      (∀ e, refusal h uid group = some e →
        d.stage = .exited e ∧ h'.socketFile = h.socketFile) ∧
      (refusal h uid group = none → ∃ lock socket, d.stage = .serving lock socket) := by
  have hinv : Inv h := inv_run (inv_boot parent lockFile stale) hcare hrun
  obtain ⟨h', s, ⟨n, hn⟩, hrefused, hserves⟩ :=
    ends_ensuring (d := ⟨uid, gid, umask, group, .ensuring .exists⟩) hinv hpid
  refine ⟨n, h'.put pid ⟨uid, gid, umask, group, s⟩, ⟨uid, gid, umask, group, s⟩, ?_, ?_, ?_, ?_⟩
  · rw [run_cons]
    simpa [Host.step, hpid] using hn
  · exact AList.lookup_insert h'.daemons
  · exact hrefused
  · exact hserves

/-- The daemon that serves dies after a failed one. Its socket stays behind, and the next one takes
the path over. -/
theorem starts_alone_takeover :
    let events := .start 1 1000 1000 0o022 none :: List.replicate 9 (Event.advance 1 none) ++
      [.start 2 1000 1000 0o022 none, .halt 1]
    ∃ h, run Host.step (boot none false none) events = some h ∧ h.socketFile.isSome = true ∧
      ∃ n h' d, run Host.step h
        (.start 3 1000 1000 0o022 none :: List.replicate n (.advance 3 none)) = some h' ∧
      h'.daemons.lookup 3 = some d ∧
      (∀ e, refusal h 1000 none = some e → d.stage = .exited e ∧ h'.socketFile = h.socketFile) ∧
      (refusal h 1000 none = none → ∃ lock socket, d.stage = .serving lock socket) := by
  intro events
  have hcare : Along Host.step Considerate (boot none false none) events := by decide +kernel
  have hleft : (run Host.step (boot none false none) events).map
      (fun h => (h.socketFile.isSome, (h.daemons.lookup 3).isNone)) = some (true, true) := by
    decide +kernel
  obtain ⟨h, hrun, hh⟩ := Option.map_eq_some_iff.mp hleft
  simp only [Prod.mk.injEq, Option.isNone_iff_eq_none] at hh
  exact ⟨h, hrun, hh.1, starts_alone hcare hrun 3 hh.2 1000 1000 0o022 none⟩

end Tymux.Analysis
