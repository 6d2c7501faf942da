import Tymux.Model.DaemonStartup
import Tymux.Lib.Run
import Tymux.Lib.Total

/-!
# At most one daemon listens, and the socket path names its socket

The lock keeps two daemons from being between its acquisition and their `listen` at once, and from
`listen` on the probe of `reconcile_stale_socket` finds the listener: the lock protects a socket that
nobody listens on yet, the probe one whose lock file has been swept. So no daemon takes away what
another listens on.

`Sound` is what holds of a daemon and the files, `Apart` what holds of two daemons. An outsider may
sweep the lock file and unlink the file at the socket path, but not under a daemon that relies on
them (`Considerate`).
-/

set_option autoImplicit false

namespace Tymux.Analysis

open Tymux.Model.DaemonStartup Tymux.Lib

namespace SoleListener

/-- INTERNAL: the inode that the lock file has to have, from the opening of the file to `listen`. -/
@[grind] def opened : Stage → Option ℕ
  | .acquiring (.flock lock) => some lock
  | .reconciling lock _ => some lock
  | .binding _ (.chown _) => none
  | .binding lock _ => some lock
  | _ => none

/-- INTERNAL: the socket that a daemon has bound. -/
@[grind] def bound : Stage → Option ℕ
  | .binding _ (.listen socket) => some socket
  | .binding _ (.chown socket) => some socket
  | .serving _ socket => some socket
  | _ => none

/-- INTERNAL: the second check of the directory is past. -/
@[grind] def checked : Stage → Bool
  | .binding _ (.parent _) => false
  | .binding _ _ => true
  | .serving _ _ => true
  | _ => false

/-- INTERNAL: the file at the socket path is about to be removed. -/
@[grind] def removes : Stage → Bool
  | .reconciling _ .remove => true
  | _ => false

/-- Nobody takes away the lock file while a daemon starts, nor the socket that a daemon has bound. -/
def Considerate (h : Host) : Event → Prop
  | .sweepLock => ∀ e ∈ h.daemons.entries, opened e.2.stage = none
  | .unlink => ∀ e ∈ h.daemons.entries, bound e.2.stage = none
  | _ => True

instance decidableConsiderate (h : Host) (e : Event) : Decidable (Considerate h e) := by
  cases e <;> unfold Considerate <;> infer_instance

/-- The modes that give write access to the owner alone. -/
@[grind] def Closed (dir : Directory) : Prop := dir.mode &&& 0o777 = 0o700 ∨ dir.mode &&& 0o777 = 0o750

/-- The socket path names the socket of a daemon: its owner and, while it serves, its group. -/
@[grind] def Named (h : Host) (d : Daemon) (socket : ℕ) : Prop :=
  ∃ file, h.socketFile = some file ∧ file.inode = socket ∧ file.owner = d.uid ∧
    file.mode = (if d.group.isSome then 0o660 else 0o600) ∧
    ∀ lock, d.stage = .serving lock socket → ∀ gid, d.group = some gid → file.group = gid

/-- The directory is the daemon's own, and nobody else can write it. Root gives any directory the
expected mode, so that nothing is said of the owner there. -/
@[grind] def Trusted (h : Host) (d : Daemon) : Prop :=
  ∃ dir, h.parent = some dir ∧ (d.uid ≠ 0 → dir.owner = d.uid) ∧ Closed dir

/-- INTERNAL: inodes are not used again. -/
@[grind] def Fresh (h : Host) : Prop := ∀ lock, h.lockFile = some lock → lock < h.nextInode

/-- INTERNAL -/
@[grind] structure Sound (h : Host) (d : Daemon) : Prop where
  fresh : ∀ lock, d.stage.lock = some lock → lock < h.nextInode
  lockFile : ∀ lock, opened d.stage = some lock → h.lockFile = some lock
  socket : ∀ socket, bound d.stage = some socket → Named h d socket
  parent : checked d.stage = true → Trusted h d

/-- INTERNAL -/
@[grind] structure Apart (d e : Daemon) : Prop where
  lock : ∀ lock, d.stage.lock = some lock → e.stage.lock ≠ some lock
  socket : bound d.stage = none ∨ bound e.stage = none
  removes : removes d.stage = true → bound e.stage = none
  removed : SoleListener.removes e.stage = true → bound d.stage = none

/-- INTERNAL -/
structure Inv (h : Host) : Prop where
  lockFile : Fresh h
  sound : ∀ pid d, h.daemons.lookup pid = some d → Sound h d
  apart : ∀ pid pid' d d', pid ≠ pid' → h.daemons.lookup pid = some d →
    h.daemons.lookup pid' = some d' → Apart d d'

theorem mem_locked {h : Host} {lock : ℕ} :
    lock ∈ h.locked ↔ ∃ pid d, h.daemons.lookup pid = some d ∧ d.stage.lock = some lock := by
  simp [Host.locked, mem_collect]

theorem mem_listening {h : Host} {socket : ℕ} :
    socket ∈ h.listening ↔
      ∃ pid d, h.daemons.lookup pid = some d ∧ d.stage.listener = some socket := by
  simp [Host.listening, mem_collect]

attribute [local grind] Stage.lock Stage.listener

/-! ## What the stages have to do with each other -/

theorem bound_of_listener {s : Stage} {socket : ℕ} (h : s.listener = some socket) :
    bound s = some socket ∧ checked s = true := by
  cases s with
  | binding lock b => cases b <;> grind -ring -linarith
  | _ => grind -ring -linarith

/-- INTERNAL: a socket that is bound is listened on, or its daemon still relies on the lock. -/
theorem listener_or_opened {s : Stage} {socket : ℕ} (h : bound s = some socket) :
    s.listener = some socket ∨ ∃ lock, opened s = some lock ∧ s.lock = some lock := by
  cases s with
  | binding lock b => cases b <;> grind -ring -linarith
  | _ => grind -ring -linarith

/-- INTERNAL: who has checked the directory relies on the lock or has a socket. -/
theorem opened_or_bound {s : Stage} (h : checked s = true) :
    (∃ lock, opened s = some lock) ∨ ∃ socket, bound s = some socket := by
  cases s with
  | binding lock b => cases b <;> simp_all [checked, opened, bound]
  | _ => simp_all [checked, bound]

section

variable {h : Host} {d e : Daemon}

/-- INTERNAL: two daemons do not both hold the lock on the file that both rely on. -/
theorem Apart.not_both (hapart : Apart d e) (hd : Sound h d) (he : Sound h e) {lock lock' : ℕ}
    (ho : opened d.stage = some lock) (hl : d.stage.lock = some lock)
    (ho' : opened e.stage = some lock') (hl' : e.stage.lock = some lock') : False := by
  have hfile := hd.lockFile lock ho
  have hfile' := he.lockFile lock' ho'
  exact hapart.lock lock hl (by grind -ring -linarith)

theorem Sound.unbound (hd : Sound h d) (hfree : h.socketFile = none) : bound d.stage = none := by
  cases hbound : bound d.stage with
  | none => rfl
  | some socket =>
      obtain ⟨file, hfile, -⟩ := hd.socket socket hbound
      cases hfree.symm.trans hfile

/-- INTERNAL: a daemon that does not step, while the directory stays or changes its mode. -/
theorem Sound.kept {h' : Host} (hd : Sound h d) (hlock : h'.lockFile = h.lockFile)
    (hnext : h'.nextInode = h.nextInode) (hsocket : h'.socketFile = h.socketFile)
    (hparent : ∀ dir, h.parent = some dir → ∃ dir', h'.parent = some dir' ∧
      dir'.owner = dir.owner ∧ (Closed dir → Closed dir')) : Sound h' d := by
  grind -ring -linarith

theorem Apart.symm (h : Apart d e) : Apart e d := by
  grind -ring -linarith

/-- INTERNAL: what a daemon with the lock finds refused is no other daemon's socket. Who has bound
one and does not listen on it yet would hold the lock. -/
theorem unbound_of_refused (hapart : Apart d e) (hd : Sound h d) (he : Sound h e) {lock : ℕ}
    (ho : opened d.stage = some lock) (hl : d.stage.lock = some lock)
    (hlistens : ∀ socket, e.stage.listener = some socket → socket ∈ h.listening)
    (hrefused : ∀ file, h.socketFile = some file → file.inode ∉ h.listening) :
    bound e.stage = none := by
  cases hbound : bound e.stage with
  | none => rfl
  | some socket =>
      exfalso
      obtain ⟨file, hfile, hinode, -⟩ := he.socket socket hbound
      rcases listener_or_opened hbound with hlistener | ⟨lock', hopened, hheld⟩
      · exact hrefused file hfile (hinode ▸ hlistens socket hlistener)
      · exact hapart.not_both hd he ho hl hopened hheld

/-- INTERNAL: while a daemon relies on the lock no other removes the file at the socket path. -/
theorem not_removes (hapart : Apart d e) (hd : Sound h d) (he : Sound h e) {lock : ℕ}
    (ho : opened d.stage = some lock) (hl : d.stage.lock = some lock) :
    removes e.stage = false := by
  cases hs : e.stage with
  | reconciling lock' s =>
      have hopened : opened e.stage = some lock' ∧ e.stage.lock = some lock' := by
        grind -ring -linarith
      exact absurd (hapart.not_both hd he ho hl hopened.1 hopened.2) id
  | _ => rfl

end

/-! ## A step of a daemon -/

/-- INTERNAL: a step of one daemon leaves it sound, and any other daemon sound and apart from it. -/
structure Moves (h : Host) (d : Daemon) (h' : Host) (d' : Daemon) : Prop where
  daemons : h'.daemons = h.daemons
  lockFile : Fresh h'
  sound : Sound h' d'
  others : ∀ e, Sound h e → Apart d e → (∀ lock, e.stage.lock = some lock → lock ∈ h.locked) →
    (∀ socket, e.stage.listener = some socket → socket ∈ h.listening) → Sound h' e ∧ Apart d' e

theorem Inv.moves {h h' : Host} {pid : ℕ} {d d' : Daemon} (hinv : Inv h)
    (hapart : ∀ q e, q ≠ pid → h.daemons.lookup q = some e → Apart d e)
    (hmoves : Moves h d h' d') : Inv (h'.put pid d') := by
  have hothers : ∀ q e, q ≠ pid → h.daemons.lookup q = some e → Sound h' e ∧ Apart d' e :=
    fun q e hq he => hmoves.others e (hinv.sound q e he) (hapart q e hq he)
      (fun lock hl => mem_locked.mpr ⟨q, e, he, hl⟩)
      (fun socket hs => mem_listening.mpr ⟨q, e, he, hs⟩)
  have hlookup : ∀ q e, (h'.put pid d').daemons.lookup q = some e →
      q = pid ∧ e = d' ∨ q ≠ pid ∧ h.daemons.lookup q = some e := by
    intro q e he
    unfold Host.put at he
    rw [hmoves.daemons] at he
    by_cases hq : q = pid
    · subst hq
      rw [AList.lookup_insert, Option.some_inj] at he
      exact Or.inl ⟨rfl, he.symm⟩
    · rw [AList.lookup_insert_ne hq] at he
      exact Or.inr ⟨hq, he⟩
  refine ⟨hmoves.lockFile, fun q e he => ?_, fun p q e e' hne hp hq => ?_⟩
  · have hsound : Sound h' e := by
      rcases hlookup q e he with ⟨-, rfl⟩ | ⟨hq, hold⟩
      · exact hmoves.sound
      · exact (hothers q e hq hold).1
    exact hsound.kept rfl rfl rfl fun dir hdir => ⟨dir, hdir, rfl, id⟩
  · rcases hlookup p e hp with ⟨rfl, rfl⟩ | ⟨hp', hold⟩
    · rcases hlookup q e' hq with ⟨rfl, -⟩ | ⟨hq', hold'⟩
      · exact absurd rfl hne
      · exact (hothers q e' hq' hold').2
    · rcases hlookup q e' hq with ⟨rfl, rfl⟩ | ⟨hq', hold'⟩
      · exact (hothers p e hp' hold).2.symm
      · exact hinv.apart p q e e' hne hold hold'

section

variable {h : Host} {d : Daemon} {fault : Option Fault}

theorem closed_expected (group : Option UInt32) (owner : UInt32) :
    Closed ⟨owner, expectedParentMode group⟩ := by
  cases group with
  | none => exact Or.inl (show (0o700 : UInt32) &&& 0o777 = 0o700 by decide)
  | some gid => exact Or.inr (show (0o750 : UInt32) &&& 0o777 = 0o750 by decide)

/-- INTERNAL: what the files go through in `ensure_socket_parent_dir`. The directory that is found
or made is trusted at the end. -/
theorem ensureSocketParentDir_spec (h : Host) (d : Daemon) (fault : Option Fault) (s : ParentStage) :
    let r := h.ensureSocketParentDir d fault s
    r.1.daemons = h.daemons ∧ r.1.lockFile = h.lockFile ∧ r.1.nextInode = h.nextInode ∧
      r.1.socketFile = h.socketFile ∧
      (∀ dir, h.parent = some dir → ∃ dir', r.1.parent = some dir' ∧ dir'.owner = dir.owner ∧
        (Closed dir → Closed dir')) ∧
      (r.2 = .returned () → Trusted r.1 d) := by
  have hexpected := closed_expected d.group
  have hmodes : expectedParentMode d.group = 0o700 ∨ expectedParentMode d.group = 0o750 := by
    unfold expectedParentMode
    split_ifs <;> simp
  unfold Host.ensureSocketParentDir
  cases s with
  | «exists» => grind -ring -linarith
  | inspect => cases fault <;> cases hdir : h.parent <;> grind -ring -linarith
  | create => cases fault <;> cases hdir : h.parent <;> grind -ring -linarith
  | permit => cases fault <;> cases hdir : h.parent <;> grind -ring -linarith

theorem moves_ensuring (hlock : Fresh h) (s : ParentStage) :
    let r := h.ensureSocketParentDir d fault s
    Moves h d r.1 { d with stage := r.2.next .ensuring fun _ => .acquiring .openFile } := by
  obtain ⟨hdaemons, hfile, hnext, hsocket, hparent, -⟩ := ensureSocketParentDir_spec h d fault s
  generalize h.ensureSocketParentDir d fault s = r at hdaemons hfile hnext hsocket hparent ⊢
  obtain ⟨h', call⟩ := r
  cases call <;> constructor <;> grind -ring -linarith [Call.next]

theorem moves_acquiring (hlock : Fresh h) (hd : Sound h d) {s : LockStage}
    (hs : d.stage = .acquiring s) :
    let r := h.acquireSocketLock fault s
    Moves h d r.1 { d with
      stage := r.2.next .acquiring fun lock => .reconciling lock .exists } := by
  unfold Host.acquireSocketLock
  cases s with
  | openFile =>
      cases fault <;> cases hdir : h.parent <;> cases hfile : h.lockFile <;> constructor <;>
        grind -ring -linarith [Call.next]
  | flock lock =>
      dsimp only
      split_ifs <;> constructor <;> grind -ring -linarith [Call.next]

theorem moves_reconciling (hlock : Fresh h) (hd : Sound h d) {lock : ℕ} {s : ReconcileStage}
    (hs : d.stage = .reconciling lock s) :
    let r := h.reconcileStaleSocket fault s
    Moves h d r.1 { d with
      stage := r.2.next (.reconciling lock) fun _ => .binding lock (.parent .exists) } := by
  have hopened : opened d.stage = some lock := by grind -ring -linarith
  have hheld : d.stage.lock = some lock := by grind -ring -linarith
  unfold Host.reconcileStaleSocket
  cases s with
  | «exists» =>
      dsimp only
      split_ifs <;> constructor <;> grind -ring -linarith [Call.next]
  | probe =>
      have hnobody := fun e he ha => @unbound_of_refused h d e ha hd he lock hopened hheld
      cases fault <;> cases hfile : h.socketFile <;> constructor <;>
        grind -ring -linarith [Call.next]
  | remove =>
      cases fault <;> cases hfile : h.socketFile <;> constructor <;>
        grind -ring -linarith [Call.next]

theorem mode_newUmask (group : Option UInt32) :
    0o777 &&& ~~~newUmask group = if group.isSome then 0o660 else 0o600 := by
  cases group with
  | none => exact (by decide : (0o777 : UInt32) &&& ~~~0o177 = 0o600)
  | some gid => exact (by decide : (0o777 : UInt32) &&& ~~~0o117 = 0o660)

theorem moves_binding (hlock : Fresh h) (hd : Sound h d) {lock : ℕ} {s : BindStage}
    (hs : d.stage = .binding lock s) :
    let r := h.bindUdsListener d fault s
    Moves h d r.1 { d with stage := r.2.next (.binding lock) (.serving lock) } := by
  have hheld : d.stage.lock = some lock := by grind -ring -linarith
  unfold Host.bindUdsListener
  cases s with
  | parent s =>
      obtain ⟨hdaemons, hfile, hnext, hsocket, hparent, htrusted⟩ :=
        ensureSocketParentDir_spec h d fault s
      dsimp only
      have hkept := fun e he => @Sound.kept h e _ he hfile hnext hsocket hparent
      clear hparent
      generalize h.ensureSocketParentDir d fault s = r at hdaemons hfile hnext htrusted hkept ⊢
      obtain ⟨h', call⟩ := r
      cases call <;> constructor <;> grind -ring -linarith [Call.next, Call.within]
  | bind =>
      have hopened : opened d.stage = some lock := by grind -ring -linarith
      have hmode := mode_newUmask d.group
      have hothers := fun e he ha => @not_removes h d e ha hd he lock hopened hheld
      have hnobody := fun e he => @Sound.unbound h e he
      cases fault <;> cases hdir : h.parent <;> cases hfile : h.socketFile <;> constructor <;>
        grind -ring -linarith [Call.next]
  | listen socket =>
      cases fault <;> cases hgroup : d.group <;> constructor <;> grind -ring -linarith [Call.next]
  | chown socket =>
      cases hgroup : d.group <;> rcases fault with _ | _ | errno <;> cases hfile : h.socketFile <;>
        constructor <;> grind -ring -linarith [Call.next]

theorem moves_main {h' : Host} {s : Stage} (hlock : Fresh h) (hd : Sound h d)
    (hmain : h.main d fault d.stage = some (h', s)) :
    Moves h d h' { d with stage := s } := by
  unfold Host.main at hmain
  cases hs : d.stage with
  | ensuring stage =>
      simp only [hs, Option.some_inj, Prod.mk.injEq] at hmain
      obtain ⟨rfl, rfl⟩ := hmain
      exact moves_ensuring hlock stage
  | acquiring stage =>
      simp only [hs, Option.some_inj, Prod.mk.injEq] at hmain
      obtain ⟨rfl, rfl⟩ := hmain
      exact moves_acquiring hlock hd hs
  | reconciling lock stage =>
      simp only [hs, Option.some_inj, Prod.mk.injEq] at hmain
      obtain ⟨rfl, rfl⟩ := hmain
      exact moves_reconciling hlock hd hs
  | binding lock stage =>
      simp only [hs, Option.some_inj, Prod.mk.injEq] at hmain
      obtain ⟨rfl, rfl⟩ := hmain
      exact moves_binding hlock hd hs
  | serving lock socket => simp [hs] at hmain
  | exited e => simp [hs] at hmain

end

/-! ## The other events, and runs -/

/-- INTERNAL: the files change, and the daemons do not. -/
theorem Inv.files {h h' : Host} (hinv : Inv h) (hdaemons : h'.daemons = h.daemons)
    (hlock : Fresh h') (hsound : ∀ pid d, h.daemons.lookup pid = some d → Sound h d → Sound h' d) :
    Inv h' where
  lockFile := hlock
  sound := fun pid d hd => hsound pid d (hdaemons ▸ hd) (hinv.sound pid d (hdaemons ▸ hd))
  apart := fun p q d d' hne hp hq => hinv.apart p q d d' hne (hdaemons ▸ hp) (hdaemons ▸ hq)

theorem inv_step {h h' : Host} {e : Event} (hinv : Inv h) (hcare : Considerate h e)
    (hstep : h.step e = some h') : Inv h' := by
  have hlock := hinv.lockFile
  cases e with
  | start pid uid gid umask group =>
      simp only [Host.step, Option.ite_none_right_eq_some, Option.some_inj] at hstep
      obtain ⟨hfree, rfl⟩ := hstep
      let d : Daemon := ⟨uid, gid, umask, group, .ensuring .exists⟩
      have hapart : ∀ e, Apart d e := by grind -ring -linarith
      exact hinv.moves (fun q e _ _ => hapart e) (d := d) (by constructor <;> grind -ring -linarith)
  | advance pid fault =>
      simp only [Host.step, Option.bind_eq_some_iff, Option.map_eq_some_iff] at hstep
      obtain ⟨d, hd, ⟨h₁, s⟩, hmain, rfl⟩ := hstep
      exact hinv.moves (fun q e hq he => hinv.apart pid q d e hq.symm hd he)
        (moves_main hlock (hinv.sound pid d hd) hmain)
  | halt pid =>
      simp only [Host.step, Option.some_inj] at hstep
      subst hstep
      refine ⟨hlock, fun q d hd => ?_, fun p q d d' hne hp hq => ?_⟩
      · exact (hinv.sound q d (lookup_of_erase hd).2).kept rfl rfl rfl
          fun dir hdir => ⟨dir, hdir, rfl, id⟩
      · exact hinv.apart p q d d' hne (lookup_of_erase hp).2 (lookup_of_erase hq).2
  | makeParent dir =>
      simp only [Host.step, Option.ite_none_right_eq_some, Option.some_inj] at hstep
      obtain ⟨hnone, rfl⟩ := hstep
      exact hinv.files rfl hlock fun pid d hd hsound => by grind -ring -linarith
  | removeParent =>
      simp only [Host.step, Option.ite_none_right_eq_some, Option.some_inj] at hstep
      obtain ⟨⟨hfree, hsocket⟩, rfl⟩ := hstep
      refine hinv.files rfl hlock fun pid d hd hsound => ?_
      have hneither := @opened_or_bound d.stage
      grind -ring -linarith
  | sweepLock =>
      simp only [Host.step, Option.some_inj] at hstep
      subst hstep
      refine hinv.files rfl (by simp [Fresh]) fun pid d hd hsound => ?_
      have hnone := hcare ⟨pid, d⟩ (AList.mem_lookup_iff.mp hd)
      grind -ring -linarith
  | putFile owner group mode =>
      simp only [Host.step, Option.ite_none_right_eq_some, Option.some_inj] at hstep
      obtain ⟨hnone, rfl⟩ := hstep
      refine hinv.files rfl ?_ fun pid d hd hsound => ?_ <;> grind -ring -linarith
  | unlink =>
      simp only [Host.step, Option.some_inj] at hstep
      subst hstep
      refine hinv.files rfl hlock fun pid d hd hsound => ?_
      have hnone := hcare ⟨pid, d⟩ (AList.mem_lookup_iff.mp hd)
      grind -ring -linarith

theorem inv_boot (parent : Option Directory) (lockFile : Bool) (stale : Option SocketFile) :
    Inv (boot parent lockFile stale) where
  lockFile := by
    intro lock hlock
    cases lockFile <;> simp_all [boot]
  sound := by simp [boot]
  apart := by simp [boot]

theorem inv_run {h₀ h : Host} (hinv : Inv h₀) {events : List Event}
    (hcare : Along Host.step Considerate h₀ events) (hrun : run Host.step h₀ events = some h) :
    Inv h :=
  run_invariant_along Inv (fun _ _ _ hi hc hs => inv_step hi hc hs) hinv hcare hrun

end SoleListener

open SoleListener

/-- INTERNAL: however the steps of the daemons, their failures and their ends are ordered, at most
one daemon listens at a time. The socket path names its socket, which nobody but its owner and the
configured group can open, in a directory that belongs to the owner (unless that is root) and that
only the owner can write.
SRC: auth.rs:202-427, main.rs:2007-2032 -/
theorem sole_listener {parent : Option Directory} {lockFile : Bool} {stale : Option SocketFile}
    {events : List Event} {h : Host}
    (hcare : Along Host.step Considerate (boot parent lockFile stale) events)
    (hrun : run Host.step (boot parent lockFile stale) events = some h) {pid : ℕ} {d : Daemon}
    {socket : ℕ} (hd : h.daemons.lookup pid = some d) (hlistens : d.stage.listener = some socket) :
    Named h d socket ∧ Trusted h d ∧
      ∀ pid' d', pid' ≠ pid → h.daemons.lookup pid' = some d' → d'.stage.listener = none := by
  have hinv : Inv h := inv_run (inv_boot parent lockFile stale) hcare hrun
  have hsound := hinv.sound pid d hd
  obtain ⟨hbound, hchecked⟩ := bound_of_listener hlistens
  refine ⟨hsound.socket socket hbound, hsound.parent hchecked, fun pid' d' hne hd' => ?_⟩
  cases hother : d'.stage.listener with
  | none => rfl
  | some socket' =>
      have hapart := (hinv.apart pid pid' d d' hne.symm hd hd').socket
      rw [hbound, (bound_of_listener hother).1] at hapart
      simp at hapart

/-- Two daemons race for a socket that a dead one has left. The lock file is swept when one of them
serves, and the next one to start finds the listener. -/
theorem sole_listener_race :
    let boot := boot (some ⟨1000, 0o700⟩) false (some ⟨0, 1000, 1000, 0o600⟩)
    let advance := fun pid n => List.replicate n (Event.advance pid none)
    let events := [.start 1 1000 1000 0o022 none, .start 2 1000 1000 0o022 none] ++ advance 1 4 ++
      advance 2 4 ++ advance 1 7 ++ [.sweepLock, .start 3 1000 1000 0o022 none] ++ advance 3 6
    ∃ h d, run Host.step boot events = some h ∧ h.daemons.lookup 1 = some d ∧
      d.stage = .serving 1 2 ∧
      (h.daemons.lookup 2).map Daemon.stage = some (.exited .lockHeld) ∧
      (h.daemons.lookup 3).map Daemon.stage = some (.exited .alreadyRunning) ∧
      Named h d 2 ∧ Trusted h d ∧
        ∀ pid' d', pid' ≠ 1 → h.daemons.lookup pid' = some d' → d'.stage.listener = none := by
  intro boot advance events
  have hstages : (run Host.step boot events).map (fun h => ([1, 2, 3].map fun pid =>
      (h.daemons.lookup pid).map Daemon.stage)) =
      some [some (.serving 1 2), some (.exited .lockHeld), some (.exited .alreadyRunning)] := by
    decide +kernel
  have hcare : Along Host.step Considerate boot events := by decide +kernel
  obtain ⟨h, hrun, hh⟩ := Option.map_eq_some_iff.mp hstages
  simp only [List.map_cons, List.map_nil, List.cons.injEq, and_true] at hh
  obtain ⟨hfirst, hsecond, hthird⟩ := hh
  obtain ⟨d, hd, hstage⟩ := Option.map_eq_some_iff.mp hfirst
  exact ⟨h, d, hrun, hd, hstage, hsecond, hthird, sole_listener hcare hrun hd (by rw [hstage]; rfl)⟩

end Tymux.Analysis
