import Tymux.Lib.Keyed

/-!
# Daemons that start against one socket path

`ensure_socket_parent_dir`, `acquire_socket_lock`, `reconcile_stale_socket` and `bind_uds_listener`
of `auth.rs`, in the order in which `main.rs` calls them. Any number of daemons run them at the same
time, and each of their calls of the operating system is one step. What the daemons share is the
directory of the socket, the lock file in it and what the socket path names.

A process that ends lets go of its lock and of its listener; its files stay. Besides the daemons,
anybody can make the directory while it is missing, take it away while it is empty, put a file where
none is, and remove the lock file and the file at the socket path.
-/

set_option autoImplicit false

namespace Tymux.Model

open Tymux.Lib

namespace DaemonStartup

/-- What a call ends with for a reason outside the model. -/
inductive Fault where
  | perm
  | other (errno : ℕ)
  deriving DecidableEq, Repr

inductive Errno where
  | noEnt
  | addrInUse
  | fault (f : Fault)
  deriving DecidableEq, Repr

structure Directory where
  owner : UInt32
  mode : UInt32
  deriving DecidableEq, Repr

structure SocketFile where
  inode : ℕ
  owner : UInt32
  group : UInt32
  mode : UInt32
  deriving DecidableEq, Repr

/-- Why a daemon did not start.
SRC: auth.rs:202-427, 270-276 -/
inductive StartError where
  | creation (e : Errno)
  | untrustedParent (owner mode uid expected : UInt32)
  | lockFile (e : Errno)
  | lockHeld
  | alreadyRunning
  | removal (e : Errno)
  | probe (e : Errno)
  | notAMember (gid : UInt32)
  | groupOwnership (gid : UInt32) (e : Errno)
  deriving DecidableEq, Repr

/-- SRC: auth.rs:300-344 -/
inductive ParentStage where
  | exists
  | inspect
  | create
  | permit
  deriving DecidableEq, Repr

/-- SRC: auth.rs:202-227 -/
inductive LockStage where
  | openFile
  | flock (lock : ℕ)
  deriving DecidableEq, Repr

/-- SRC: auth.rs:237-264 -/
inductive ReconcileStage where
  | exists
  | probe
  | remove
  deriving DecidableEq, Repr

/-- `UnixListener::bind` is a `bind` and a `listen`.
SRC: auth.rs:390-427 -/
inductive BindStage where
  | parent (stage : ParentStage)
  | bind
  | listen (socket : ℕ)
  | chown (socket : ℕ)
  deriving DecidableEq, Repr

/-- How far a daemon is; the lock is the inode that it has locked.
SRC: main.rs:2007-2032 -/
inductive Stage where
  | ensuring (stage : ParentStage)
  | acquiring (stage : LockStage)
  | reconciling (lock : ℕ) (stage : ReconcileStage)
  | binding (lock : ℕ) (stage : BindStage)
  | serving (lock socket : ℕ)
  | exited (error : StartError)
  deriving DecidableEq, Repr

/-- The inode that a daemon has locked. -/
def Stage.lock : Stage → Option ℕ
  | .reconciling lock _ => some lock
  | .binding lock _ => some lock
  | .serving lock _ => some lock
  | _ => none

/-- The socket on which a daemon listens. -/
def Stage.listener : Stage → Option ℕ
  | .binding _ (.chown socket) => some socket
  | .serving _ socket => some socket
  | _ => none

structure Daemon where
  uid : UInt32
  gid : UInt32
  umask : UInt32
  /-- `allowed_gid`. -/
  group : Option UInt32
  stage : Stage
  deriving DecidableEq, Repr

structure Host where
  parent : Option Directory
  /-- The inode that the path of the lock file names. -/
  lockFile : Option ℕ
  socketFile : Option SocketFile
  nextInode : ℕ
  daemons : AList fun _ : ℕ => Daemon

/-- How a call of a function that takes several steps goes on. -/
inductive Call (σ α : Type) where
  | running (stage : σ)
  | returned (value : α)
  | failed (error : StartError)

namespace Call

variable {σ τ α : Type}

/-- A call within a call. -/
def within (running : σ → τ) (returned : τ) : Call σ Unit → Call τ α
  | .running s => .running (running s)
  | .returned _ => .running returned
  | .failed e => .failed e

def next (running : σ → Stage) (returned : α → Stage) : Call σ α → Stage
  | .running s => running s
  | .returned a => returned a
  | .failed e => .exited e

end Call

/-- SRC: auth.rs:308 -/
def expectedParentMode (group : Option UInt32) : UInt32 := if group.isSome then 0o750 else 0o700

/-- SRC: auth.rs:402 -/
def newUmask (group : Option UInt32) : UInt32 := if group.isSome then 0o117 else 0o177

namespace Host

variable (h : Host)

/-- The inodes that are locked. -/
def locked : List ℕ := collect (fun _ d => d.stage.lock.toList) h.daemons

/-- The sockets that somebody listens on. -/
def listening : List ℕ := collect (fun _ d => d.stage.listener.toList) h.daemons

section

variable (d : Daemon) (fault : Option Fault)

/-- SRC: auth.rs:300-344 -/
def ensureSocketParentDir : ParentStage → Host × Call ParentStage Unit
  | .exists =>
    -- `Path::exists` is false where the path cannot be looked at
    (h, .running (if h.parent.isSome ∧ fault = none then .inspect else .create))
  | .inspect =>
    match fault, h.parent with
    | some f, _ => (h, .failed (.creation (.fault f)))
    | none, none => (h, .failed (.creation .noEnt))
    | none, some dir =>
      let mode := dir.mode &&& 0o777
      let expected := expectedParentMode d.group
      if dir.owner ≠ d.uid ∨ mode ≠ expected then
        (h, .failed (.untrustedParent dir.owner mode d.uid expected))
      else (h, .returned ())
  | .create =>
    match fault, h.parent with
    | some f, _ => (h, .failed (.creation (.fault f)))
    | none, none => ({ h with parent := some ⟨d.uid, 0o777 &&& ~~~d.umask⟩ }, .running .permit)
    | none, some _ => (h, .running .permit)
  | .permit =>
    match fault, h.parent with
    | some f, _ => (h, .failed (.creation (.fault f)))
    | none, none => (h, .failed (.creation .noEnt))
    | none, some dir =>
      if d.uid = dir.owner ∨ d.uid = 0 then
        ({ h with parent := some { dir with mode := expectedParentMode d.group } }, .returned ())
      else (h, .failed (.creation (.fault .perm)))

/-- SRC: auth.rs:202-227 -/
def acquireSocketLock : LockStage → Host × Call LockStage ℕ
  | .openFile =>
    match fault, h.parent, h.lockFile with
    | some f, _, _ => (h, .failed (.lockFile (.fault f)))
    | none, none, _ => (h, .failed (.lockFile .noEnt))
    | none, some _, some lock => (h, .running (.flock lock))
    | none, some _, none =>
      ({ h with lockFile := some h.nextInode, nextInode := h.nextInode + 1 },
        .running (.flock h.nextInode))
  | .flock lock =>
    if fault.isSome ∨ lock ∈ h.locked then (h, .failed .lockHeld) else (h, .returned lock)

/-- SRC: auth.rs:237-264 -/
def reconcileStaleSocket : ReconcileStage → Host × Call ReconcileStage Unit
  | .exists => (h, if h.socketFile.isSome ∧ fault = none then .running .probe else .returned ())
  | .probe =>
    match fault, h.socketFile with
    | some f, _ => (h, .failed (.probe (.fault f)))
    | none, none => (h, .running .remove)
    | none, some file =>
      if file.inode ∈ h.listening then (h, .failed .alreadyRunning) else (h, .running .remove)
  | .remove =>
    match fault, h.socketFile with
    | some f, _ => (h, .failed (.removal (.fault f)))
    | none, none => (h, .failed (.removal .noEnt))
    | none, some _ => ({ h with socketFile := none }, .returned ())

/-- SRC: auth.rs:390-427 -/
def bindUdsListener : BindStage → Host × Call BindStage ℕ
  | .parent s =>
    let r := h.ensureSocketParentDir d fault s
    (r.1, r.2.within .parent .bind)
  | .bind =>
    match fault, h.parent, h.socketFile with
    | some f, _, _ => (h, .failed (.creation (.fault f)))
    | none, none, _ => (h, .failed (.creation .noEnt))
    | none, some _, some _ => (h, .failed (.creation .addrInUse))
    | none, some _, none =>
      ({ h with
          socketFile := some ⟨h.nextInode, d.uid, d.gid, 0o777 &&& ~~~newUmask d.group⟩
          nextInode := h.nextInode + 1 },
        .running (.listen h.nextInode))
  | .listen socket =>
    match fault, d.group with
    | some f, _ => (h, .failed (.creation (.fault f)))
    | none, some _ => (h, .running (.chown socket))
    | none, none => (h, .returned socket)
  | .chown socket =>
    match d.group with
    | none => (h, .returned socket)
    | some gid =>
      match fault, h.socketFile with
      | some .perm, _ => (h, .failed (.notAMember gid))
      | some (.other errno), _ => (h, .failed (.groupOwnership gid (.fault (.other errno))))
      | none, none => (h, .failed (.groupOwnership gid .noEnt))
      | none, some file =>
        if d.uid = file.owner ∨ d.uid = 0 then
          ({ h with socketFile := some { file with group := gid } }, .returned socket)
        else (h, .failed (.notAMember gid))

/-- The next call of a daemon.
SRC: main.rs:2007-2032 -/
def main : Stage → Option (Host × Stage)
  | .ensuring s =>
    let r := h.ensureSocketParentDir d fault s
    some (r.1, r.2.next .ensuring fun _ => .acquiring .openFile)
  | .acquiring s =>
    let r := h.acquireSocketLock fault s
    some (r.1, r.2.next .acquiring fun lock => .reconciling lock .exists)
  | .reconciling lock s =>
    let r := h.reconcileStaleSocket fault s
    some (r.1, r.2.next (.reconciling lock) fun _ => .binding lock (.parent .exists))
  | .binding lock s =>
    let r := h.bindUdsListener d fault s
    some (r.1, r.2.next (.binding lock) (.serving lock))
  | .serving _ _ => none
  | .exited _ => none

end

def put (pid : ℕ) (d : Daemon) : Host := { h with daemons := h.daemons.insert pid d }

@[simp] theorem put_parent (pid : ℕ) (d : Daemon) : (h.put pid d).parent = h.parent := rfl

@[simp] theorem put_lockFile (pid : ℕ) (d : Daemon) : (h.put pid d).lockFile = h.lockFile := rfl

@[simp] theorem put_socketFile (pid : ℕ) (d : Daemon) :
    (h.put pid d).socketFile = h.socketFile := rfl

@[simp] theorem put_nextInode (pid : ℕ) (d : Daemon) : (h.put pid d).nextInode = h.nextInode := rfl

end Host

/-- A host on which no daemon runs, with whatever earlier ones left. -/
def boot (parent : Option Directory) (lockFile : Bool) (stale : Option SocketFile) : Host where
  parent := parent
  lockFile := if lockFile then some 0 else none
  socketFile := stale
  nextInode := 1
  daemons := ∅

inductive Event where
  | start (pid : ℕ) (uid gid umask : UInt32) (group : Option UInt32)
  | advance (pid : ℕ) (fault : Option Fault)
  /-- The process ends, however far it is. -/
  | halt (pid : ℕ)
  | makeParent (dir : Directory)
  | removeParent
  | sweepLock
  | putFile (owner group mode : UInt32)
  | unlink
  deriving DecidableEq, Repr

namespace Host

def step (h : Host) : Event → Option Host
  | .start pid uid gid umask group =>
    if (h.daemons.lookup pid).isNone then
      some (h.put pid ⟨uid, gid, umask, group, .ensuring .exists⟩)
    else none
  | .advance pid fault =>
    (h.daemons.lookup pid).bind fun d => (h.main d fault d.stage).map fun r =>
      r.1.put pid { d with stage := r.2 }
  | .halt pid => some { h with daemons := h.daemons.erase pid }
  | .makeParent dir => if h.parent.isNone then some { h with parent := some dir } else none
  | .removeParent =>
    if h.lockFile.isNone ∧ h.socketFile.isNone then some { h with parent := none } else none
  | .sweepLock => some { h with lockFile := none }
  | .putFile owner group mode =>
    if h.socketFile.isNone then
      some { h with
        socketFile := some ⟨h.nextInode, owner, group, mode⟩
        nextInode := h.nextInode + 1 }
    else none
  | .unlink => some { h with socketFile := none }

end Host

end DaemonStartup

end Tymux.Model
