import Tymux.Model.Basic
import Mathlib.Data.List.AList

/-!
# The handshake between a registration and the exit of a child

`register_live`, `adopt_started` and `install_hook` of `supervision.rs` against the exit path of the
reader thread of `pane.rs`, operation by operation. A registration holds the supervision lock from
the insertion of the entry to the end of `install_hook`; the reader thread takes only the lock of
the hook slot, until it calls the hook. Every other operation on an entry is one step, since it
holds the supervision lock and the reader of an exited pane is gone. What the supervisor decides is
left open: a registered pane may be respawned whenever its exit is published.
-/

set_option autoImplicit false

namespace Tymux.Model

/-- How far the reader thread of the current process is, with the code that it got from `wait`.
SRC: pane.rs:619-643 -/
inductive ExitPhase where
  | running
  /-- `exit_code` is stored. -/
  | stored (code : Option ℤ)
  /-- `exit_checked` is set; the flag says whether a hook was found and is yet to be called. -/
  | checked (code : Option ℤ) (hook : Bool)
  | accounted
  /-- `exited` is published. -/
  | exited
  deriving DecidableEq, Repr

/-- A pane object. The last three fields are ghosts, newest first: the calls of `on_exit` for this
pane, what `wait` returned, and the generations whose exit was published while the entry of the pane
was this object's. -/
structure HookedPane where
  id : Uuid
  reader : ExitPhase
  exitCode : Option ℤ
  hook : Bool
  exitChecked : Bool
  generation : ℕ
  calls : List (ℕ × Option ℤ)
  reaped : List (ℕ × Option ℤ)
  published : List ℕ
  deriving DecidableEq, Repr

/-- How far a registration is.
SRC: supervision.rs:100-114, supervision.rs:136-151, supervision.rs:164-174 -/
inductive RegistrationStage where
  /-- The entry points to the pane; `set_exit_hook` is next. -/
  | inserted
  /-- `set_exit_hook` has returned. -/
  | hooked (exitedBeforeHook : Bool)
  deriving DecidableEq, Repr

structure HandshakeState where
  panes : AList fun _ : ℕ => HookedPane
  /-- `Entry::pane`: the address of the pane object, `none` for the empty pointer. -/
  entries : AList fun _ : Uuid => Option ℕ
  /-- The registration that holds the supervision lock. -/
  lock : Option (ℕ × RegistrationStage)

inductive HandshakeEvent where
  | spawn (a : ℕ) (id : Uuid)
  /-- `register_live` or `adopt_started` up to `install_hook`. -/
  | register (a : ℕ)
  | setExitHook
  /-- The rest of `install_hook`. -/
  | finishHook
  | registerRestored (id : Uuid)
  | forget (id : Uuid)
  | respawn (id : Uuid)
  /-- The next operation of the reader thread; `code` is what `wait` returns. -/
  | reader (a : ℕ) (code : Option ℤ)
  deriving DecidableEq, Repr

namespace HandshakeState

def init : HandshakeState := ⟨∅, ∅, none⟩

/-- The entry of the pane's id points to this object.
SRC: supervision.rs:56-59 -/
def isPane (s : HandshakeState) (a : ℕ) (p : HookedPane) : Bool :=
  s.entries.lookup p.id = some (some a)

def setPane (s : HandshakeState) (a : ℕ) (p : HookedPane) : HandshakeState :=
  { s with panes := s.panes.insert a p }

/-- The pane after `account_exit`.
SRC: supervision.rs:181-199 -/
def accountExit (s : HandshakeState) (a : ℕ) (p : HookedPane) (code : Option ℤ) : HookedPane :=
  if s.isPane a p then { p with calls := (p.generation, code) :: p.calls } else p

/-- The reader thread's next operation on its own pane.
SRC: pane.rs:619-643 -/
def readerNext (s : HandshakeState) (a : ℕ) (code : Option ℤ) (p : HookedPane) : Option HookedPane :=
  match p.reader with
  | .running =>
    some { p with
      reader := .stored code
      exitCode := code
      reaped := (p.generation, code) :: p.reaped }
  | .stored code => some { p with reader := .checked code p.hook, exitChecked := true }
  | .checked code true =>
    -- `handle_exit` takes the supervision lock
    if s.lock = none then some { s.accountExit a p code with reader := .accounted } else none
  | .checked _ false => some { p with reader := .accounted }
  | .accounted =>
    some { p with
      reader := .exited
      published := if s.isPane a p then p.generation :: p.published else p.published }
  | .exited => none

/-- SRC: pane.rs:694-710 -/
def respawned (p : HookedPane) : HookedPane :=
  { p with
    reader := .running
    exitCode := none
    exitChecked := false
    generation := p.generation + 1 }

/-- SRC: supervision.rs:100-199, supervision.rs:201-240, pane.rs:613-733 -/
def step (s : HandshakeState) : HandshakeEvent → Option HandshakeState
  | .spawn a id =>
    if a ∈ s.panes then none
    else some (s.setPane a ⟨id, .running, none, false, false, 0, [], [], []⟩)
  | .register a =>
    (s.panes.lookup a).bind fun p =>
      -- a pane object is handed over once, right after it was spawned
      if s.lock = none ∧ p.hook = false then
        some { s with entries := s.entries.insert p.id (some a), lock := some (a, .inserted) }
      else none
  | .setExitHook =>
    match s.lock with
    | some (a, .inserted) =>
      (s.panes.lookup a).map fun p =>
        { s.setPane a { p with hook := true } with lock := some (a, .hooked p.exitChecked) }
    | _ => none
  | .finishHook =>
    match s.lock with
    | some (a, .hooked true) =>
      (s.panes.lookup a).map fun p =>
        { s.setPane a (s.accountExit a p p.exitCode) with lock := none }
    | some (_, .hooked false) => some { s with lock := none }
    | _ => none
  | .registerRestored id =>
    if s.lock = none then some { s with entries := s.entries.insert id none } else none
  | .forget id =>
    if s.lock = none then some { s with entries := s.entries.erase id } else none
  | .respawn id =>
    if s.lock = none then
      (s.entries.lookup id).join.bind fun a =>
        (s.panes.lookup a).bind fun p =>
          if p.reader = .exited then some (s.setPane a (respawned p)) else none
    else none
  | .reader a code =>
    (s.panes.lookup a).bind fun p => (s.readerNext a code p).map (s.setPane a)

end HandshakeState

end Tymux.Model
