import Tymux.Model.EngineCalls
import Tymux.Model.ReplayBudget

/-!
# The pane objects behind the calls

`split_pane` and `create_window` of `engine.rs` start a process before they look at anything. Its
`Pane` is kept alive by handles: that of the call, that of the panes map, and that of its reader
thread, which runs until the pty is closed. With the last of them `Drop` gives the budgets back. The
maps of the engine are those of `Engine`.
-/

set_option autoImplicit false

namespace Tymux.Model

/-- SRC: pane.rs:30 -/
def defaultScrollbackLines : ℕ := 5000

/-- SRC: pane.rs:34 -/
def minScrollbackLines : ℕ := 100

/-- SRC: pane.rs:42 -/
def globalScrollbackBudgetLines : ℕ := 50000

/-- SRC: pane.rs:59-62 -/
def scrollbackGrant (used : ℕ) : ℕ :=
  min defaultScrollbackLines (max (globalScrollbackBudgetLines - used) minScrollbackLines)

/-- A `Pane` with its grants.
SRC: pane.rs:109-226 -/
structure PaneObject where
  /-- The child has not exited. -/
  running : Bool
  /-- The reader thread has not ended; it owns a handle. -/
  reader : Bool
  /-- The other handles. -/
  handles : ℕ
  scrollbackLines : ℕ
  replayBudgetBytes : ℕ
  deriving DecidableEq, Repr

/-- The engine with the pane objects, by address. -/
structure Host where
  engine : Engine
  objects : AList fun _ : ℕ => PaneObject
  nextObject : ℕ
  /-- `GLOBAL_SCROLLBACK_USED_LINES` -/
  scrollbackUsed : ℕ
  /-- `GLOBAL_REPLAY_BUFFER_USED_BYTES` -/
  replayUsed : ℕ
  fresh : ∀ a, nextObject ≤ a → a ∉ objects

/-- The environment of a creation: the process may exit, and its reader thread end, before the call
returns. -/
structure CreationEnv extends LaunchEnv where
  ended : Bool

inductive Creation where
  | splitPane (target : Uuid) (orientation : Orientation)
  | createWindow (session : Uuid)
  deriving DecidableEq, Repr

namespace Host

/-- SRC: engine.rs:304-322 -/
def init : Host where
  engine := .init
  objects := ∅
  nextObject := 0
  scrollbackUsed := 0
  replayUsed := 0
  fresh _ _ := AList.notMem_empty _

/-- The object at the address is replaced. -/
def setObject (h : Host) (addr : ℕ) (o : PaneObject) (hmem : addr ∈ h.objects) : Host where
  __ := h
  objects := h.objects.insert addr o
  fresh a ha := by
    rw [AList.mem_insert]
    rintro (rfl | hin)
    · exact h.fresh a ha hmem
    · exact h.fresh a ha hin

/-- SRC: pane.rs:1116-1137 -/
def release (h : Host) (addr : ℕ) (o : PaneObject) : Host where
  __ := h
  objects := h.objects.erase addr
  scrollbackUsed := h.scrollbackUsed - o.scrollbackLines
  replayUsed := h.replayUsed - o.replayBudgetBytes
  fresh a ha := by
    rw [AList.mem_erase]
    exact fun hin => h.fresh a ha hin.2

/-- What is left of an object: nothing, if no handle is. -/
def keep (h : Host) (addr : ℕ) (o : PaneObject) (hmem : addr ∈ h.objects) : Host :=
  if o.handles = 0 ∧ !o.reader then h.release addr o else h.setObject addr o hmem

/-- The process starts; the handle is that of the call.
SRC: pane.rs:394-508 -/
def spawn (h : Host) : Host where
  __ := h
  objects := h.objects.insert h.nextObject
    ⟨true, true, 1, scrollbackGrant h.scrollbackUsed, replayGrant h.replayUsed⟩
  nextObject := h.nextObject + 1
  scrollbackUsed := h.scrollbackUsed + scrollbackGrant h.scrollbackUsed
  replayUsed := h.replayUsed + replayGrant h.replayUsed
  fresh a ha := by
    rw [AList.mem_insert]
    rintro (rfl | hin)
    · exact Nat.not_succ_le_self _ ha
    · exact h.fresh a (Nat.le_of_succ_le ha) hin

/-- The child exits and the reader thread ends.
SRC: pane.rs:600-647 -/
def endReader (h : Host) (addr : ℕ) : Host :=
  match heq : h.objects.lookup addr with
  | none => h
  | some o => h.keep addr { o with running := false, reader := false }
      (AList.lookup_isSome.mp (by rw [heq]; rfl))

/-- The panes map gets a handle of its own. -/
def cloneHandle (h : Host) (addr : ℕ) : Host :=
  match heq : h.objects.lookup addr with
  | none => h
  | some o => h.setObject addr { o with handles := o.handles + 1 }
      (AList.lookup_isSome.mp (by rw [heq]; rfl))

/-- A handle is dropped. -/
def dropHandle (h : Host) (addr : ℕ) : Host :=
  match heq : h.objects.lookup addr with
  | none => h
  | some o => h.keep addr { o with handles := o.handles - 1 }
      (AList.lookup_isSome.mp (by rw [heq]; rfl))

variable (delayMs : RestartPolicy → ℕ → F64 → ℕ)

/-- The maps after the call, with its result.
SRC: engine.rs:675-736, 851-893 -/
def callEngine (s : Engine) (env : LaunchEnv) : Creation → Option (Engine × CallResult)
  | .splitPane target orientation => s.splitPane delayMs target orientation env
  | .createWindow session => s.createWindow delayMs session env

/-- The call, until its own handle is dropped.
SRC: engine.rs:675-736, 851-893 -/
def create (h : Host) (call : Creation) (env : CreationEnv) : Option (Host × CallResult) := do
  let (engine, result) ← callEngine delayMs h.engine env.toLaunchEnv call
  match env.spawn with
  | .error _ => return ({ h with engine }, result)
  | .ok () =>
    let addr := h.nextObject
    let h := { h.spawn with engine }
    let h := match result with
      | .ok () => h.cloneHandle addr
      | .error _ => h
    let h := if env.ended then h.endReader addr else h
    return (h.dropHandle addr, result)

/-- The process of the object runs. -/
def Runs (h : Host) (addr : ℕ) : Prop := ∃ o, h.objects.lookup addr = some o ∧ o.running = true

end Host

end Tymux.Model
