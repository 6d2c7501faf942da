import Tymux.Model.Replay
import Mathlib.Data.List.AList

/-!
# The global budget of the replay buffers

`allocate_replay_budget` and `release_replay_budget` of `replay_buffer.rs`, at the granularity of
their atomic operations: an allocation loads the counter, computes its grant, and adds it in a second
operation. The panes keep their replay buffers with the grant as their budget; a chunk of output is
pushed with the next sequence number.
-/

set_option autoImplicit false

namespace Tymux.Model

/-- SRC: replay_buffer.rs:26 -/
def defaultReplayBufferBytes : ℕ := 256 * 1024

/-- SRC: replay_buffer.rs:30 -/
def globalReplayBufferBudgetBytes : ℕ := 64 * 1024 * 1024

/-- SRC: replay_buffer.rs:51-52 -/
def replayGrant (used : ℕ) : ℕ := min defaultReplayBufferBytes (globalReplayBufferBudgetBytes - used)

/-- The replay log of a pane. -/
structure PaneLog where
  replay : ReplayBuffer
  outputSeq : ℕ
  deriving DecidableEq, Repr

/-- What a handoff seeds a pane with. -/
structure LogSeed where
  outputSeq : ℕ
  replay : List (ℕ × List UInt8)
  deriving DecidableEq, Repr

/-- SRC: pane.rs:441-449, pane/handoff.rs:74-86 -/
def PaneLog.build (replayBudgetBytes : ℕ) : Option LogSeed → PaneLog
  | some seed => ⟨(ReplayBuffer.new replayBudgetBytes).pushAll seed.replay, seed.outputSeq⟩
  | none => ⟨.new replayBudgetBytes, 0⟩

structure BudgetState where
  /-- `GLOBAL_REPLAY_BUFFER_USED_BYTES` -/
  used : ℕ
  /-- The allocations between their two operations, with the value they loaded. -/
  allocating : AList fun _ : ℕ => ℕ
  panes : AList fun _ : ℕ => PaneLog

inductive BudgetEvent where
  | load (call : ℕ)
  /-- The pane is built with the grant; a handoff gives it a seed. -/
  | fetchAdd (call pane : ℕ) (seed : Option LogSeed)
  /-- The pane is dropped. -/
  | release (pane : ℕ)
  | push (pane : ℕ) (data : List UInt8)
  deriving DecidableEq, Repr

namespace BudgetState

def init : BudgetState where
  used := 0
  allocating := ∅
  panes := ∅

/-- SRC: replay_buffer.rs:49-61, pane.rs:440-441, pane.rs:1133, pane.rs:545-550 -/
def step (s : BudgetState) : BudgetEvent → Option BudgetState
  | .load call =>
    if call ∈ s.allocating then none
    else some { s with allocating := s.allocating.insert call s.used }
  | .fetchAdd call pane seed =>
    (s.allocating.lookup call).bind fun used =>
      if pane ∈ s.panes then none
      else some {
        used := s.used + replayGrant used
        allocating := s.allocating.erase call
        panes := s.panes.insert pane (.build (replayGrant used) seed) }
  | .release pane =>
    (s.panes.lookup pane).map fun log =>
      { s with used := s.used - log.replay.budgetBytes, panes := s.panes.erase pane }
  | .push pane data =>
    (s.panes.lookup pane).map fun log =>
      { s with
        panes := s.panes.insert pane
          ⟨log.replay.push (log.outputSeq + 1) data, log.outputSeq + 1⟩ }

/-- The budgets granted to the live panes. -/
def granted (s : BudgetState) : ℕ :=
  (s.panes.entries.map fun e => e.2.replay.budgetBytes).sum

end BudgetState

end Tymux.Model
