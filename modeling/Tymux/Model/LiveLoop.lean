import Tymux.Model.Basic
import Tymux.Lib.Run

/-!
# The live loop of an attach against the reader thread

The `biased` `select!` of `attach` at the granularity of its polls, and the writer of the pane on
another OS thread. A round polls the receiver, the lifecycle events, the final exit and the
heartbeat one after the other; the writer can take any number of steps in between. The poll of the
final exit loads two flags, and once more after it has registered for a notification. If every
branch is pending the task is parked and, when woken, polls the same futures again from the top.

`sent`, `lost`, `sentAtPoll`, `sentAtExit` and `exitSeen` record the run; no step reads them.
-/

set_option autoImplicit false

namespace Tymux.Model

/-- SRC: pane.rs:91 -/
def outputChannelCapacity : ℕ := 1024

/-- What the loop sends to the client.
SRC: main.rs:835-867, 1622-1648, 655-669 -/
inductive ForwardedEvent (ε : Type) where
  | output (chunk : ℕ × List UInt8)
  | outputGap
  | lifecycle (event : ε)
  | exited (code : Option ℤ)
  | heartbeat
  deriving DecidableEq, Repr

/-- Where the task stands. -/
inductive LoopPoint (ε : Type) where
  /-- Subscribed, with the snapshot or the replay still to be sent. -/
  | priming
  | pollOutput
  | pollLifecycle
  | pollFinalExit
  /-- The two loads of a check in `wait_final_exit`; `again` if it has registered already. -/
  | loadExited (again : Bool)
  | loadRestartPending (again : Bool)
  | pollHeartbeat
  /-- `forward_tx.send(..).await` -/
  | sending (event : ForwardedEvent ε)
  | ended
  deriving DecidableEq, Repr

structure LiveLoop (ε : Type) where
  outputSeq : ℕ
  exitCode : Option ℤ
  exited : Bool
  restartPending : Bool
  outputRx : List (ℕ × List UInt8)
  lifecycleRx : List ε
  /-- A `Notified` future is registered, and whether it was notified since. -/
  waiting : Bool
  notified : Bool
  threshold : ℕ
  point : LoopPoint ε
  delivered : List (ForwardedEvent ε)
  /-- Every chunk broadcast since the subscription. -/
  sent : List (ℕ × List UInt8)
  /-- The chunks that a `Lagged` skipped. -/
  lost : List (ℕ × List UInt8)
  /-- How many chunks were broadcast when the receiver was last polled. -/
  sentAtPoll : ℕ
  /-- How many chunks were broadcast when `exited` was last stored, and of the store that the
  last successful load of it saw. -/
  sentAtExit : ℕ
  exitSeen : ℕ
  deriving DecidableEq, Repr

inductive LoopEvent (ε : Type) where
  /-- The writer has a chunk with the next number; an empty one is not broadcast. -/
  | chunk (payload : List UInt8)
  | reap (code : Option ℤ)
  | storeExited
  | respawn
  | setRestartPending (pending : Bool)
  | notifyWaiters
  | emitLifecycle (event : ε)
  | goLive (threshold : ℕ)
  /-- The task makes its next poll or load; `due` tells whether the heartbeat is. -/
  | poll (due : Bool)
  /-- The pending send to the client completes, or the client is gone. -/
  | sendOk
  | sendErr
  deriving DecidableEq, Repr

namespace LiveLoop

variable {ε : Type}

/-- A subscription to a pane that has published `outputSeq` chunks. -/
def new (outputSeq : ℕ) (exited restartPending : Bool) : LiveLoop ε where
  outputSeq
  exitCode := none
  exited
  restartPending
  outputRx := []
  lifecycleRx := []
  waiting := false
  notified := false
  threshold := 0
  point := .priming
  delivered := []
  sent := []
  lost := []
  sentAtPoll := 0
  sentAtExit := 0
  exitSeen := 0

/-! ## The pane -/

/-- SRC: pane.rs:588-598, 600-612, 781-794 -/
def chunk (s : LiveLoop ε) (payload : List UInt8) : LiveLoop ε :=
  let seq := s.outputSeq + 1
  if payload.isEmpty then { s with outputSeq := seq }
  else { s with
    outputSeq := seq
    outputRx := s.outputRx ++ [(seq, payload)]
    sent := s.sent ++ [(seq, payload)] }

/-- The last step of the reader thread.
SRC: pane.rs:641-645 -/
def storeExited (s : LiveLoop ε) : Option (LiveLoop ε) :=
  if s.exited then none else some { s with exited := true, sentAtExit := s.sent.length }

/-- SRC: pane.rs:695-711 -/
def respawn (s : LiveLoop ε) : Option (LiveLoop ε) :=
  if s.exited then some { s with exited := false, exitCode := none } else none

/-! ## The loop -/

/-- The next round creates its futures anew.
SRC: main.rs:1593-1600 -/
def nextRound (s : LiveLoop ε) : LiveLoop ε :=
  { s with point := .pollOutput, waiting := false, notified := false }

/-- SRC: main.rs:1518, 1593 -/
def goLive (s : LiveLoop ε) (threshold : ℕ) : Option (LiveLoop ε) :=
  match s.point with
  | .priming => some { s with threshold }.nextRound
  | _ => none

/-- A receiver that fell behind by more than the capacity loses the oldest chunks.
SRC: main.rs:1602-1621, 835-867 -/
def pollOutput (s : LiveLoop ε) : LiveLoop ε :=
  let s := { s with sentAtPoll := s.sent.length }
  if outputChannelCapacity < s.outputRx.length then
    let skipped := s.outputRx.length - outputChannelCapacity
    { s with
      outputRx := s.outputRx.drop skipped
      lost := s.lost ++ s.outputRx.take skipped
      point := .sending .outputGap }
  else match s.outputRx with
    | [] => { s with point := .pollLifecycle }
    | chunk :: outputRx =>
      if chunk.1 ≤ s.threshold then { s with outputRx }.nextRound
      else { s with outputRx, point := .sending (.output chunk) }

/-- SRC: main.rs:1622-1631, 767-784 -/
def pollLifecycle (s : LiveLoop ε) : LiveLoop ε :=
  match s.lifecycleRx with
  | [] => { s with point := .pollFinalExit }
  | event :: lifecycleRx => { s with lifecycleRx, point := .sending (.lifecycle event) }

/-- SRC: pane.rs:919-930 -/
def pollFinalExit (s : LiveLoop ε) : LiveLoop ε :=
  if !s.waiting then { s with point := .loadExited false }
  else if s.notified then { s with point := .loadExited false, waiting := false, notified := false }
  else { s with point := .pollHeartbeat }

/-- The check `is_exited() && !restart_pending()` failed.
SRC: pane.rs:920-928 -/
def checkFailed (s : LiveLoop ε) (again : Bool) : LiveLoop ε :=
  if again then { s with point := .pollFinalExit }
  else { s with point := .loadExited true, waiting := true, notified := false }

def loadExited (s : LiveLoop ε) (again : Bool) : LiveLoop ε :=
  if s.exited then { s with point := .loadRestartPending again, exitSeen := s.sentAtExit }
  else s.checkFailed again

/-- SRC: pane.rs:921, main.rs:1632-1641 -/
def loadRestartPending (s : LiveLoop ε) (again : Bool) : LiveLoop ε :=
  if s.restartPending then s.checkFailed again
  else { s with point := .sending (.exited s.exitCode) }

/-- SRC: main.rs:1642-1648 -/
def pollHeartbeat (s : LiveLoop ε) (due : Bool) : LiveLoop ε :=
  if due then { s with point := .sending .heartbeat } else { s with point := .pollOutput }

def poll (s : LiveLoop ε) (due : Bool) : Option (LiveLoop ε) :=
  match s.point with
  | .pollOutput => some s.pollOutput
  | .pollLifecycle => some s.pollLifecycle
  | .pollFinalExit => some s.pollFinalExit
  | .loadExited again => some (s.loadExited again)
  | .loadRestartPending again => some (s.loadRestartPending again)
  | .pollHeartbeat => some (s.pollHeartbeat due)
  | .priming | .sending _ | .ended => none

/-- SRC: main.rs:1613-1619, 1628-1640 -/
def sendOk (s : LiveLoop ε) : Option (LiveLoop ε) :=
  match s.point with
  | .sending (.exited code) =>
    some { s with delivered := s.delivered ++ [.exited code], point := .ended }
  | .sending event => some { s with delivered := s.delivered ++ [event] }.nextRound
  | _ => none

def sendErr (s : LiveLoop ε) : Option (LiveLoop ε) :=
  match s.point with
  | .sending _ => some { s with point := .ended }
  | _ => none

def step (s : LiveLoop ε) : LoopEvent ε → Option (LiveLoop ε)
  | .chunk payload => some (s.chunk payload)
  | .reap code => some { s with exitCode := code }
  | .storeExited => s.storeExited
  | .respawn => s.respawn
  | .setRestartPending pending => some { s with restartPending := pending }
  | .notifyWaiters => some { s with notified := s.waiting }
  | .emitLifecycle event => some { s with lifecycleRx := s.lifecycleRx ++ [event] }
  | .goLive threshold => s.goLive threshold
  | .poll due => s.poll due
  | .sendOk => s.sendOk
  | .sendErr => s.sendErr

end LiveLoop

end Tymux.Model
