import Tymux.Model.Replay
import Tymux.Lib.Run

/-!
# Output of a pane and one attach stream

The one writer of a pane's output (the reader thread, or between two processes the supervisor
through `inject_output`), the replay buffer, the broadcast channel, and one `attach` of a
client, at the granularity of their locks. The writer takes a chunk with the next sequence
number, pushes it to the replay buffer, bumps `output_seq` and broadcasts it, in that order;
the push and the bump are under the replay lock, and but for the release of held bytes at the
end of the process the parser lock is held from the start until both are done. The attach
subscribes, reads the replay buffer or takes a snapshot, and then forwards.

The receiver's queue holds what was sent after the subscription, in order. `history` is a
record of every chunk pushed; no step reads it.
-/

set_option autoImplicit false

namespace Tymux.Model

/-- A chunk of output: what the replay buffer gets, what subscribers get, and whether it is
broadcast at all. -/
structure Chunk where
  seq : ℕ
  data : List UInt8
  payload : List UInt8
  announced : Bool
  deriving DecidableEq, Repr

/-- A chunk on its way through the writer: whether the parser lock is held for it, and whether
the reader thread goes on reading afterwards. -/
structure InFlight where
  chunk : Chunk
  locksParser : Bool
  running : Bool
  deriving DecidableEq, Repr

inductive Writer where
  /-- Between chunks; `running` tells whether the reader thread reads. -/
  | idle (running : Bool)
  /-- The sequence number is taken. -/
  | prepared (f : InFlight)
  /-- Pushed, with the replay lock held. -/
  | pushed (f : InFlight)
  /-- The sequence number is published, the locks are free. -/
  | sending (f : InFlight)
  deriving DecidableEq, Repr

namespace Writer

def holdsReplayLock : Writer → Bool
  | pushed _ => true
  | _ => false

def holdsParserLock : Writer → Bool
  | prepared f => f.locksParser
  | pushed f => f.locksParser
  | _ => false

end Writer

/-- SRC: main.rs:1439-1650 -/
inductive AttachPhase where
  | connecting
  | subscribed
  /-- `replay_since` answered `GapExceeded`; the snapshot follows. -/
  | gapExceeded
  /-- The replayed chunks still to be sent, and the threshold for the live loop. -/
  | draining (replayChunks : List (ℕ × List UInt8)) (liveThresholdSeq : ℕ)
  /-- The live loop; `polled` if this round of its `select!` found the receiver empty and has
  its other branches still to poll. -/
  | live (liveThresholdSeq : ℕ) (polled : Bool)
  | ended
  deriving DecidableEq, Repr

structure PaneStream where
  replay : ReplayBuffer
  outputSeq : ℕ
  writer : Writer
  history : List Chunk
  /-- `resume_from_seq` of the request. -/
  resumeFromSeq : Option ℕ
  phase : AttachPhase
  outputRx : List (ℕ × List UInt8)
  /-- The output the client got. -/
  delivered : List (ℕ × List UInt8)
  /-- What the client had before: its resume point, or the seq of its snapshot. -/
  base : ℕ
  deriving DecidableEq, Repr

/-- A fresh pane, and a client about to attach. -/
def PaneStream.new (budgetBytes : ℕ) (resumeFromSeq : Option ℕ) : PaneStream where
  replay := .new budgetBytes
  outputSeq := 0
  writer := .idle true
  history := []
  resumeFromSeq
  phase := .connecting
  outputRx := []
  delivered := []
  base := 0

inductive StreamEvent where
  /-- The reader thread reads: the chunk as scanned, and whether the daemon answers queries. -/
  | read (stripped raw : List UInt8) (daemonAnswers : Bool)
  /-- The process is gone; `rest` are the bytes that the scanner still held. -/
  | eof (rest : List UInt8)
  | inject (data : List UInt8)
  | respawn
  /-- The daemon is replaced by a new one, which rebuilds the pane. -/
  | handoff (budgetBytes : ℕ)
  | push
  | bump
  | send
  | subscribe
  | replaySince
  | snapshot
  | forwardReplay
  | recv
  | pollEmpty
  /-- The lifecycle or the heartbeat branch, or a wake-up: the `select!` starts over. -/
  | nextRound
  | lagged (skipped : ℕ)
  | disconnect
  | finalExit
  deriving DecidableEq, Repr

/-- The receiver reports a lag, or the client goes away. -/
def StreamEvent.disturbs : StreamEvent → Bool
  | lagged _ | disconnect => true
  | _ => false

namespace PaneStream

/-! ## The writer -/

/-- SRC: pane.rs:564-592 -/
def read (w : PaneStream) (stripped raw : List UInt8) (daemonAnswers : Bool) :
    Option PaneStream :=
  if w.writer = .idle true then
    let payload := if daemonAnswers then stripped else raw
    some { w with
      writer := .prepared
        ⟨⟨w.outputSeq + 1, stripped, payload, !payload.isEmpty⟩, true, true⟩ }
  else none

/-- SRC: pane.rs:600-612 -/
def eof (w : PaneStream) (rest : List UInt8) : Option PaneStream :=
  if w.writer = .idle true then
    if rest.isEmpty then some { w with writer := .idle false }
    else some { w with
      writer := .prepared ⟨⟨w.outputSeq + 1, rest, rest, true⟩, false, false⟩ }
  else none

/-- SRC: pane.rs:781-794 -/
def inject (w : PaneStream) (data : List UInt8) : Option PaneStream :=
  if w.writer = .idle false then
    some { w with writer := .prepared ⟨⟨w.outputSeq + 1, data, data, true⟩, true, false⟩ }
  else none

/-- SRC: pane.rs:663-712 -/
def respawn (w : PaneStream) : Option PaneStream :=
  if w.writer = .idle false then some { w with writer := .idle true } else none

/-- Reads are frozen, so the writer is idle, and no stream of the old daemon survives.
SRC: pane/handoff.rs:62-86, 354-357 -/
def handoff (w : PaneStream) (budgetBytes : ℕ) : Option PaneStream :=
  if w.writer = .idle true ∧ w.phase = .connecting then
    some { w with replay := (ReplayBuffer.new budgetBytes).pushAll w.replay.entries }
  else none

/-- SRC: pane.rs:578-579, 607-608, 788-789 -/
def push (w : PaneStream) : Option PaneStream :=
  match w.writer with
  | .prepared f => some { w with
      replay := w.replay.push f.chunk.seq f.chunk.data
      writer := .pushed f
      history := w.history ++ [f.chunk] }
  | _ => none

/-- SRC: pane.rs:582, 609, 790 -/
def bump (w : PaneStream) : Option PaneStream :=
  match w.writer with
  | .pushed f => some { w with outputSeq := w.outputSeq + 1, writer := .sending f }
  | _ => none

/-- A receiver gets a value only if it is subscribed when the value is sent.
SRC: pane.rs:596-598, 611, 793 -/
def send (w : PaneStream) : Option PaneStream :=
  match w.writer with
  | .sending f =>
    let w := { w with writer := .idle f.running }
    if f.chunk.announced = true ∧ w.phase ≠ .connecting then
      some { w with outputRx := w.outputRx ++ [(f.chunk.seq, f.chunk.payload)] }
    else some w
  | _ => none

/-! ## The attach -/

/-- SRC: main.rs:1452 -/
def subscribe (w : PaneStream) : Option PaneStream :=
  if w.phase = .connecting then some { w with phase := .subscribed, outputRx := [] } else none

/-- SRC: main.rs:1463-1517, pane.rs:1025-1030 -/
def replaySince (w : PaneStream) : Option PaneStream :=
  match w.phase, w.resumeFromSeq with
  | .subscribed, some seq =>
    if w.writer.holdsReplayLock then none
    else match w.replay.replaySince seq w.outputSeq with
      | .inWindow chunks tailSeq =>
        some { w with phase := .draining chunks tailSeq, base := seq }
      | .gapExceeded _ => some { w with phase := .gapExceeded }
  | _, _ => none

/-- SRC: main.rs:1507-1528, pane.rs:1066-1081 -/
def snapshot (w : PaneStream) : Option PaneStream :=
  if (w.phase = .subscribed ∧ w.resumeFromSeq = none ∨ w.phase = .gapExceeded) ∧
      w.writer.holdsParserLock = false then
    some { w with phase := .live w.outputSeq false, base := w.outputSeq }
  else none

/-- SRC: main.rs:1558-1579 -/
def forwardReplay (w : PaneStream) : Option PaneStream :=
  match w.phase with
  | .draining (chunk :: replayChunks) threshold =>
    some { w with
      phase := .draining replayChunks threshold
      delivered := w.delivered ++ [chunk] }
  | .draining [] threshold => some { w with phase := .live threshold false }
  | _ => none

/-- SRC: main.rs:1602-1621, 835-867 -/
def recv (w : PaneStream) : Option PaneStream :=
  match w.phase, w.outputRx with
  | .live threshold false, chunk :: outputRx =>
    if chunk.1 ≤ threshold then some { w with outputRx }
    else some { w with outputRx, delivered := w.delivered ++ [chunk] }
  | _, _ => none

/-- SRC: main.rs:1600-1602 -/
def pollEmpty (w : PaneStream) : Option PaneStream :=
  match w.phase, w.outputRx with
  | .live threshold false, [] => some { w with phase := .live threshold true }
  | _, _ => none

/-- SRC: main.rs:1622-1631, 1642-1648 -/
def nextRound (w : PaneStream) : Option PaneStream :=
  match w.phase with
  | .live threshold true => some { w with phase := .live threshold false }
  | _ => none

/-- SRC: main.rs:859-864 -/
def lagged (w : PaneStream) (skipped : ℕ) : Option PaneStream :=
  match w.phase with
  | .live _ false => some { w with outputRx := w.outputRx.drop skipped }
  | _ => none

/-- SRC: main.rs:1564-1566, 1614-1616 -/
def disconnect (w : PaneStream) : Option PaneStream :=
  if w.phase = .connecting then none else some { w with phase := .ended }

/-- The pane has exited for good: the replay loop gives up when a send would wait, the live
loop when it polls the exit after it found the receiver empty.
SRC: main.rs:1568-1577, 1632-1641 -/
def finalExit (w : PaneStream) : Option PaneStream :=
  if w.writer = .idle false then
    match w.phase with
    | .draining _ _ => some { w with phase := .ended }
    | .live _ true => some { w with phase := .ended }
    | _ => none
  else none

def step (w : PaneStream) : StreamEvent → Option PaneStream
  | .read stripped raw daemonAnswers => w.read stripped raw daemonAnswers
  | .eof rest => w.eof rest
  | .inject data => w.inject data
  | .respawn => w.respawn
  | .handoff budgetBytes => w.handoff budgetBytes
  | .push => w.push
  | .bump => w.bump
  | .send => w.send
  | .subscribe => w.subscribe
  | .replaySince => w.replaySince
  | .snapshot => w.snapshot
  | .forwardReplay => w.forwardReplay
  | .recv => w.recv
  | .pollEmpty => w.pollEmpty
  | .nextRound => w.nextRound
  | .lagged skipped => w.lagged skipped
  | .disconnect => w.disconnect
  | .finalExit => w.finalExit

end PaneStream

end Tymux.Model
