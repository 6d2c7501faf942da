import Mathlib.Data.List.AList

/-!
# The queue of replies and its writer threads

`terminal_query/outbox.rs`. The state is behind one lock, and each critical section is one step:
`offer`, `rearm`, `close`, and what a drain thread does under the lock. The start of a drain thread
and its blocking write are outside of the lock, so they are steps of their own. A writer is a box
that is handed on: from `new` or `rearm` to the first offer, and from there to the thread.

Replies are numbered as they are accepted. The number, the writer that was installed last when the
reply was offered, and the logs of what was taken and written are ghosts. Whether the rate limit
leaves a token is an argument of the event.
-/

set_option autoImplicit false

namespace Tymux.Model

/-- `MAX_PENDING` -/
def maxPending : ℕ := 32

/-- A reply in the queue, with its number and the writer installed when it was offered. -/
structure QueuedReply where
  bytes : List UInt8
  number : ℕ
  under : ℕ
  deriving DecidableEq, Repr

/-- A drain thread: `writing` is the reply it is blocked on outside of the lock. -/
structure Drain where
  writer : ℕ
  generation : ℕ
  writing : Option QueuedReply
  deriving DecidableEq, Repr

/-- SRC: outbox.rs:23-36 -/
structure OutboxState where
  queue : List QueuedReply
  closed : Bool
  writer : Option ℕ
  generation : ℕ
  accepted : ℕ
  /-- The offers that took the writer out and have yet to start its thread. -/
  starting : List (ℕ × ℕ)
  drains : AList fun _ : ℕ => Drain
  /-- The writers of `new` and of every `rearm`, the last one first. -/
  installed : List ℕ
  taken : List (ℕ × QueuedReply)
  writes : List (ℕ × QueuedReply)

inductive OutboxEvent where
  | offer (reply : List UInt8) (granted : Bool)
  /-- The thread that an offer starts for `writer`; the start may fail. -/
  | startDrain (thread writer generation : ℕ) (ok : Bool)
  | rearm (writer : ℕ)
  | close
  /-- A drain thread takes the lock. -/
  | take (thread : ℕ)
  /-- Its write returns. -/
  | write (thread : ℕ)
  deriving DecidableEq, Repr

namespace OutboxState

/-- SRC: outbox.rs:42-58 -/
def new (writer : ℕ) : OutboxState where
  queue := []
  closed := false
  writer := some writer
  generation := 0
  accepted := 0
  starting := []
  drains := ∅
  installed := [writer]
  taken := []
  writes := []

/-- SRC: outbox.rs:62-95 -/
def offer (s : OutboxState) (reply : List UInt8) (granted : Bool) : OutboxState :=
  if s.closed ∨ s.queue.any fun r => r.bytes = reply then s
  else if !granted then s
  else
    let queue := if maxPending ≤ s.queue.length then s.queue.tail else s.queue
    { s with
      queue := queue ++ [⟨reply, s.accepted, s.installed.headD 0⟩]
      accepted := s.accepted + 1
      starting := match s.writer with
        | some writer => s.starting ++ [(writer, s.generation)]
        | none => s.starting
      writer := none }

/-- The thread of the first offer.
SRC: outbox.rs:81-93 -/
def startDrain (s : OutboxState) (thread writer generation : ℕ) (ok : Bool) : Option OutboxState :=
  if (writer, generation) ∈ s.starting ∧ thread ∉ s.drains then
    let s := { s with starting := s.starting.erase (writer, generation) }
    if ok then some { s with drains := s.drains.insert thread ⟨writer, generation, none⟩ }
    else some { s with closed := true }
  else none

/-- A box is handed over once.
SRC: outbox.rs:100-110 -/
def rearm (s : OutboxState) (writer : ℕ) : Option OutboxState :=
  if writer ∈ s.installed then none
  else some { s with
    generation := s.generation + 1
    closed := false
    queue := []
    writer := some writer
    installed := writer :: s.installed }

/-- SRC: outbox.rs:112-115 -/
def close (s : OutboxState) : OutboxState := { s with closed := true }

/-- The critical section of `drain`: the thread exits, takes a reply, or waits.
SRC: outbox.rs:136-150 -/
def take (s : OutboxState) (thread : ℕ) : Option OutboxState :=
  match s.drains.lookup thread with
  | some ⟨writer, generation, none⟩ =>
    if s.closed ∨ s.generation ≠ generation then some { s with drains := s.drains.erase thread }
    else match s.queue with
      | [] => none
      | reply :: queue =>
        some { s with
          queue
          drains := s.drains.insert thread ⟨writer, generation, some reply⟩
          taken := s.taken ++ [(writer, reply)] }
  | _ => none

/-- SRC: outbox.rs:151 -/
def write (s : OutboxState) (thread : ℕ) : Option OutboxState :=
  match s.drains.lookup thread with
  | some ⟨writer, generation, some reply⟩ =>
    some { s with
      drains := s.drains.insert thread ⟨writer, generation, none⟩
      writes := s.writes ++ [(writer, reply)] }
  | _ => none

def step (s : OutboxState) : OutboxEvent → Option OutboxState
  | .offer reply granted => some (s.offer reply granted)
  | .startDrain thread writer generation ok => s.startDrain thread writer generation ok
  | .rearm writer => s.rearm writer
  | .close => some s.close
  | .take thread => s.take thread
  | .write thread => s.write thread

end OutboxState

end Tymux.Model
