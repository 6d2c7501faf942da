import Tymux.Model.Outbox
import Mathlib.Data.Rat.Defs
import Mathlib.Algebra.Order.Ring.Rat

/-!
# The rate limit of the replies

`terminal_query/outbox.rs` with the tokens and the clock that `Model.Outbox` leaves to the event.
Instants are seconds and the tokens are rational.
-/

set_option autoImplicit false

namespace Tymux.Model

/-- `RATE_BURST` -/
def rateBurst : ℚ := 16

/-- `RATE_REFILL_PER_SEC` -/
def rateRefillPerSec : ℚ := 8

/-- SRC: outbox.rs:23-31 -/
structure LimitedOutbox where
  box : OutboxState
  tokens : ℚ
  last : ℚ

inductive LimitedEvent where
  | offer (reply : List UInt8) (now : ℚ)
  | rearm (writer : ℕ) (now : ℚ)
  | startDrain (thread writer generation : ℕ) (ok : Bool)
  | close
  | take (thread : ℕ)
  | write (thread : ℕ)
  deriving DecidableEq, Repr

namespace LimitedOutbox

/-- SRC: outbox.rs:42-58 -/
def new (writer : ℕ) (now : ℚ) : LimitedOutbox where
  box := OutboxState.new writer
  tokens := rateBurst
  last := now

/-- SRC: outbox.rs:62-95 -/
def offer (s : LimitedOutbox) (reply : List UInt8) (now : ℚ) : LimitedOutbox :=
  if s.box.closed ∨ s.box.queue.any fun r => r.bytes = reply then s
  else
    let elapsed := max (now - s.last) 0
    let tokens := min (s.tokens + elapsed * rateRefillPerSec) rateBurst
    if tokens < 1 then { box := s.box.offer reply false, tokens, last := now }
    else { box := s.box.offer reply true, tokens := tokens - 1, last := now }

/-- SRC: outbox.rs:100-110 -/
def rearm (s : LimitedOutbox) (writer : ℕ) (now : ℚ) : Option LimitedOutbox :=
  (s.box.rearm writer).map fun box => { box, tokens := rateBurst, last := now }

def step (s : LimitedOutbox) : LimitedEvent → Option LimitedOutbox
  | .offer reply now => some (s.offer reply now)
  | .rearm writer now => s.rearm writer now
  | .startDrain thread writer generation ok =>
    (s.box.startDrain thread writer generation ok).map fun box => { s with box }
  | .close => some { s with box := s.box.close }
  | .take thread => (s.box.take thread).map fun box => { s with box }
  | .write thread => (s.box.write thread).map fun box => { s with box }

end LimitedOutbox

end Tymux.Model
