import Tymux.Model.Basic
import Tymux.Lib.Run
import Mathlib.Logic.Function.Basic

/-!
# The stream that reports a refused dial

`stream.go`, where any number of goroutines call `Send` while one calls `Receive` again and again.
A section under `mu` is one step, and so is the beginning and the end of a call on the inner
stream, whose answers are arguments. What `observe` does with an error is in `Model/Selecting`;
here it is only a point where a call can be. `ε` is the type of errors and `isEof` is
`errors.Is(err, io.EOF)`.

`log` records what happens on both sides of the stream; no step reads it.
-/

set_option autoImplicit false

namespace Tymux.Model

variable {α ε : Type*}

/-- Where a goroutine is that may call `Send`. A channel is named by a number. -/
inductive SendStage (α ε : Type*) where
  | idle
  /-- In `inner.Send`. -/
  | sending
  /-- Before the first section of `drainOnce`. -/
  | failed (eof : ε)
  /-- Between that section and `inner.Receive`. -/
  | claimed (eof : ε) (done : ℕ)
  /-- In `inner.Receive`. -/
  | draining (eof : ε) (done : ℕ)
  /-- Before the second section, with what `inner.Receive` has returned. -/
  | drained (eof : ε) (done : ℕ) (ev : Option α) (rxErr : Option ε)
  /-- Before `close(done)`. -/
  | closing (eof : ε) (done : ℕ) (rxErr : Option ε)
  /-- In `observe`. -/
  | observing (err : Option ε)
  deriving DecidableEq, Repr

/-- Where the goroutine is that calls `Receive`. -/
inductive ReceiveStage (α ε : Type*) where
  | idle
  /-- After the first section, at `<-done` if it has found a channel. -/
  | started (done : Option ℕ)
  /-- Before the second section. -/
  | woken
  /-- Before `inner.Receive`. -/
  | ready
  /-- In `inner.Receive`. -/
  | receiving
  /-- In `observe`, or about to return the event of the stash. -/
  | returning (ev : Option α) (err : Option ε)
  deriving DecidableEq, Repr

/-- What happens on the two sides of the stream. A caller of `inner.Receive` is a `Send`, with
its number, or the `Receive`. -/
inductive StreamEntry (α ε : Type*) where
  /-- A `Receive` has begun: it has set `rxStarted`. -/
  | begins
  /-- A `Send` has claimed the drain. -/
  | claims (i : ℕ)
  /-- `inner.Receive` is called. -/
  | calls (caller : Option ℕ)
  /-- `inner.Receive` returns. -/
  | answers (caller : Option ℕ) (ev : Option α) (err : Option ε)
  /-- `Receive` returns. -/
  | returns (ev : Option α) (err : Option ε)
  deriving DecidableEq, Repr

/-- `made` counts the channels made and `closed` lists the closed ones.
SRC: stream.go:24-35 -/
structure FailoverStream (α ε : Type*) where
  rxStarted : Bool
  drained : Bool
  drainDone : Option ℕ
  stash : Option α
  made : ℕ
  closed : List ℕ
  sends : ℕ → SendStage α ε
  reader : ReceiveStage α ε
  log : List (StreamEntry α ε)

inductive StreamStep (α ε : Type*) where
  | send (i : ℕ)
  /-- `inner.Send` returns. -/
  | sent (i : ℕ) (err : Option ε)
  | claim (i : ℕ)
  | drain (i : ℕ)
  /-- The drain's `inner.Receive` returns. -/
  | drained (i : ℕ) (ev : Option α) (rxErr : Option ε)
  | keep (i : ℕ)
  | close (i : ℕ)
  /-- `observe` has ended and `Send` returns. -/
  | observed (i : ℕ)
  | receive
  | wake
  | take
  | call
  /-- The reader's `inner.Receive` returns. -/
  | answered (ev : Option α) (err : Option ε)
  /-- `Receive` returns. -/
  | returned
  deriving DecidableEq, Repr

namespace FailoverStream

/-- SRC: stream.go:21 -/
def new : FailoverStream α ε where
  rxStarted := false
  drained := false
  drainDone := none
  stash := none
  made := 0
  closed := []
  sends := fun _ => .idle
  reader := .idle
  log := []

def goto (f : FailoverStream α ε) (i : ℕ) (stage : SendStage α ε) : FailoverStream α ε :=
  { f with sends := Function.update f.sends i stage }

def note (f : FailoverStream α ε) (e : StreamEntry α ε) : FailoverStream α ε :=
  { f with log := f.log ++ [e] }

/-- The first section of `drainOnce`.
SRC: stream.go:58-66 -/
def claim (f : FailoverStream α ε) (i : ℕ) (eof : ε) : FailoverStream α ε :=
  if f.rxStarted || f.drained then f.goto i (.observing (some eof))
  else
    let done := f.made
    ({ f with drained := true, drainDone := some done, made := f.made + 1 }.goto i
      (.claimed eof done)).note (.claims i)

/-- Its second section.
SRC: stream.go:70-75 -/
def keep (f : FailoverStream α ε) (i : ℕ) (eof : ε) (done : ℕ) (ev : Option α)
    (rxErr : Option ε) : FailoverStream α ε :=
  let stash := match rxErr with
    | none => ev
    | some _ => f.stash
  { f with drainDone := none, stash := stash }.goto i (.closing eof done rxErr)

/-- The steps of a `Send`.
SRC: stream.go:49-81 -/
def sendStep (isEof : ε → Bool) (f : FailoverStream α ε) :
    StreamStep α ε → Option (FailoverStream α ε)
  | .send i =>
    match f.sends i with
    | .idle => some (f.goto i .sending)
    | _ => none
  | .sent i err =>
    match f.sends i, err with
    | .sending, none => some (f.goto i (.observing none))
    | .sending, some err =>
      some (f.goto i (if isEof err then .failed err else .observing (some err)))
    | _, _ => none
  | .claim i =>
    match f.sends i with
    | .failed eof => some (f.claim i eof)
    | _ => none
  | .drain i =>
    match f.sends i with
    | .claimed eof done => some ((f.goto i (.draining eof done)).note (.calls (some i)))
    | _ => none
  | .drained i ev rxErr =>
    match f.sends i with
    | .draining eof done =>
      some ((f.goto i (.drained eof done ev rxErr)).note (.answers (some i) ev rxErr))
    | _ => none
  | .keep i =>
    match f.sends i with
    | .drained eof done ev rxErr => some (f.keep i eof done ev rxErr)
    | _ => none
  | .close i =>
    match f.sends i with
    | .closing eof done rxErr =>
      some ({ f with closed := done :: f.closed }.goto i (.observing (rxErr.or (some eof))))
    | _ => none
  | .observed i =>
    match f.sends i with
    | .observing _ => some (f.goto i .idle)
    | _ => none
  | _ => none

/-- The steps of a `Receive`.
SRC: stream.go:83-100 -/
def receiveStep (f : FailoverStream α ε) : StreamStep α ε → Option (FailoverStream α ε)
  | .receive =>
    match f.reader with
    | .idle =>
      some ({ f with rxStarted := true, reader := .started f.drainDone }.note .begins)
    | _ => none
  | .wake =>
    match f.reader with
    | .started none => some { f with reader := .woken }
    | .started (some done) => if done ∈ f.closed then some { f with reader := .woken } else none
    | _ => none
  | .take =>
    match f.reader, f.stash with
    | .woken, some ev => some { f with stash := none, reader := .returning (some ev) none }
    | .woken, none => some { f with reader := .ready }
    | _, _ => none
  | .call =>
    match f.reader with
    | .ready => some ({ f with reader := .receiving }.note (.calls none))
    | _ => none
  | .answered ev err =>
    match f.reader with
    | .receiving => some ({ f with reader := .returning ev err }.note (.answers none ev err))
    | _ => none
  | .returned =>
    match f.reader with
    | .returning ev err => some ({ f with reader := .idle }.note (.returns ev err))
    | _ => none
  | _ => none

def step (isEof : ε → Bool) (f : FailoverStream α ε) (e : StreamStep α ε) :
    Option (FailoverStream α ε) :=
  match e with
  | .receive | .wake | .take | .call | .answered _ _ | .returned => f.receiveStep e
  | _ => f.sendStep isEof e

end FailoverStream

end Tymux.Model
