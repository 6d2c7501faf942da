import Tymux.Model.Basic
import Tymux.Lib.Run

/-!
# The client that selects between the Unix socket and TCP

`selecting.go`, where the calls of many goroutines share one `Client`. A section under `mu` is one
step; a probe or a call to a transport begins with one step and ends with another, and what the
transport answers is an argument. The headers of a request, the log and `OnTransition` are left out.

`history` records what becomes of a call; no step reads it.
-/

set_option autoImplicit false

namespace Tymux.Model

/-- SRC: selecting.go:35-41 -/
inductive Kind where
  | unix
  | tcp
  deriving DecidableEq, Repr

/-- What `connect.CodeOf` says of an error. -/
inductive ConnectCode where
  | permissionDenied
  | unauthenticated
  | other
  deriving DecidableEq, Repr

/-- An error of a transport, as far as `connect.CodeOf` and `errors.Is` tell. -/
structure TransportError where
  code : ConnectCode
  econnrefused : Bool
  enoent : Bool
  eacces : Bool
  eperm : Bool
  socketUntrusted : Bool
  deriving DecidableEq, Repr

namespace TransportError

/-- SRC: selecting.go:267-271 -/
def isDialRefused (kind : Kind) (err : TransportError) : Bool :=
  err.econnrefused || (kind = .unix && err.enoent)

/-- SRC: selecting.go:273-281 -/
def deniedAccess (err : TransportError) : Bool :=
  match err.code with
  | .permissionDenied | .unauthenticated => true
  | .other => err.eacces || err.eperm || err.socketUntrusted

end TransportError

/-- What becomes of a call. -/
inductive CallEvent where
  /-- The call is made over this transport. -/
  | sent (kind : Kind)
  /-- The Unix endpoint has refused this caller. -/
  | denied
  /-- An attempt has failed with a refused dial. -/
  | dialRefused
  deriving DecidableEq, Repr

/-- Who goes through the selector: a unary call, the opening of an Attach stream, or the report of
an error that such a stream has met. -/
inductive SelectingMode where
  | invoke
  | attach
  | observe
  deriving DecidableEq, Repr

/-- Where it stands. `retry` tells the second attempt from the first. -/
inductive SelectingStage where
  /-- `pick`, from its first section on. -/
  | pick (retry : Bool)
  | reprobing (retry : Bool) (prev claimed : ℕ)
  | reprobed (retry : Bool)
  | returningClaim (retry : Bool) (prev claimed : ℕ)
  | rereading (retry : Bool)
  | calling (retry : Bool) (kind : Kind)
  /-- `failover` of a refused dial, from its look at `Active` on. -/
  | failover (kind : Kind)
  | probingTcp
  | switching (target : Kind)
  | streaming (kind : Kind)
  | done
  deriving DecidableEq, Repr

structure SelectingCall where
  mode : SelectingMode
  stage : SelectingStage
  history : List CallEvent
  deriving DecidableEq, Repr

/-- `unix` and `tcp` tell whether there is such a transport. -/
structure SelectingClient where
  unix : Bool
  tcp : Bool
  reprobeInterval : ℕ
  useTcp : Bool
  nextUnixProbe : ℕ
  calls : AList fun _ : ℕ => SelectingCall

inductive SelectingEvent where
  | invoke (c : ℕ)
  | attach (c : ℕ)
  /-- A Send or a Receive of the stream `c` fails, which `o` reports. -/
  | observe (c o : ℕ) (err : TransportError)
  /-- A section under the lock; `now` and `later` are what the clock says in it. -/
  | locked (c now later : ℕ)
  /-- A probe ends; `cancelled` if the caller's context is done by then. -/
  | probed (c : ℕ) (err : Option TransportError) (cancelled : Bool)
  /-- The transport answers the call. -/
  | answered (c : ℕ) (err : Option TransportError)
  deriving DecidableEq, Repr

namespace SelectingClient

/-- `ReprobeInterval` in nanoseconds, of the one in `Options`.
SRC: selecting.go:48, 155-157 -/
def reprobeIntervalOf (opt : ℤ) : ℕ := if opt ≤ 0 then 30000000000 else opt.toNat

/-- SRC: selecting.go:144-162 -/
def new (unix tcp : Bool) (reprobeInterval : ℕ) : SelectingClient where
  unix
  tcp
  reprobeInterval
  useTcp := !unix
  nextUnixProbe := 0
  calls := ∅

/-- SRC: selecting.go:173-185 -/
def active (s : SelectingClient) : Kind := if s.useTcp then .tcp else .unix

def setCall (s : SelectingClient) (c : ℕ) (call : SelectingCall) : SelectingClient :=
  { s with calls := s.calls.insert c call }

/-- The call goes on at `stage`. -/
def goto (s : SelectingClient) (c : ℕ) (call : SelectingCall) (stage : SelectingStage) :
    SelectingClient :=
  s.setCall c { call with stage }

/-- The call is made over the transport that `pick` has returned.
SRC: selecting.go:219-225, 324-325, stream.go:20-21 -/
def send (s : SelectingClient) (c : ℕ) (call : SelectingCall) (retry : Bool) : SelectingClient :=
  let stage := match call.mode with
    | .attach => .streaming s.active
    | _ => .calling retry s.active
  s.setCall c { call with stage, history := call.history ++ [.sent s.active] }

/-- SRC: selecting.go:235-255 -/
def switchTo (s : SelectingClient) (target : Kind) (now : ℕ) : SelectingClient :=
  if s.active = target then s
  else match target with
    | .tcp => { s with useTcp := true, nextUnixProbe := now + s.reprobeInterval }
    | .unix => { s with useTcp := false }

/-- `failover` returns true: a call is retried, and a stream is not.
SRC: selecting.go:314, 326-333, stream.go:37-42 -/
def failedOver (s : SelectingClient) (c : ℕ) (call : SelectingCall) : SelectingClient :=
  match call.mode with
  | .observe => s.goto c call .done
  | _ => s.goto c call (.pick true)

/-- SRC: selecting.go:197-225, 235-255, 295-315 -/
def lockedStep (s : SelectingClient) (c : ℕ) (call : SelectingCall) (now later : ℕ) :
    Option SelectingClient :=
  match call.stage with
  | .pick retry =>
    if s.useTcp ∧ s.unix = true ∧ ¬ now < s.nextUnixProbe then
      let claimed := later + s.reprobeInterval
      some ({ s with nextUnixProbe := claimed }.goto c call
        (.reprobing retry s.nextUnixProbe claimed))
    else some (s.send c call retry)
  | .reprobed retry => some ((s.switchTo .unix now).goto c call (.rereading retry))
  | .returningClaim retry prev claimed =>
    let s := if s.nextUnixProbe = claimed then { s with nextUnixProbe := prev } else s
    some (s.goto c call (.rereading retry))
  | .rereading retry => some (s.send c call retry)
  | .failover kind =>
    if s.active ≠ kind then some (s.failedOver c call)
    else match kind with
      | .unix => some (s.goto c call (if s.tcp then .probingTcp else .done))
      | .tcp => some (s.goto c call (if s.unix then .switching .unix else .done))
  | .switching target => some ((s.switchTo target now).failedOver c call)
  | .reprobing _ _ _ | .calling _ _ | .probingTcp | .streaming _ | .done => none

/-- SRC: selecting.go:203-218, 303-306 -/
def probed (s : SelectingClient) (c : ℕ) (call : SelectingCall) (err : Option TransportError)
    (cancelled : Bool) : Option SelectingClient :=
  match call.stage with
  | .reprobing retry prev claimed =>
    match err with
    | none => some (s.goto c call (.reprobed retry))
    | some err =>
      if err.deniedAccess then
        some (s.goto c { call with history := call.history ++ [.denied] } (.reprobed retry))
      else if cancelled then some (s.goto c call (.returningClaim retry prev claimed))
      else some (s.goto c call (.rereading retry))
  | .probingTcp => some (s.goto c call (if err.isSome then .done else .switching .tcp))
  | _ => none

/-- What an attempt over `kind` has come to, for the record. -/
def noted (kind : Kind) (err : TransportError) : List CallEvent :=
  (if kind = .unix ∧ err.deniedAccess then [.denied] else []) ++
    (if err.isDialRefused kind then [.dialRefused] else [])

/-- SRC: selecting.go:325-336 -/
def answered (s : SelectingClient) (c : ℕ) (call : SelectingCall) (err : Option TransportError) :
    Option SelectingClient :=
  match call.stage with
  | .calling retry kind =>
    match err with
    | none => some (s.goto c call .done)
    | some err =>
      some (s.goto c { call with history := call.history ++ noted kind err }
        (if !retry && err.isDialRefused kind then .failover kind else .done))
  | _ => none

/-- SRC: stream.go:37-42 -/
def observe (s : SelectingClient) (c : ℕ) (call : SelectingCall) (o : ℕ) (err : TransportError) :
    Option SelectingClient :=
  match call.stage with
  | .streaming kind =>
    let s := s.setCall c { call with history := call.history ++ noted kind err }
    if o ∈ s.calls then none
    else some (s.setCall o
      ⟨.observe, if err.isDialRefused kind then .failover kind else .done, []⟩)
  | _ => none

/-- A call comes in; a client without a transport refuses it.
SRC: selecting.go:320-323, stream.go:16-19 -/
def begin (s : SelectingClient) (c : ℕ) (mode : SelectingMode) : Option SelectingClient :=
  if c ∈ s.calls then none
  else some (s.setCall c ⟨mode, if s.unix || s.tcp then .pick false else .done, []⟩)

def step (s : SelectingClient) : SelectingEvent → Option SelectingClient
  | .invoke c => s.begin c .invoke
  | .attach c => s.begin c .attach
  | .observe c o err => (s.calls.lookup c).bind fun call => s.observe c call o err
  | .locked c now later => (s.calls.lookup c).bind fun call => s.lockedStep c call now later
  | .probed c err cancelled => (s.calls.lookup c).bind fun call => s.probed c call err cancelled
  | .answered c err => (s.calls.lookup c).bind fun call => s.answered c call err

end SelectingClient

end Tymux.Model
