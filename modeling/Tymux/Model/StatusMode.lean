import Tymux.Model.AttachLoop

/-!
# The mode on the status line

The attach loop with the `DisplayMode` that its status line shows, and with the other branches of
its `select`. The loop itself, without the mode, is that of `Model/AttachLoop`
(`ShownLoop.stdin_loop`). A read brings its own answers of the server, so that they can change
from read to read.
-/

set_option autoImplicit false

namespace Tymux.Model

/-- SRC: status_bar.rs:8-17 -/
inductive DisplayMode where
  | normal
  | prefixArmed
  | copyMode
  deriving DecidableEq, Repr

structure ShownLoop where
  loop : AttachLoop
  mode : DisplayMode
  deriving DecidableEq, Repr

/-- What arrives on the stream of the pane.
SRC: main.rs:1117-1136 -/
inductive InboundEvent where
  | output
  | exited
  | outputGap
  | other
  deriving DecidableEq, Repr

/-- What the loop waits for; `none` where a channel or the stream has ended.
SRC: main.rs:1106-1140 -/
inductive AttachEvent where
  | resize
  | inbound (event : Option InboundEvent)
  | stdin (server : AttachServer) (bytes : Option (List UInt8))

namespace ShownLoop

/-- SRC: main.rs:1094-1097 -/
def new (config : TymuxConfig) : ShownLoop where
  loop := .new config
  mode := .normal

variable (server : AttachServer)

/-- SRC: main.rs:1215-1303 -/
def perform (s : ShownLoop) (out : ReassembledOutput UInt8) : Except AttachEnd ShownLoop :=
  let entered : Bool := match out with
    | .action .enterCopyMode =>
      (server.capture (s.loop.effects ++ [.action .enterCopyMode]) 0).isSome
    | _ => false
  (s.loop.perform server out).map fun loop =>
    { loop, mode := if entered then .copyMode else s.mode }

/-- SRC: main.rs:1214-1323 -/
def reassemble (s : ShownLoop) (bytes : List UInt8) : Except AttachEnd ShownLoop :=
  let wasArmed := s.loop.reassembler.armed.isSome
  let (reassembler, out) := s.loop.reassembler.process id bytes
  (out.foldlM (perform server) { s with loop.reassembler := reassembler }).map fun s =>
    let isArmed := s.loop.reassembler.armed.isSome
    if isArmed ≠ wasArmed then { s with mode := if isArmed then .prefixArmed else .normal }
    else s

/-- SRC: main.rs:1139-1324 -/
def stdin (s : ShownLoop) (bytes : List UInt8) : Except AttachEnd ShownLoop :=
  match s.loop.copyMode with
  | some cs =>
    let read := cs.handleBytes false bytes
    (s.loop.afterCopyMode server read).map fun loop =>
      { loop, mode := if read.shouldExit then .normal else s.mode }
  | none => s.reassemble server bytes

/-- One turn of the loop.
SRC: main.rs:1105-1326 -/
def step (s : ShownLoop) : AttachEvent → Except AttachEnd ShownLoop
  | .resize => .ok s
  | .inbound none => .error ⟨.done, s.loop.effects⟩
  | .inbound (some .exited) => .error ⟨.done, s.loop.effects⟩
  | .inbound (some _) => .ok s
  | .stdin _ none => .error ⟨.done, s.loop.effects⟩
  | .stdin server (some bytes) => s.stdin server bytes

end ShownLoop

end Tymux.Model
