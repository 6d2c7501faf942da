import Tymux.Model.Input

/-!
# The keyboard side of `tymux attach`

The stdin branch of the attach loop in `main.rs`, with the copy mode of `copy_mode.rs`. What it does
is kept in a list of effects. The other end is a parameter: `capture` is what `capture_pane` answers
and `adjacent` what `adjacent_window_pane` returns, after these effects. What is painted on the
screen, the status line among it, and the text of a yank, which is dropped with the copy mode, are
left out.
-/

set_option autoImplicit false

namespace Tymux.Model

/-- SRC: copy_mode.rs:4-8 -/
structure CellPos where
  row : ℕ
  col : ℕ
  deriving DecidableEq, Repr

/-- SRC: copy_mode.rs:12-28 -/
inductive CopyModeEvent where
  | redraw
  | exit
  | yanked
  | consumed
  deriving DecidableEq, Repr

/-- SRC: copy_mode.rs:33-40 -/
structure CopyModeState where
  scrollbackOffset : ℕ
  cursor : CellPos
  selectingFrom : Option CellPos
  rows : ℕ
  cols : ℕ
  deriving DecidableEq, Repr

/-- What the loop of a read over `handle_byte` leaves behind.
SRC: main.rs:1149-1151 -/
structure CopyModeRead where
  state : CopyModeState
  shouldRedraw : Bool
  shouldExit : Bool
  yankRange : Option (CellPos × CellPos)
  deriving DecidableEq, Repr

namespace CopyModeState

/-- SRC: copy_mode.rs:43-52, main.rs:1238 -/
def new (rows cols : ℕ) : CopyModeState where
  scrollbackOffset := 0
  cursor := ⟨0, 0⟩
  selectingFrom := none
  rows := rows % 2 ^ 16
  cols := cols % 2 ^ 16

/-- SRC: copy_mode.rs:58-98 -/
def handleByte (cs : CopyModeState) (b : UInt8) : CopyModeState × CopyModeEvent :=
  if b = 0x71 ∨ b = 0x1b then (cs, .exit)
  else if b = 0x68 then ({ cs with cursor.col := cs.cursor.col - 1 }, .redraw)
  else if b = 0x6c then
    ({ cs with cursor.col := min (cs.cursor.col + 1) (cs.cols - 1) }, .redraw)
  else if b = 0x6b then
    if cs.cursor.row = 0 then ({ cs with scrollbackOffset := cs.scrollbackOffset + 1 }, .redraw)
    else ({ cs with cursor.row := cs.cursor.row - 1 }, .redraw)
  else if b = 0x6a then
    if cs.rows ≤ cs.cursor.row + 1 then
      ({ cs with scrollbackOffset := cs.scrollbackOffset - 1 }, .redraw)
    else ({ cs with cursor.row := cs.cursor.row + 1 }, .redraw)
  else if b = 0x76 then ({ cs with selectingFrom := some cs.cursor }, .consumed)
  else if b = 0x79 then (cs, if cs.selectingFrom.isSome then .yanked else .consumed)
  else (cs, .consumed)

/-- SRC: main.rs:1149-1166 -/
def handleBytes (cs : CopyModeState) (shouldRedraw : Bool) : List UInt8 → CopyModeRead
  | [] => ⟨cs, shouldRedraw, false, none⟩
  | b :: bytes =>
    match cs.handleByte b with
    | (cs, .exit) => ⟨cs, shouldRedraw, true, none⟩
    | (cs, .redraw) => cs.handleBytes true bytes
    | (cs, .yanked) =>
      ⟨cs, shouldRedraw, true, cs.selectingFrom.map fun start => (start, cs.cursor)⟩
    | (cs, .consumed) => cs.handleBytes shouldRedraw bytes

end CopyModeState

/-- What the loop does, as far as it is not painting. -/
inductive AttachEffect where
  /-- An `Input` message to the pane. -/
  | input (bytes : List UInt8)
  | action (action : Action)
  | yank (range : CellPos × CellPos) (scrollbackOffset : ℕ)
  | leaveCopyMode
  deriving DecidableEq, Repr

/-- SRC: main.rs:983-992 -/
inductive AttachOutcome where
  | done
  | switchTo (pane : String)
  /-- An error of a call, which `?` returns. -/
  | failed
  deriving DecidableEq, Repr

structure AttachServer where
  /-- Rows and columns of the snapshot at a scrollback offset. -/
  capture : List AttachEffect → ℕ → Option (ℕ × ℕ)
  adjacent : List AttachEffect → Bool → Option String

/-- The loop between two reads. -/
structure AttachLoop where
  reassembler : KeystrokeReassembler UInt8
  copyMode : Option CopyModeState
  effects : List AttachEffect
  deriving DecidableEq, Repr

/-- The loop has ended. -/
structure AttachEnd where
  outcome : AttachOutcome
  effects : List AttachEffect
  deriving DecidableEq, Repr

namespace AttachLoop

/-- SRC: main.rs:1095-1096 -/
def new (config : TymuxConfig) : AttachLoop where
  reassembler := .new config
  copyMode := none
  effects := []

def does (s : AttachLoop) (effect : AttachEffect) : AttachLoop :=
  { s with effects := s.effects ++ [effect] }

variable (server : AttachServer)

/-- SRC: main.rs:1288-1295 -/
def switchWindow (s : AttachLoop) (forward : Bool) : Except AttachEnd AttachLoop :=
  match server.adjacent s.effects forward with
  | some pane => .error ⟨.switchTo pane, s.effects⟩
  | none => .ok s

/-- SRC: main.rs:1215-1303 -/
def perform (s : AttachLoop) : ReassembledOutput UInt8 → Except AttachEnd AttachLoop
  | .forward fwd => .ok (s.does (.input fwd))
  | .action action =>
    let s := s.does (.action action)
    match action with
    | .detach => .error ⟨.done, s.effects⟩
    | .enterCopyMode =>
      match server.capture s.effects 0 with
      | some (rows, cols) => .ok { s with copyMode := some (.new rows cols) }
      | none => .ok s
    | .nextWindow => s.switchWindow server true
    | .prevWindow => s.switchWindow server false
    | .splitHorizontal | .splitVertical | .killPane | .newWindow | .exitCopyMode
    | .sendPrefixLiteral => .ok s

/-- A read that the reassembler gets.
SRC: main.rs:1214-1305 -/
def reassemble (s : AttachLoop) (bytes : List UInt8) : Except AttachEnd AttachLoop :=
  let (reassembler, out) := s.reassembler.process id bytes
  out.foldlM (perform server) { s with reassembler }

/-- A read in copy mode, once its bytes are handled.
SRC: main.rs:1168-1211 -/
def afterCopyMode (s : AttachLoop) (read : CopyModeRead) : Except AttachEnd AttachLoop :=
  let s := match read.yankRange with
    | some range => s.does (.yank range read.state.scrollbackOffset)
    | none => s
  if read.shouldExit then .ok { s.does .leaveCopyMode with copyMode := none }
  else
    let s := { s with copyMode := some read.state }
    if read.shouldRedraw ∧ (server.capture s.effects read.state.scrollbackOffset).isNone then
      .error ⟨.failed, s.effects⟩
    else .ok s

/-- SRC: main.rs:1139-1214 -/
def stdin (s : AttachLoop) (bytes : List UInt8) : Except AttachEnd AttachLoop :=
  match s.copyMode with
  | some cs => s.afterCopyMode server (cs.handleBytes false bytes)
  | none => s.reassemble server bytes

/-- Any number of reads, with no other event in between. -/
def reads (s : AttachLoop) (bytes : List (List UInt8)) : Except AttachEnd AttachLoop :=
  bytes.foldlM (stdin server) s

end AttachLoop

/-- What has been done, whether the loop has ended or not. -/
def attachEffects : Except AttachEnd AttachLoop → List AttachEffect
  | .ok s => s.effects
  | .error ended => ended.effects

end Tymux.Model
