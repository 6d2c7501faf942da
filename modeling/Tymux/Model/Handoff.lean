import Tymux.Model.Reader

/-!
# Handing a pane over

`pane/handoff.rs`, `pane.rs`: the old image stops the reader between two chunks and exports the
pane, and the new one builds the pane again. Of the two tokenizers only the bytes that the scanner
holds are handed over; the emulator is restored from the picture of its screen and reads these
bytes a second time, as does the scanner of the new reader.
-/

set_option autoImplicit false

namespace Tymux.Model.Vt.Parser

variable {σ : Type} (tok : Tokenizer σ)

/-- What `process` makes the tokenizer report for the bytes, and where it leaves the tokenizer.
SRC: parser.rs:50-76 -/
def advance (p : Parser σ) (bytes : List UInt8) : Parser σ × List Vt.Action :=
  let out := if !p.pendingC2 && !bytes.contains 0xc2 then (bytes, false)
    else Parser.rewrite p.pendingC2 bytes
  let r := tok.advanceAll p.parser out.1
  ({ p with parser := r.1, pendingC2 := out.2 }, r.2)

/-- The prints, controls and sequences that are performed on the screen for the chunks. -/
def operations (p : Parser σ) : List (List UInt8) → List Vt.Action
  | [] => []
  | chunk :: chunks =>
    let r := p.advance tok chunk
    r.2 ++ r.1.operations chunks

end Tymux.Model.Vt.Parser

namespace Tymux.Model.TerminalQuery

open Tymux.Model.Vt

/-- The screen stands for the byte streams that it is exported to.
SRC: pane/handoff.rs:36-60 -/
structure PaneHandoff where
  outputSeq : ℕ
  replay : List (ℕ × List UInt8)
  screen : Screen
  scannerHeld : List UInt8

namespace ReaderPane

variable {σ : Type} (tok : Tokenizer σ) (width : Char → Option ℕ) (colors : Colors)

/-- Reads are frozen, so the reader is between two chunks, and the process lives.
SRC: pane/handoff.rs:307-384 -/
def exportHandoff (p : ReaderPane σ) : Option PaneHandoff :=
  match p.stage with
  | .waiting => some
    { outputSeq := p.outputSeq
      replay := p.replay.entries
      screen := p.parser.screen
      scannerHeld := p.scanner.held }
  | _ => none

/-- `Seed::apply` and the start of the reader. `restoreScreen` gives the emulator as it is after
the picture of the screen.
SRC: pane/handoff.rs:70-86, pane.rs:440-449, pane.rs:517-525 -/
def fromAdopted (restoreScreen : Screen → Parser σ) (budgetBytes : ℕ) (handoff : PaneHandoff) :
    Option (ReaderPane σ) := do
  let r ← processReplying tok width colors (restoreScreen handoff.screen) handoff.scannerHeld
  let p : ReaderPane σ :=
    { parser := r.1
      scanner := ((QueryScanner.default tok).feed tok handoff.scannerHeld).2
      outputSeq := handoff.outputSeq
      replay := (ReplayBuffer.new budgetBytes).pushAll handoff.replay }
  return p.offer r.2

end ReaderPane

end Tymux.Model.TerminalQuery
