import Tymux.Model.Handoff

/-!
# Priming a client with a snapshot

`pane.rs`, `tymuxd/src/main.rs`: a client that attaches gets the screen of the pane and the seq
that it reflects, and from then on the payloads with a higher seq.
-/

set_option autoImplicit false

namespace Tymux.Model.Vt.Parser

variable {σ : Type} (tok : Tokenizer σ) (width : Char → Option ℕ)

/-- The emulator of a client that got the screen: it has read nothing yet. -/
def primed (screen : Screen) : Parser σ := ⟨tok.start, false, screen⟩

/-- The payloads, one after the other. -/
def processAll (p : Parser σ) (payloads : List (List UInt8)) : Option (Parser σ) :=
  payloads.foldlM (fun p data => (p.process tok width data).map Prod.fst) p

end Tymux.Model.Vt.Parser

namespace Tymux.Model.TerminalQuery

open Tymux.Model.Vt

variable {σ : Type}

/-- `snapshot_with_seq` takes the lock of the parser, which the reader has from the decision for a
chunk to its entry in the replay buffer.
SRC: pane.rs:564-585, pane.rs:1064-1081 -/
def ReaderPane.snapshotWithSeq (p : ReaderPane σ) : Option (Screen × ℕ) :=
  match p.stage with
  | .waiting | .pushed _ _ _ | .stopped => some (p.parser.screen, p.outputSeq)
  | _ => none

/-- What a client is sent that has the snapshot with this seq.
SRC: main.rs:837-868 -/
def livePayloads (seq : ℕ) (sent : List (ℕ × List UInt8)) : List (List UInt8) :=
  (sent.filter fun entry => seq < entry.1).map Prod.snd

end Tymux.Model.TerminalQuery
