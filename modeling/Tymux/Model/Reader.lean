import Tymux.Lib.Run
import Tymux.Model.Scanner
import Tymux.Model.Replay

/-!
# The reader of a pane

`pane.rs`, `terminal_query/clients.rs`: the thread that reads the output of a pane's process, with
the steps it takes for a chunk: it decides who answers the queries in it, parses it, scans it,
pushes what is left to the replay buffer and sends it to the clients. Clients register and change
their state between any two of these steps. When the process ends the bytes held back are
released; markers and banners are written while no reader runs, and the next process gets a reader
with a fresh scanner.
-/

set_option autoImplicit false

namespace Tymux.Model.TerminalQuery

open Tymux.Model.Vt

/-! ## Clients -/

def u64Max : ℕ := 2 ^ 64 - 1

/-- SRC: clients.rs:11-16 -/
structure Slot where
  liveFrom : ℕ
  answering : Bool
  deriving DecidableEq, Repr

/-- The slots of the clients that were not dropped, each with the handle of its client.
SRC: clients.rs:34-37 -/
structure ClientRegistry where
  slots : List (ℕ × Slot) := []
  nextClient : ℕ := 0
  deriving DecidableEq, Repr

namespace ClientRegistry

/-- SRC: clients.rs:40-49 -/
def register (r : ClientRegistry) : ClientRegistry where
  slots := r.slots ++ [(r.nextClient, ⟨u64Max, true⟩)]
  nextClient := r.nextClient + 1

def update (r : ClientRegistry) (client : ℕ) (f : Slot → Slot) : ClientRegistry :=
  { r with slots := r.slots.map fun s => if s.1 = client then (s.1, f s.2) else s }

/-- SRC: clients.rs:23-25 -/
def goLiveAfter (r : ClientRegistry) (client seq : ℕ) : ClientRegistry :=
  r.update client fun s => { s with liveFrom := seq }

/-- SRC: clients.rs:29-31 -/
def setLagged (r : ClientRegistry) (client : ℕ) (lagged : Bool) : ClientRegistry :=
  r.update client fun s => { s with answering := !lagged }

def drop (r : ClientRegistry) (client : ℕ) : ClientRegistry :=
  { r with slots := r.slots.filter fun s => s.1 ≠ client }

/-- SRC: clients.rs:52-61 -/
def hasAnswerer (r : ClientRegistry) (seq : ℕ) : Bool :=
  r.slots.any fun s => s.2.answering && s.2.liveFrom < seq

end ClientRegistry

/-! ## What the supervisor writes -/

/-- SRC: supervision.rs:495-497 -/
def marker (text : String) : List UInt8 :=
  textBytes "\r\n\x1b[2m[tymux: " ++ textBytes text ++ textBytes "]\x1b[0m\r\n"

/-- SRC: supervision.rs:28-29 -/
def terminalReset : String :=
  "\x1b[0m\x1b[?1049l\x1b[?25h\x1b[?1000l\x1b[?1002l\x1b[?1003l\x1b[?1006l\x1b[?1004l\x1b[?2004l\x1b[?1l\x1b>"

/-- The text is the pid and the number of the restart.
SRC: supervision.rs:210-216 -/
def banner (text : String) : List UInt8 := textBytes terminalReset ++ marker text

/-! ## The reader -/

/-- How far the reader is with a chunk: its seq, the decision, and the chunk or what the scanner
gave for it. -/
inductive ReaderStage where
  | waiting
  | decided (next : ℕ) (daemonAnswers : Bool) (chunk : List UInt8)
  | parsed (next : ℕ) (daemonAnswers : Bool) (chunk : List UInt8)
  | scanned (next : ℕ) (daemonAnswers : Bool) (scanned : Scanned)
  | pushed (next : ℕ) (daemonAnswers : Bool) (scanned : Scanned)
  | stopped
  deriving DecidableEq, Repr

/-- The pane with its reader, what the process has printed, each chunk with the decision for it,
and what has left the pane: the replies offered to the outbox, the payloads sent to the clients,
the entries pushed to the replay buffer and those that resumes got from it. -/
structure ReaderPane (σ : Type) where
  parser : Parser σ
  scanner : QueryScanner σ
  stage : ReaderStage := .waiting
  clients : ClientRegistry := {}
  daemonAnswers : Bool := true
  outputSeq : ℕ := 0
  replay : ReplayBuffer
  chunks : List (Bool × List UInt8) := []
  offered : List (List UInt8) := []
  sent : List (ℕ × List UInt8) := []
  logged : List (ℕ × List UInt8) := []
  resumed : List (ℕ × List UInt8) := []

inductive PaneEvent where
  | decide (chunk : List UInt8)
  | parse
  | scan
  | push
  | broadcast
  | eof
  | inject (data : List UInt8)
  | respawn
  | register
  | goLiveAfter (client seq : ℕ)
  | setLagged (client : ℕ) (lagged : Bool)
  | dropClient (client : ℕ)
  | resume (fromSeq : ℕ)
  deriving DecidableEq, Repr

namespace ReaderPane

variable {σ : Type} (tok : Tokenizer σ) (width : Char → Option ℕ) (colors : Colors)

/-- SRC: pane.rs:566-568 -/
def decide (p : ReaderPane σ) (chunk : List UInt8) : Option (ReaderPane σ) :=
  match p.stage with
  | .waiting =>
    let next := p.outputSeq + 1
    let daemonAnswers := !p.clients.hasAnswerer next
    some { p with
      daemonAnswers
      chunks := p.chunks ++ [(daemonAnswers, chunk)]
      stage := .decided next daemonAnswers chunk }
  | _ => none

/-- SRC: terminal_query.rs:395-399 -/
def offer (p : ReaderPane σ) (replies : List (List UInt8)) : ReaderPane σ :=
  if p.daemonAnswers then { p with offered := p.offered ++ replies } else p

/-- SRC: pane.rs:569 -/
def parse (p : ReaderPane σ) : Option (ReaderPane σ) :=
  match p.stage with
  | .decided next daemonAnswers chunk => do
    let r ← processReplying tok width colors p.parser chunk
    return { p.offer r.2 with parser := r.1, stage := .parsed next daemonAnswers chunk }
  | _ => none

/-- SRC: pane.rs:570 -/
def scan (p : ReaderPane σ) : Option (ReaderPane σ) :=
  match p.stage with
  | .parsed next daemonAnswers chunk =>
    let r := p.scanner.feed tok chunk
    some { p with scanner := r.2, stage := .scanned next daemonAnswers r.1 }
  | _ => none

/-- An entry for the replay buffer.
SRC: pane.rs:577-583, pane.rs:606-609, pane.rs:788-790 -/
def log (p : ReaderPane σ) (seq : ℕ) (data : List UInt8) : ReaderPane σ :=
  { p with
    replay := p.replay.push seq data
    logged := p.logged ++ [(seq, data)]
    outputSeq := p.outputSeq + 1 }

/-- SRC: pane.rs:577-583 -/
def push (p : ReaderPane σ) : Option (ReaderPane σ) :=
  match p.stage with
  | .scanned next daemonAnswers scanned =>
    some { p.log next scanned.stripped with stage := .pushed next daemonAnswers scanned }
  | _ => none

/-- SRC: pane.rs:586-598 -/
def broadcast (p : ReaderPane σ) : Option (ReaderPane σ) :=
  match p.stage with
  | .pushed next daemonAnswers scanned =>
    let payload := if daemonAnswers then scanned.stripped else scanned.raw
    some { p with
      sent := if payload.isEmpty then p.sent else p.sent ++ [(next, payload)]
      stage := .waiting }
  | _ => none

/-- SRC: pane.rs:602-612 -/
def eof (p : ReaderPane σ) : Option (ReaderPane σ) :=
  match p.stage with
  | .waiting =>
    let (rest, scanner) := p.scanner.takeHeld
    let p := { p with scanner, stage := .stopped }
    if rest.isEmpty then some p
    else
      let next := p.outputSeq + 1
      some { p.log next rest with sent := p.sent ++ [(next, rest)] }
  | _ => none

/-- SRC: pane.rs:781-794 -/
def inject (p : ReaderPane σ) (data : List UInt8) : Option (ReaderPane σ) :=
  match p.stage with
  | .stopped => do
    let next := p.outputSeq + 1
    let r ← processReplying tok width colors p.parser data
    return { (p.offer r.2).log next data with parser := r.1, sent := p.sent ++ [(next, data)] }
  | _ => none

/-- The next process gets a reader of its own.
SRC: pane.rs:663-712, pane.rs:517-525 -/
def respawn (p : ReaderPane σ) : Option (ReaderPane σ) :=
  match p.stage with
  | .stopped => some { p with scanner := QueryScanner.default tok, chunks := [], stage := .waiting }
  | _ => none

/-- SRC: pane.rs:1024-1029 -/
def resume (p : ReaderPane σ) (fromSeq : ℕ) : ReaderPane σ :=
  match p.replay.replaySince fromSeq p.outputSeq with
  | .inWindow chunks _ => { p with resumed := p.resumed ++ chunks }
  | .gapExceeded _ => p

def step (p : ReaderPane σ) : PaneEvent → Option (ReaderPane σ)
  | .decide chunk => p.decide chunk
  | .parse => p.parse tok width colors
  | .scan => p.scan tok
  | .push => p.push
  | .broadcast => p.broadcast
  | .eof => p.eof
  | .inject data => p.inject tok width colors data
  | .respawn => p.respawn tok
  | .register => some { p with clients := p.clients.register }
  | .goLiveAfter client seq => some { p with clients := p.clients.goLiveAfter client seq }
  | .setLagged client lagged => some { p with clients := p.clients.setLagged client lagged }
  | .dropClient client => some { p with clients := p.clients.drop client }
  | .resume fromSeq => some (p.resume fromSeq)

def run (p : ReaderPane σ) (events : List PaneEvent) : Option (ReaderPane σ) :=
  Lib.run (step tok width colors) p events

/-- A pane when a process starts in it. -/
def start (parser : Parser σ) (clients : ClientRegistry) (outputSeq budgetBytes : ℕ) :
    ReaderPane σ where
  parser
  scanner := QueryScanner.default tok
  clients
  outputSeq
  replay := ReplayBuffer.new budgetBytes

end ReaderPane

end Tymux.Model.TerminalQuery
