import Tymux.Model.TerminalQuery

/-!
# The stream scanner

`terminal_query/scanner.rs`: the scanner that runs over a pane's output beside the emulator, holds
back an escape sequence that the end of a chunk cuts, and gives each chunk with and without the
queries in it. It tokenizes with a `vte` parser of its own, one byte at a time, and skips what
cannot matter: text up to the next ESC, and complete CSIs whose final byte no query has.
-/

set_option autoImplicit false

namespace Tymux.Model.TerminalQuery

open Tymux.Model.Vt

/-- SRC: scanner.rs:8 -/
def maxHeld : ℕ := 65536

/-- `None` for `removed` means that nothing was removed.
SRC: scanner.rs:11-21 -/
structure Scanned where
  raw : List UInt8
  removed : Option (List UInt8)
  deriving DecidableEq, Repr

def Scanned.stripped (s : Scanned) : List UInt8 := s.removed.getD s.raw

/-- SRC: scanner.rs:23-27 -/
def mayBeQueryFinal (b : UInt8) : Bool :=
  b = 0x63 || b = 0x6e || b = 0x71 || b = 0x70 || b = 0x74

/-- A byte range to drop, replaced by the controls executed in it. -/
structure Removal where
  start : ℕ
  stop : ℕ
  controls : List UInt8
  deriving DecidableEq, Repr

/-- SRC: scanner.rs:29-41 -/
structure Tracker where
  seqStart : Option ℕ := none
  nonGround : Bool := false
  index : ℕ := 0
  byte : UInt8 := 0
  embeddedC0 : List UInt8 := []
  removals : List Removal := []
  deriving DecidableEq, Repr

namespace Tracker

/-- SRC: scanner.rs:44-47 -/
def remove (t : Tracker) (start stop : ℕ) : Tracker :=
  { t with removals := t.removals ++ [⟨start, stop, t.embeddedC0⟩], embeddedC0 := [] }

/-- SRC: scanner.rs:49-53 -/
def close (t : Tracker) : Tracker :=
  { t with seqStart := none, nonGround := false, embeddedC0 := [] }

/-- SRC: scanner.rs:61-65 -/
def execute (t : Tracker) (b : UInt8) : Tracker :=
  if t.seqStart.isSome ∧ b ≠ 0x18 ∧ b ≠ 0x1a then { t with embeddedC0 := t.embeddedC0 ++ [b] }
  else t

/-- SRC: scanner.rs:67-80 -/
def csiDispatch (t : Tracker) (params : List (List ℕ)) (intermediates : List UInt8) (c : Char) :
    Tracker :=
  match t.seqStart, byteOfChar c with
  | some start, some fin =>
    if (classifyCsi intermediates[0]? intermediates[1]? (paramAt params 0) fin).isSome then
      (t.remove start (t.index + 1)).close
    else t.close
  | _, _ => t.close

/-- An ESC or CAN that ends the sequence is not part of it.
SRC: scanner.rs:82-97 -/
def oscDispatch (t : Tracker) (params : List (List UInt8)) : Tracker :=
  let t := match t.seqStart with
    | some start =>
      if (oscQuery params).isSome then
        t.remove start (if t.byte = 0x07 then t.index + 1 else t.index)
      else t
    | none => t
  if t.byte = 0x07 then t.close else t

/-- SRC: scanner.rs:56-111 -/
def perform (t : Tracker) : Vt.Action → Tracker
  | .print _ => t.close
  | .execute b => t.execute b
  | .csiDispatch params intermediates c => t.csiDispatch params intermediates c
  | .oscDispatch params _ => t.oscDispatch params
  | .escDispatch _ _ => t.close
  | .hook => { t with seqStart := none }
  | .put _ => t
  | .unhook => t.close

/-- What `scan` does after the tokenizer has seen the byte at `i`. A CSI that ends in a malformed
state is swallowed without any callback.
SRC: scanner.rs:203-225 -/
def afterByte (t : Tracker) (buf : List UInt8) (i : ℕ) (b : UInt8) : Tracker :=
  if b = 0x1b then { t with seqStart := some i, embeddedC0 := [], nonGround := true }
  else if b = 0x18 ∨ b = 0x1a then t.close
  else if 0x40 ≤ b ∧ b ≤ 0x7e then
    match t.seqStart with
    | some start => if start + 1 < i ∧ buf[start + 1]? = some 0x5b then t.close else t
    | none => t
  else t

end Tracker

/-- SRC: scanner.rs:230-240 -/
def findEsc (s : List UInt8) : Option ℕ :=
  match (s.take 24).findIdx? (· = 0x1b) with
  | some p => some p
  | none => ((s.drop 24).findIdx? (· = 0x1b)).map (· + 24)

/-- SRC: scanner.rs:242-256 -/
def completeOtherCsi (s : List UInt8) : Option ℕ :=
  match s with
  | 0x1b :: 0x5b :: rest =>
    let params := (rest.takeWhile fun b => 0x20 ≤ b ∧ b ≤ 0x3f).length
    match rest[params]? with
    | none => none
    | some fin =>
      if 0x40 ≤ fin ∧ fin ≤ 0x7e ∧ !mayBeQueryFinal fin then some (params + 3) else none
  | _ => none

section Scan

variable {σ : Type} (tok : Tokenizer σ)

/-- One byte through the tokenizer. -/
def scanByte (buf : List UInt8) (q : σ) (t : Tracker) (i : ℕ) (b : UInt8) : σ × Tracker :=
  let r := tok.advance q b
  (r.1, (r.2.foldl Tracker.perform { t with index := i, byte := b }).afterByte buf i b)

/-- The loop of `scan`. Every round moves `i` forward, so the length of the buffer is enough fuel.
SRC: scanner.rs:190-228 -/
def scanLoop (buf : List UInt8) : ℕ → σ → Tracker → ℕ → σ × Tracker
  | 0, q, t, _ => (q, t)
  | fuel + 1, q, t, i =>
    if t.nonGround then
      match buf[i]? with
      | none => (q, t)
      | some b =>
        let r := scanByte tok buf q t i b
        scanLoop buf fuel r.1 r.2 (i + 1)
    else
      match findEsc (buf.drop i) with
      | none => (q, t)
      | some p =>
        match completeOtherCsi (buf.drop (i + p)) with
        | some n => scanLoop buf fuel q t (i + p + n)
        | none =>
          let r := scanByte tok buf q t (i + p) 0x1b
          scanLoop buf fuel r.1 r.2 (i + p + 1)

def scan (q : σ) (t : Tracker) (buf : List UInt8) («from» : ℕ) : σ × Tracker :=
  scanLoop tok buf (buf.length + 1) q t «from»

/-- The bytes before `upTo` without the removed ranges.
SRC: scanner.rs:165-178 -/
def cutRemovals (emit : List UInt8) (removals : List Removal) : List UInt8 :=
  let r := removals.foldl
    (fun acc r => (acc.1 ++ (emit.take r.start).drop acc.2 ++ r.controls, r.stop))
    (([] : List UInt8), 0)
  r.1 ++ emit.drop r.2

/-- SRC: scanner.rs:113-118 -/
structure QueryScanner (σ : Type) where
  parser : σ
  tracker : Tracker
  held : List UInt8

namespace QueryScanner

def default : QueryScanner σ where
  parser := tok.start
  tracker := {}
  held := []

/-- SRC: scanner.rs:126-130 -/
def takeHeld (s : QueryScanner σ) : List UInt8 × QueryScanner σ :=
  (s.held, { s with tracker := { s.tracker with seqStart := none }, held := [] })

/-- The end of `feed`: what is held back, and what is given out.
SRC: scanner.rs:152-187 -/
def finish (q : σ) (t : Tracker) (buf : List UInt8) : Scanned × QueryScanner σ :=
  let holdFrom := (t.seqStart.filter fun s => buf.length - s ≤ maxHeld).getD buf.length
  let emit := buf.take holdFrom
  let scanned : Scanned :=
    { raw := emit
      removed := if t.removals.isEmpty then none else some (cutRemovals emit t.removals) }
  if holdFrom < buf.length then (scanned, ⟨q, t, buf.drop holdFrom⟩)
  else if t.seqStart.isSome then
    (scanned, ⟨q, { t with seqStart := none, embeddedC0 := [] }, []⟩)
  else (scanned, ⟨q, t, []⟩)

/-- SRC: scanner.rs:132-188 -/
def feed (s : QueryScanner σ) (chunk : List UInt8) : Scanned × QueryScanner σ :=
  if s.held.isEmpty && !s.tracker.nonGround && !chunk.contains 0x1b then
    (⟨chunk, none⟩, s)
  else
    let buf := s.held ++ chunk
    let t := { s.tracker with
      removals := []
      seqStart := if 0 < s.held.length then some 0 else none }
    let r := scan tok s.parser t buf s.held.length
    finish r.1 r.2 buf

/-- The chunks one after the other. -/
def feedAll (s : QueryScanner σ) : List (List UInt8) → List Scanned × QueryScanner σ
  | [] => ([], s)
  | chunk :: chunks =>
    let r := s.feed tok chunk
    let rest := r.2.feedAll chunks
    (r.1 :: rest.1, rest.2)

end QueryScanner

end Scan

end Tymux.Model.TerminalQuery
