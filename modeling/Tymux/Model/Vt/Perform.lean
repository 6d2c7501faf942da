import Tymux.Model.Vt.Screen

/-!
# The actions of the tokenizer and what the emulator does with them

`perform.rs` and `parser.rs`. The byte stream is cut into actions by `vte`, which is not part of
the repository: a `Tokenizer` is any machine that reads one byte at a time, so what it reports
does not depend on how the stream is cut into chunks. The calls of the `Callbacks` trait are
collected in the order they are made.
-/

set_option autoImplicit false

namespace Tymux.Model.Vt

open Tymux.Lib

/-- The methods of `vte::Perform`. Neither side reads the flag `ignore` nor what is in a DCS. -/
inductive Action where
  | print (c : Char)
  | execute (b : UInt8)
  | escDispatch (intermediates : List UInt8) (b : UInt8)
  | csiDispatch (params : List (List ℕ)) (intermediates : List UInt8) (c : Char)
  | oscDispatch (params : List (List UInt8)) (belTerminated : Bool)
  | hook
  | put (b : UInt8)
  | unhook
  deriving DecidableEq, Repr

/-- `vte::Parser` -/
structure Tokenizer (σ : Type) where
  start : σ
  advance : σ → UInt8 → σ × List Action

/-- SRC: callbacks.rs:3-80 -/
inductive Callback where
  | audibleBell
  | visualBell
  | resize (rows cols : ℕ)
  | setWindowIconName (name : List UInt8)
  | setWindowTitle (title : List UInt8)
  | copyToClipboard (ty data : List UInt8)
  | pasteFromClipboard (ty : List UInt8)
  | unhandledChar (c : Char)
  | unhandledControl (b : UInt8)
  | unhandledEscape (i1 i2 : Option UInt8) (b : UInt8)
  | unhandledCsi (i1 i2 : Option UInt8) (params : List (List ℕ)) (c : Char)
  | unhandledOsc (params : List (List UInt8)) (belTerminated : Bool)
  deriving DecidableEq, Repr

/-- `MAX_OSC_PARAMS` -/
def maxOscParams : ℕ := 16

/-- `BASE64` and `CLIPBOARD_SELECTOR` as predicates on a byte -/
def isBase64 (b : UInt8) : Bool :=
  (0x41 ≤ b && b ≤ 0x5a) || (0x61 ≤ b && b ≤ 0x7a) || (0x30 ≤ b && b ≤ 0x39) ||
    b = 0x2b || b = 0x2f || b = 0x3d

def isClipboardSelector (b : UInt8) : Bool :=
  b = 0x63 || b = 0x70 || b = 0x71 || b = 0x73 || (0x30 ≤ b && b ≤ 0x37)

/-! ## Parameters -/

/-- The first number of parameter `i`, 0 if there is none. -/
def paramAt (params : List (List ℕ)) (i : ℕ) : ℕ := ((params[i]?.getD [])[0]?).getD 0

def orDefault (n default : ℕ) : ℕ := if n = 0 then default else n

/-- `canonicalize_params_1`, `canonicalize_params_2` and `canonicalize_params_decstbm`
SRC: perform.rs:263-293 -/
def canonicalizeParams1 (params : List (List ℕ)) (default : ℕ) : ℕ :=
  orDefault (paramAt params 0) default

def canonicalizeParams2 (params : List (List ℕ)) (default1 default2 : ℕ) : ℕ × ℕ :=
  (orDefault (paramAt params 0) default1, orDefault (paramAt params 1) default2)

def canonicalizeParamsDecstbm (params : List (List ℕ)) (size : Size) : ℕ × ℕ :=
  (orDefault (paramAt params 0) 1, orDefault (paramAt params 1) size.rows)

/-! ## Dispatch -/

namespace Screen

/-- The screen with the calls that are made on the way. -/
abbrev Performed : Type := Option (Screen × List Callback)

/-- No call is made. -/
def quiet (s : Option Screen) : Performed := s.map (·, [])

/-- The same call is made a number of times. -/
def calling (callback : Callback) (r : Screen × ℕ) : Screen × List Callback :=
  (r.1, List.replicate r.2 callback)

/-- SRC: perform.rs:27-33 -/
def print (width : Char → Option ℕ) (s : Screen) (c : Char) : Performed :=
  if 0x80 ≤ c.toNat ∧ c.toNat < 0xa0 then some (s, [.unhandledChar c])
  else quiet (s.text width c)

/-- SRC: perform.rs:35-53 -/
def execute (s : Screen) (b : UInt8) : Performed :=
  let s := if b = 14 ∨ b = 15 then s else s.breakRep
  match b.toNat with
  | 7 => some (s, [.audibleBell])
  | 8 => quiet s.bs
  | 9 => quiet s.tab
  | 10 => quiet s.lf
  -- `vt` and `ff` are line feeds
  | 11 => quiet s.lf
  | 12 => quiet s.lf
  | 13 => quiet s.cr
  | 14 => some (s.shift 1, [])
  | 15 => some (s.shift 0, [])
  | _ => some (s, [.unhandledControl b])

/-- An escape sequence without intermediates.
SRC: perform.rs:73-94 -/
def escFinal (s : Screen) (b : UInt8) : Performed :=
  match Char.ofNat b.toNat with
  | 'D' => quiet s.ind
  | 'E' => quiet s.nel
  | 'H' => some (s.hts, [])
  | 'N' => some (s.singleShift 2, [])
  | 'n' => some (s.shift 2, [])
  | 'o' => some (s.shift 3, [])
  | 'O' => some (s.singleShift 3, [])
  | '7' => some (s.saveCursor, [])
  | '8' => quiet s.restoreCursor
  | '=' => some (s.deckpam true, [])
  | '>' => some (s.deckpam false, [])
  | 'M' => quiet s.ri
  | 'c' => quiet s.ris
  | 'g' => some (s, [.visualBell])
  | _ => some (s, [.unhandledEscape none none b])

/-- SRC: perform.rs:55-94 -/
def escDispatch (width : Char → Option ℕ) (s : Screen) (intermediates : List UInt8) (b : UInt8) :
    Performed :=
  let s := s.breakRep
  match intermediates with
  | [] => s.escFinal b
  | [i] =>
    if i = 0x28 ∨ i = 0x29 ∨ i = 0x2a ∨ i = 0x2b then some (s.scs i b, [])
    else if i = 0x23 ∧ b = 0x38 then quiet (s.decaln width)
    else some (s, [.unhandledEscape (some i) none b])
  | i :: j :: _ => some (s, [.unhandledEscape (some i) (some j) b])

/-- A CSI without intermediates.
SRC: perform.rs:110-183 -/
def csiFinal (width : Char → Option ℕ) (s : Screen) (params : List (List ℕ)) (c : Char) :
    Performed :=
  let p0 := canonicalizeParams1 params 0
  let p1 := canonicalizeParams1 params 1
  let unhandled := Callback.unhandledCsi none none params c
  match c with
  | '@' => quiet (s.ich p1)
  | 'A' => quiet (s.cuu p1)
  | 'B' => quiet (s.cud p1)
  | 'C' => quiet (s.cuf p1)
  | 'D' => quiet (s.cub p1)
  | 'E' => quiet (s.cnl p1)
  | 'F' => quiet (s.cpl p1)
  | 'G' => quiet (s.cha p1)
  | 'H' => quiet (s.cup (canonicalizeParams2 params 1 1).1 (canonicalizeParams2 params 1 1).2)
  | 'J' => (s.ed p0).map (calling unhandled)
  | 'K' => (s.el p0).map (calling unhandled)
  | 'L' => quiet (s.il p1)
  | 'M' => quiet (s.dl p1)
  | 'P' => quiet (s.dch p1)
  | 'S' => quiet (s.su p1)
  | 'T' => quiet (s.sd p1)
  | 'X' => quiet (s.ech p1)
  | 'b' => quiet (s.rep width p1)
  | '\x60' => quiet (s.cha p1)
  | 'a' => quiet (s.cuf p1)
  | 'e' => quiet (s.cud p1)
  | 'f' => quiet (s.cup (canonicalizeParams2 params 1 1).1 (canonicalizeParams2 params 1 1).2)
  | 'I' => quiet (s.cht p1)
  | 'Z' => quiet (s.cbt p1)
  | 'g' => some (calling unhandled (s.tbc p0))
  | 'h' => some (calling unhandled (s.ansiMode params true))
  | 'l' => some (calling unhandled (s.ansiMode params false))
  | 's' => some (s.saveCursor, [])
  | 'u' => quiet s.restoreCursor
  | 'd' => quiet (s.vpa p1)
  | 'm' => some (calling unhandled (s.sgr params))
  | 'r' =>
    let region := canonicalizeParamsDecstbm params s.currentGrid.size
    quiet (s.decstbm region.1 region.2)
  | 't' =>
    if params[0]?.bind (·[0]?) = some 8 then
      -- a parameter that is missing is the size of the screen
      let rows := (params[1]?.bind (·[0]?)).getD s.currentGrid.size.rows
      let cols := (params[2]?.bind (·[0]?)).getD s.currentGrid.size.cols
      some (s, [.resize rows cols])
    else some (s, [unhandled])
  | _ => some (s, [unhandled])

/-- A CSI with the private marker `?`.
SRC: perform.rs:184-203 -/
def csiPrivate (s : Screen) (params : List (List ℕ)) (i2 : Option UInt8) (c : Char) : Performed :=
  let p0 := canonicalizeParams1 params 0
  let unhandled := Callback.unhandledCsi (some 0x3f) i2 params c
  match c with
  | 'J' => (s.ed p0).map (calling unhandled)
  | 'K' => (s.el p0).map (calling unhandled)
  | 'h' => (s.decset params).map (calling unhandled)
  | 'l' => (s.decrst params).map (calling unhandled)
  | _ => some (s, [unhandled])

/-- SRC: perform.rs:96-219 -/
def csiDispatch (width : Char → Option ℕ) (s : Screen) (params : List (List ℕ))
    (intermediates : List UInt8) (c : Char) : Performed :=
  let s := if c = 'b' then s else s.breakRep
  match intermediates with
  | [] => s.csiFinal width params c
  | i :: rest =>
    if i = 0x3f then s.csiPrivate params rest.head? c
    else if i = 0x21 ∧ c = 'p' then quiet s.decstr
    else if i = 0x20 ∧ c = 'q' ∧ rest = [] then
      some (s.decscusr (canonicalizeParams1 params 0), [])
    else some (s, [.unhandledCsi (some i) rest.head? params c])

/-- `join` with `;` -/
def joinParams (params : List (List UInt8)) : List UInt8 := [0x3b].intercalate params

/-- An `OSC 52`.
SRC: perform.rs:247-261 -/
def clipboard (ty data : List UInt8) (params : List (List UInt8)) (belTerminated : Bool) :
    Callback :=
  if ty.all isClipboardSelector then
    if data = [0x3f] then .pasteFromClipboard ty
    else if data.all isBase64 then .copyToClipboard ty data
    else .unhandledOsc params belTerminated
  else .unhandledOsc params belTerminated

/-- The first parameter says what the sequence is about: 0 and 2 the title, 1 the icon name,
8 a hyperlink, 52 the clipboard.
SRC: perform.rs:221-261 -/
def oscDispatch (s : Screen) (params : List (List UInt8)) (belTerminated : Bool) : Performed :=
  let unhandled := some (s, [Callback.unhandledOsc params belTerminated])
  match params with
  | [] => unhandled
  | first :: rest =>
    if first = [0x30] ∧ rest ≠ [] then
      some (s, [.setWindowIconName (joinParams rest), .setWindowTitle (joinParams rest)])
    else if first = [0x31] ∧ rest.length = 1 then some (s, [.setWindowIconName (joinParams rest)])
    else if first = [0x32] ∧ rest ≠ [] then some (s, [.setWindowTitle (joinParams rest)])
    else if first = [0x38] then
      -- a full set of parameters may have lost the tail of the URI
      if maxOscParams ≤ params.length then quiet (s.osc8 [] [])
      else match rest with
        | linkParams :: u :: us => quiet (s.osc8 linkParams (joinParams (u :: us)))
        | _ => quiet (s.osc8 [] [])
    else if first = [0x35, 0x32] then
      match rest with
      | [ty, data] => some (s, [clipboard ty data params belTerminated])
      | _ => unhandled
    else unhandled

/-- SRC: perform.rs:26-262 -/
def perform (width : Char → Option ℕ) (s : Screen) : Action → Performed
  | .print c => s.print width c
  | .execute b => s.execute b
  | .escDispatch intermediates b => s.escDispatch width intermediates b
  | .csiDispatch params intermediates c => s.csiDispatch width params intermediates c
  | .oscDispatch params belTerminated => s.oscDispatch params belTerminated
  | .hook => some (s, [])
  | .put _ => some (s, [])
  | .unhook => some (s, [])

/-- The actions in order, with the calls of all of them. -/
def performAll (width : Char → Option ℕ) (s : Screen) (actions : List Action) : Performed :=
  actions.foldlM (fun r a => do
    let next ← r.1.perform width a
    return (next.1, r.2 ++ next.2)) (s, [])

end Screen

/-! ## The parser -/

/-- SRC: parser.rs:3-8 -/
structure Parser (σ : Type) where
  parser : σ
  pendingC2 : Bool
  screen : Screen

/-- One byte of the rewriting of `C2 80`..`C2 9F` to `ESC @`..`ESC _`: what is handed on, and
whether a `C2` waits for its partner.
SRC: parser.rs:56-72 -/
def rewriteC1 (pendingC2 : Bool) (b : UInt8) : List UInt8 × Bool :=
  if pendingC2 ∧ 0x80 ≤ b ∧ b ≤ 0x9f then ([0x1b, b - 0x40], false)
  else
    let before := if pendingC2 then [0xc2] else []
    if b = 0xc2 then (before, true) else (before ++ [b], false)

namespace Tokenizer

variable {σ : Type}

/-- The actions of a list of bytes. -/
def advanceAll (tok : Tokenizer σ) (t : σ) (bytes : List UInt8) : σ × List Action :=
  bytes.foldl (fun r b => ((tok.advance r.1 b).1, r.2 ++ (tok.advance r.1 b).2)) (t, [])

end Tokenizer

namespace Parser

variable {σ : Type}

/-- SRC: parser.rs:13-20 -/
def new (tok : Tokenizer σ) (rows cols scrollbackLen : ℕ) : Option (Parser σ) := do
  let screen ← Screen.new ⟨rows, cols⟩ scrollbackLen
  return { parser := tok.start, pendingC2 := false, screen }

/-- The bytes handed to `vte` for a chunk. -/
def rewrite (pendingC2 : Bool) (bytes : List UInt8) : List UInt8 × Bool :=
  bytes.foldl (fun r b => (r.1 ++ (rewriteC1 r.2 b).1, (rewriteC1 r.2 b).2)) ([], pendingC2)

/-- SRC: parser.rs:50-76 -/
def process (tok : Tokenizer σ) (width : Char → Option ℕ) (p : Parser σ) (bytes : List UInt8) :
    Option (Parser σ × List Callback) := do
  let out := if !p.pendingC2 && !bytes.contains 0xc2 then (bytes, false)
    else rewrite p.pendingC2 bytes
  let r := tok.advanceAll p.parser out.1
  let next ← p.screen.performAll width r.2
  return ({ parser := r.1, pendingC2 := out.2, screen := next.1 }, next.2)

end Parser

end Tymux.Model.Vt
