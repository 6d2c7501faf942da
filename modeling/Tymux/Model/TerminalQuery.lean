import Tymux.Model.Vt.Perform

/-!
# Terminal queries

`terminal_query.rs`: which CSI and OSC sequences are queries, and what the daemon replies to them
when no client's emulator will. The emulator's callbacks and the stream scanner share
`classifyCsi` and `oscQuery`.

The queue between the callbacks and the pty is left out; a reply counts once it is offered to it.
-/

set_option autoImplicit false

namespace Tymux.Model.TerminalQuery

open Tymux.Model.Vt

/-- `VTE_MAX_OSC_PARAMS` -/
def vteMaxOscParams : ℕ := 16

/-- SRC: terminal_query.rs:43-59 -/
inductive Query where
  | da1
  | da2
  | statusReport
  | cursorPosition
  | decCursorPosition
  | xtVersion
  | modeReport (dec : Bool) (mode : ℕ)
  | sizeReport (kind : ℕ)
  deriving DecidableEq, Repr

/-- SRC: terminal_query.rs:61-83 -/
def classifyCsi (i1 i2 : Option UInt8) (p0 : ℕ) (fin : UInt8) : Option Query :=
  match i1, i2, Char.ofNat fin.toNat with
  | none, none, 'c' => if p0 = 0 then some .da1 else none
  | some 0x3e, none, 'c' => if p0 = 0 then some .da2 else none
  | none, none, 'n' =>
    if p0 = 5 then some .statusReport else if p0 = 6 then some .cursorPosition else none
  | some 0x3f, none, 'n' => if p0 = 6 then some .decCursorPosition else none
  | some 0x3e, none, 'q' => if p0 = 0 then some .xtVersion else none
  | some 0x24, none, 'p' => some (.modeReport false p0)
  | some 0x3f, some 0x24, 'p' => some (.modeReport true p0)
  | none, none, 't' => if p0 = 18 ∨ p0 = 19 then some (.sizeReport p0) else none
  | _, _, _ => none

/-! ## Replies to a CSI -/

/-- SRC: terminal_query.rs:86-98 -/
def flag (on : Bool) : ℕ := if on then 1 else 2

/-- The DECRQM status of a mode: 0 not recognized, 1 set, 2 reset, 3 and 4 permanently so.
SRC: terminal_query.rs:100-138 -/
def modeStatus (screen : Screen) (dec : Bool) (mode : ℕ) : ℕ :=
  if !dec then
    match mode with
    | 2 => 4
    | 4 => flag screen.modes.insert
    | 12 => 3
    | 20 => flag screen.modes.newline
    | _ => 0
  else
    match mode with
    | 1 => flag screen.modes.applicationCursor
    | 6 => flag screen.currentGrid.originMode
    | 7 => flag !screen.modes.noAutowrap
    | 8 => 3
    | 9 => flag (screen.mouseProtocolMode = .press)
    | 25 => flag !screen.modes.hideCursor
    | 47 | 1047 | 1049 => flag screen.modes.alternateScreen
    | 66 => flag screen.modes.applicationKeypad
    | 67 | 1005 | 1015 => 4
    | 1000 => flag (screen.mouseProtocolMode = .pressRelease)
    | 1002 => flag (screen.mouseProtocolMode = .buttonMotion)
    | 1003 => flag (screen.mouseProtocolMode = .anyMotion)
    | 1004 => flag screen.modes.focusEvents
    | 1006 => flag (screen.mouseProtocolEncoding = .sgr)
    | 1048 => 1
    | 2004 => flag screen.modes.bracketedPaste
    | _ => 0

/-- The top of the scroll region, 1-based, and 0 if it is the whole screen.
SRC: grid.rs:671-677 -/
def scrollRegionTop (grid : Grid) : ℕ :=
  if grid.scrollTop = 0 ∧ grid.scrollBottom = grid.size.rows - 1 then 0 else grid.scrollTop + 1

/-- The cursor as the program sees it.
SRC: terminal_query.rs:140-156 -/
def cursorReport (screen : Screen) : ℕ × ℕ :=
  let grid := screen.currentGrid
  let row := if grid.originMode then grid.pos.row - (scrollRegionTop grid - 1) else grid.pos.row
  (min (min (row + 1) u16Max) grid.size.rows, min (min (grid.pos.col + 1) u16Max) grid.size.cols)

def textBytes (text : String) : List UInt8 := text.toUTF8.toList

/-- SRC: terminal_query.rs:158-187 -/
def replyFor (query : Query) (screen : Screen) : List UInt8 :=
  match query with
  | .da1 => textBytes "\x1b[?1;2c"
  | .da2 => textBytes "\x1b[>0;276;0c"
  | .statusReport => textBytes "\x1b[0n"
  | .cursorPosition =>
    let (r, c) := cursorReport screen
    textBytes s!"\x1b[{r};{c}R"
  | .decCursorPosition =>
    let (r, c) := cursorReport screen
    textBytes s!"\x1b[?{r};{c};1R"
  | .xtVersion => textBytes "\x1bP>|tymux 1.3.0\x1b\\"
  | .modeReport dec mode =>
    let status := modeStatus screen dec mode
    textBytes (if dec then s!"\x1b[?{mode};{status}$y" else s!"\x1b[{mode};{status}$y")
  | .sizeReport kind =>
    let size := screen.currentGrid.size
    let op := if kind = 18 then 8 else 9
    textBytes s!"\x1b[{op};{size.rows};{size.cols}t"

/-- `u8::try_from(c)` for a character. -/
def byteOfChar (c : Char) : Option UInt8 := if c.toNat < 256 then some c.toNat.toUInt8 else none

/-- SRC: terminal_query.rs:345-356 -/
def csiReply (screen : Screen) (i1 i2 : Option UInt8) (params : List (List ℕ)) (c : Char) :
    Option (List UInt8) := do
  let fin ← byteOfChar c
  let query ← classifyCsi i1 i2 (paramAt params 0) fin
  return replyFor query screen

/-! ## Colours -/

structure Rgb where
  r : ℕ
  g : ℕ
  b : ℕ
  deriving DecidableEq, Repr

/-- SRC: terminal_query.rs:191-210 -/
structure Colors where
  fg : Rgb := ⟨0xff, 0xff, 0xff⟩
  bg : Rgb := ⟨0, 0, 0⟩
  cursor : Rgb := ⟨0xff, 0xff, 0xff⟩
  deriving DecidableEq, Repr

/-- SRC: terminal_query.rs:243-261 -/
def ansi16 : List Rgb :=
  [⟨0x2e, 0x34, 0x36⟩, ⟨0xcc, 0x00, 0x00⟩, ⟨0x4e, 0x9a, 0x06⟩, ⟨0xc4, 0xa0, 0x00⟩,
    ⟨0x34, 0x65, 0xa4⟩, ⟨0x75, 0x50, 0x7b⟩, ⟨0x06, 0x98, 0x9a⟩, ⟨0xd3, 0xd7, 0xcf⟩,
    ⟨0x55, 0x57, 0x53⟩, ⟨0xef, 0x29, 0x29⟩, ⟨0x8a, 0xe2, 0x34⟩, ⟨0xfc, 0xe9, 0x4f⟩,
    ⟨0x72, 0x9f, 0xcf⟩, ⟨0xad, 0x7f, 0xa8⟩, ⟨0x34, 0xe2, 0xe2⟩, ⟨0xee, 0xee, 0xec⟩]

/-- SRC: terminal_query.rs:263-276 -/
def palette (index : ℕ) : Rgb :=
  if index ≤ 15 then ansi16[index]?.getD ⟨0, 0, 0⟩
  else if index ≤ 231 then
    let level (i : ℕ) := [0x00, 0x5f, 0x87, 0xaf, 0xd7, 0xff][i]?.getD 0
    let i := index - 16
    ⟨level (i / 36), level (i / 6 % 6), level (i % 6)⟩
  else
    let v := 8 + 10 * (index - 232)
    ⟨v, v, v⟩

/-- `{:02x}` -/
def hex2 (n : ℕ) : String :=
  let digits := Nat.toDigits 16 n
  String.ofList (if n < 16 then '0' :: digits else digits)

/-- SRC: terminal_query.rs:278-281 -/
def oscColor (name : String) (color : Rgb) (bel : Bool) : List UInt8 :=
  let terminator := if bel then "\x07" else "\x1b\\"
  let (r, g, b) := (hex2 color.r, hex2 color.g, hex2 color.b)
  textBytes s!"\x1b]{name};rgb:{r}{r}/{g}{g}/{b}{b}{terminator}"

/-- SRC: terminal_query.rs:283-290 -/
inductive OscItem where
  | dynamic (ident : ℕ)
  | palette (index : ℕ)
  deriving DecidableEq, Repr

/-- `parse::<u8>()`: an optional plus sign and at least one digit, at most 255 -/
def parseU8 (s : List UInt8) : Option ℕ :=
  let digits := match s with
    | 0x2b :: rest => rest
    | _ => s
  if digits.isEmpty || !digits.all (fun d => 0x30 ≤ d && d ≤ 0x39) then none
  else
    let n := digits.foldl (fun n d => 10 * n + (d.toNat - 0x30)) 0
    if n ≤ 255 then some n else none

/-- The pairs `index;?` of an `OSC 4`. -/
def palettePairs : List (List UInt8) → Option (List OscItem)
  | [] => some []
  | [_] => none
  | index :: mark :: rest => do
    let i ← parseU8 index
    if mark = [0x3f] then
      let items ← palettePairs rest
      return .palette i :: items
    else none

/-- The colours `base`, `base + 1`, ... up to 12, one per parameter. -/
def dynamicItems (base : ℕ) (rest : List (List UInt8)) : Option (List OscItem) :=
  if rest.isEmpty || rest.any (· ≠ [0x3f]) then none
  else some (((List.range' base (13 - base)).zip rest).map fun e => .dynamic e.1)

/-- SRC: terminal_query.rs:292-341 -/
def oscQuery (params : List (List UInt8)) : Option (List OscItem) :=
  match params with
  | [] => none
  | first :: rest =>
    if first = [0x31, 0x30] then dynamicItems 10 rest
    else if first = [0x31, 0x31] then dynamicItems 11 rest
    else if first = [0x31, 0x32] then dynamicItems 12 rest
    else if first = [0x34] then
      -- a full parameter list was cut off, so its odd last element is half a pair
      let rest := if vteMaxOscParams ≤ params.length ∧ rest.length % 2 = 1 then rest.dropLast
        else rest
      if rest.isEmpty || rest.length % 2 ≠ 0 then none else palettePairs rest
    else none

/-- SRC: terminal_query.rs:322-343 -/
def oscReplies (params : List (List UInt8)) (bel : Bool) (colors : Colors) : List (List UInt8) :=
  ((oscQuery params).getD []).map fun item => match item with
    | .palette i => oscColor s!"4;{i}" (TerminalQuery.palette i) bel
    | .dynamic ident =>
      let color := if ident = 10 then colors.fg else if ident = 11 then colors.bg else colors.cursor
      oscColor (toString ident) color bel

/-! ## The responder -/

/-- What `QueryResponder` makes of a callback.
SRC: terminal_query.rs:413-432 -/
def respond (colors : Colors) (screen : Screen) : Callback → List (List UInt8)
  | .unhandledCsi i1 i2 params c => (csiReply screen i1 i2 params c).toList
  | .unhandledOsc params bel => oscReplies params bel colors
  | _ => []

/-- The actions in order, with the replies to all of them. -/
def performReplying (width : Char → Option ℕ) (colors : Colors) (screen : Screen)
    (actions : List Vt.Action) : Option (Screen × List (List UInt8)) :=
  actions.foldlM (fun r a => do
    let next ← r.1.perform width a
    return (next.1, r.2 ++ next.2.flatMap (respond colors next.1))) (screen, [])

/-- `Parser::process` with the responder as its callbacks.
SRC: parser.rs:50-76, terminal_query.rs:413-432 -/
def processReplying {σ : Type} (tok : Tokenizer σ) (width : Char → Option ℕ) (colors : Colors)
    (p : Parser σ) (bytes : List UInt8) : Option (Parser σ × List (List UInt8)) := do
  let out := if !p.pendingC2 && !bytes.contains 0xc2 then (bytes, false)
    else Parser.rewrite p.pendingC2 bytes
  let r := tok.advanceAll p.parser out.1
  let next ← performReplying width colors p.screen r.2
  return ({ parser := r.1, pendingC2 := out.2, screen := next.1 }, next.2)

end Tymux.Model.TerminalQuery
