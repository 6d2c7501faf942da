import Tymux.Model.Vt.Cell

/-!
# Attributes written as an SGR sequence

`term.rs`, as far as it writes attributes, and the difference of two sets of attributes in
`attrs.rs`. A sequence is written parameter by parameter into a buffer; the underline style is the
one parameter with a sub-parameter, and is written by hand.
-/

set_option autoImplicit false

namespace Tymux.Model.Vt

/-- SRC: term.rs:585-588 -/
def itoa (i : ℕ) : List UInt8 := (Nat.toDigits 10 i).map fun c => UInt8.ofNat c.toNat

namespace Term

/-- What is to be written; nothing about the fields that are `none`.
SRC: term.rs:109-122 -/
structure Attrs where
  fgcolor : Option Color := none
  bgcolor : Option Color := none
  ulcolor : Option Color := none
  intensity : Option (Bool × Bool) := none
  italic : Option Bool := none
  underline : Option (Option UnderlineStyle) := none
  inverse : Option Bool := none
  strikethrough : Option Bool := none
  blink : Option Bool := none
  conceal : Option Bool := none
  overline : Option Bool := none
  deriving DecidableEq, Repr

/-- What has been written, and whether no parameter was. -/
structure Written where
  buf : List UInt8
  first : Bool

/-- SRC: term.rs:101-105 -/
def clearAttrs : List UInt8 := [0x1b, 0x5b, 0x6d]

namespace Written

/-- The bytes of one parameter, behind a `;` unless they are the first.
SRC: term.rs:203-212 -/
def push (w : Written) (param : List UInt8) : Written where
  buf := (if w.first then w.buf else w.buf ++ [0x3b]) ++ param
  first := false

/-- SRC: term.rs:203-212 -/
def writeParam (w : Written) (i : ℕ) : Written := w.push (itoa i)

/-- SRC: term.rs:214-240 -/
def writeColor (default lo hi ext : ℕ) (w : Written) : Color → Written
  | .default => w.writeParam default
  | .idx i =>
    if lo ≠ 0 ∧ i < 8 then w.writeParam (i + lo)
    else if lo ≠ 0 ∧ i < 16 then w.writeParam (i + hi)
    else ((w.writeParam ext).writeParam 5).writeParam i
  | .rgb r g b => ((((w.writeParam ext).writeParam 2).writeParam r).writeParam g).writeParam b

/-- SRC: term.rs:252-260 -/
def writeIntensity (w : Written) (intensity : Bool × Bool) : Written :=
  let w := w.writeParam 22
  let w := if intensity.1 then w.writeParam 1 else w
  if intensity.2 then w.writeParam 2 else w

/-- SRC: term.rs:266-290 -/
def writeUnderline (w : Written) : Option UnderlineStyle → Written
  | none => w.push [0x32, 0x34]
  | some .single => w.push [0x34]
  | some .double => w.push [0x34, 0x3a, 0x32]
  | some .curly => w.push [0x34, 0x3a, 0x33]
  | some .dotted => w.push [0x34, 0x3a, 0x34]
  | some .dashed => w.push [0x34, 0x3a, 0x35]

/-- One of two parameters. -/
def writeFlag (on off : ℕ) (w : Written) (flag : Bool) : Written :=
  w.writeParam (if flag then on else off)

/-- `if let Some(..)` -/
def writeSome {α : Type} (w : Written) (field : Option α) (write : Written → α → Written) :
    Written :=
  match field with
  | some a => write w a
  | none => w

end Written

/-- SRC: term.rs:184-309 -/
def Attrs.writeBuf (t : Attrs) : List UInt8 :=
  if t.fgcolor.isNone ∧ t.bgcolor.isNone ∧ t.ulcolor.isNone ∧ t.intensity.isNone ∧
      t.italic.isNone ∧ t.underline.isNone ∧ t.inverse.isNone ∧ t.strikethrough.isNone ∧
      t.blink.isNone ∧ t.conceal.isNone ∧ t.overline.isNone then []
  else
    let w : Written := { buf := [0x1b, 0x5b], first := true }
    let w := w.writeSome t.fgcolor (.writeColor 39 30 82 38)
    let w := w.writeSome t.bgcolor (.writeColor 49 40 92 48)
    let w := w.writeSome t.ulcolor (.writeColor 59 0 0 58)
    let w := w.writeSome t.intensity .writeIntensity
    let w := w.writeSome t.italic (.writeFlag 3 23)
    let w := w.writeSome t.underline .writeUnderline
    let w := w.writeSome t.inverse (.writeFlag 7 27)
    let w := w.writeSome t.strikethrough (.writeFlag 9 29)
    let w := w.writeSome t.blink (.writeFlag 5 25)
    let w := w.writeSome t.conceal (.writeFlag 8 28)
    let w := w.writeSome t.overline (.writeFlag 53 55)
    w.buf ++ [0x6d]

end Term

namespace Attrs

/-- SRC: attrs.rs:168-177 -/
def sgrEq (a other : Attrs) : Bool := { a with hyperlink := 0 } = { other with hyperlink := 0 }

/-- The value, if it is another one. -/
def changed {α : Type} [DecidableEq α] (now before : α) : Option α :=
  if now ≠ before then some now else none

/-- SRC: attrs.rs:126-163 -/
def changes (a other : Attrs) : Term.Attrs where
  fgcolor := changed a.fgcolor other.fgcolor
  bgcolor := changed a.bgcolor other.bgcolor
  ulcolor := changed a.ulcolor other.ulcolor
  -- 22 clears both, so either one brings the other with it
  intensity := if a.bold ≠ other.bold ∨ a.dim ≠ other.dim then some (a.bold, a.dim) else none
  italic := changed a.italic other.italic
  underline :=
    if a.underline ≠ other.underline ∨ (a.underline ∧ a.underlineStyle ≠ other.underlineStyle) then
      some (if a.underline then some a.underlineStyle else none)
    else none
  inverse := changed a.inverse other.inverse
  strikethrough := changed a.strikethrough other.strikethrough
  blink := changed a.blink other.blink
  conceal := changed a.conceal other.conceal
  overline := changed a.overline other.overline

/-- The bytes that are written.
SRC: attrs.rs:120-166 -/
def writeEscapeCodeDiff (a other : Attrs) : List UInt8 :=
  if a ≠ other ∧ a.sgrEq {} then Term.clearAttrs else (a.changes other).writeBuf

end Attrs

end Tymux.Model.Vt
