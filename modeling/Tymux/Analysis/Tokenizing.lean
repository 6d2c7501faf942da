import Tymux.Model.Scanner

/-!
# What the code relies on of the tokenizer

The emulator and the scanner each run a `vte` parser, and both rely on where its sequences begin
and end. `Phase` is that much of its state, a function of the bytes read: in an escape sequence, a
CSI, an OSC, or in none of them. `Lawful` says what the parser reports in each phase, and that an
ESC makes it forget what came before.
-/

set_option autoImplicit false

namespace Tymux.Analysis

open Tymux.Model.Vt Tymux.Model.TerminalQuery

/-! ## Phases -/

/-- `calm` is everything outside of an escape sequence, a CSI or an OSC: text, and the strings
that a client never answers. -/
inductive Phase where
  | calm
  | escape
  | csi
  | osc
  deriving DecidableEq, Repr

/-- CAN and SUB, which abort every sequence. -/
def Aborts (b : UInt8) : Prop := b = 0x18 ∨ b = 0x1a

/-- The bytes that end a CSI. -/
def CsiFinal (b : UInt8) : Prop := 0x40 ≤ b ∧ b ≤ 0x7e

instance (b : UInt8) : Decidable (Aborts b) := inferInstanceAs (Decidable (_ ∨ _))

instance (b : UInt8) : Decidable (CsiFinal b) := inferInstanceAs (Decidable (_ ∧ _))

def Phase.next (p : Phase) (b : UInt8) : Phase :=
  if b = 0x1b then .escape
  else if Aborts b then .calm
  else match p with
    | calm => .calm
    | escape =>
      if b = 0x5b then .csi
      else if b = 0x5d then .osc
      else if b < 0x20 ∨ 0x7f ≤ b then .escape
      else .calm
    | csi => if CsiFinal b then .calm else .csi
    | osc => if b = 0x07 then .calm else .osc

def phaseOf (u : List UInt8) : Phase := u.foldl Phase.next .calm

theorem phaseOf_append (u : List UInt8) (b : UInt8) : phaseOf (u ++ [b]) = (phaseOf u).next b := by
  rw [phaseOf, List.foldl_append]
  rfl

theorem Phase.next_esc (p : Phase) : p.next 0x1b = .escape := by
  cases p <;> rfl

theorem Phase.next_of_aborts (p : Phase) {b : UInt8} (h : Aborts b) : p.next b = .calm := by
  obtain rfl | rfl := h
  · cases p <;> rfl
  · cases p <;> rfl

theorem Phase.next_calm {b : UInt8} (h : b ≠ 0x1b) : Phase.calm.next b = .calm := by
  unfold Phase.next
  rw [if_neg h]
  split <;> rfl

/-- The number of bytes from the last ESC on. -/
def sinceEsc (u : List UInt8) : ℕ := (u.reverse.takeWhile fun b => b ≠ 0x1b).length + 1

theorem sinceEsc_esc (u : List UInt8) : sinceEsc (u ++ [0x1b]) = 1 := by
  simp [sinceEsc]

theorem sinceEsc_append (u : List UInt8) {b : UInt8} (h : b ≠ 0x1b) :
    sinceEsc (u ++ [b]) = sinceEsc u + 1 := by
  simp [sinceEsc, h]

/-! ## Actions -/

/-- The end of a CSI or an OSC. -/
def Dispatches : Action → Prop
  | .csiDispatch _ _ _ | .oscDispatch _ _ => True
  | _ => False

/-- What the parser may report for a byte in a phase. -/
def Allowed (p : Phase) (b : UInt8) (acts : List Action) : Prop :=
  match p with
  | .calm => ∀ a ∈ acts, ¬ Dispatches a
  | .escape =>
    if b = 0x1b ∨ b = 0x5b ∨ b = 0x5d ∨ 0x7f ≤ b then acts = []
    else if b < 0x20 ∧ ¬ Aborts b then acts = [.execute b]
    else ∀ a ∈ acts, ¬ Dispatches a
  | .csi =>
    if CsiFinal b then
      acts = [] ∨ ∃ params inter, acts = [.csiDispatch params inter (Char.ofNat b.toNat)]
    else if Aborts b then ∀ a ∈ acts, ¬ Dispatches a
    else if b < 0x20 ∧ b ≠ 0x1b then acts = [.execute b]
    else acts = []
  | .osc =>
    if b = 0x07 then ∃ params, acts = [.oscDispatch params true]
    else if b = 0x1b then ∃ params, acts = [.oscDispatch params false]
    else if Aborts b then
      ∃ params rest, acts = .oscDispatch params false :: rest ∧ ∀ a ∈ rest, ¬ Dispatches a
    else acts = []

end Tymux.Analysis

namespace Tymux.Model.Vt.Tokenizer

variable {σ : Type} (tok : Tokenizer σ)

/-- The state after the bytes. -/
def after (u : List UInt8) : σ := (tok.advanceAll tok.start u).1

/-- No input tells the two states apart. -/
def ObsEq (s t : σ) : Prop := ∀ u, (tok.advanceAll s u).2 = (tok.advanceAll t u).2

theorem advanceAll_append (s : σ) (u v : List UInt8) :
    tok.advanceAll s (u ++ v) =
      ((tok.advanceAll (tok.advanceAll s u).1 v).1,
        (tok.advanceAll s u).2 ++ (tok.advanceAll (tok.advanceAll s u).1 v).2) := by
  have hacc : ∀ (v : List UInt8) (r : σ × List Action),
      v.foldl (fun r b => ((tok.advance r.1 b).1, r.2 ++ (tok.advance r.1 b).2)) r =
        ((tok.advanceAll r.1 v).1, r.2 ++ (tok.advanceAll r.1 v).2) := by
    intro v
    induction v with
    | nil =>
        intro r
        simp [advanceAll]
    | cons b v ih =>
        intro r
        have hcons : tok.advanceAll r.1 (b :: v) =
            v.foldl (fun r b => ((tok.advance r.1 b).1, r.2 ++ (tok.advance r.1 b).2))
              ((tok.advance r.1 b).1, [] ++ (tok.advance r.1 b).2) := rfl
        rw [List.foldl_cons, ih, hcons, ih]
        simp only [List.nil_append, List.append_assoc]
  unfold advanceAll
  rw [List.foldl_append, hacc]
  rfl

theorem advanceAll_cons (s : σ) (b : UInt8) (u : List UInt8) :
    tok.advanceAll s (b :: u) =
      ((tok.advanceAll (tok.advance s b).1 u).1,
        (tok.advance s b).2 ++ (tok.advanceAll (tok.advance s b).1 u).2) := by
  have h := tok.advanceAll_append s [b] u
  simpa [advanceAll] using h

theorem advanceAll_singleton (s : σ) (b : UInt8) : tok.advanceAll s [b] = tok.advance s b := by
  simp [advanceAll]

theorem after_append (u : List UInt8) (b : UInt8) :
    tok.after (u ++ [b]) = (tok.advance (tok.after u) b).1 := by
  unfold after
  rw [advanceAll_append, advanceAll_singleton]

namespace ObsEq

variable {tok} {s t r : σ}

theorem refl (s : σ) : tok.ObsEq s s := fun _ => rfl

theorem symm (h : tok.ObsEq s t) : tok.ObsEq t s := fun u => (h u).symm

theorem trans (h : tok.ObsEq s t) (h' : tok.ObsEq t r) : tok.ObsEq s r :=
  fun u => (h u).trans (h' u)

theorem actions (h : tok.ObsEq s t) (b : UInt8) : (tok.advance s b).2 = (tok.advance t b).2 := by
  have hb := h [b]
  rwa [advanceAll_singleton, advanceAll_singleton] at hb

theorem advance (h : tok.ObsEq s t) (b : UInt8) :
    tok.ObsEq (tok.advance s b).1 (tok.advance t b).1 := by
  intro u
  have hu := h (b :: u)
  rw [advanceAll_cons, advanceAll_cons] at hu
  dsimp only at hu
  rw [h.actions b] at hu
  exact List.append_cancel_left hu

theorem advanceAll (h : tok.ObsEq s t) (bytes : List UInt8) :
    tok.ObsEq (tok.advanceAll s bytes).1 (tok.advanceAll t bytes).1 := by
  intro u
  have hu := h (bytes ++ u)
  rw [advanceAll_append, advanceAll_append] at hu
  dsimp only at hu
  rw [h bytes] at hu
  exact List.append_cancel_left hu

end ObsEq

end Tymux.Model.Vt.Tokenizer

namespace Tymux.Analysis

open Tymux.Model.Vt Tymux.Model.TerminalQuery

/-- The behaviour of `vte` that the scanner and the emulator share. -/
structure Lawful {σ : Type} (tok : Tokenizer σ) : Prop where
  /-- An ESC starts over, whatever was read before. -/
  esc : ∀ s t : σ, tok.ObsEq (tok.advance s 0x1b).1 (tok.advance t 0x1b).1
  allowed : ∀ u b, Allowed (phaseOf u) b (tok.advance (tok.after u) b).2

/-- The action is a query that the daemon knows.
SRC: scanner.rs:67-97 -/
def isQuery : Action → Bool
  | .csiDispatch params inter c =>
    match byteOfChar c with
    | some fin => (classifyCsi inter[0]? inter[1]? (paramAt params 0) fin).isSome
    | none => false
  | .oscDispatch params _ => (oscQuery params).isSome
  | _ => false

theorem not_isQuery_of_not_dispatches {a : Action} (h : ¬ Dispatches a) : isQuery a = false := by
  cases a with
  | csiDispatch params inter c => exact absurd trivial h
  | oscDispatch params bel => exact absurd trivial h
  | print c => rfl
  | execute b => rfl
  | escDispatch inter b => rfl
  | hook => rfl
  | put b => rfl
  | unhook => rfl

/-- The control that an action executes, CAN and SUB apart. -/
def control : Action → Option UInt8
  | .execute b => if b = 0x18 ∨ b = 0x1a then none else some b
  | _ => none

end Tymux.Analysis
