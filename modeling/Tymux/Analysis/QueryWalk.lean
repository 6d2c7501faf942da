import Tymux.Analysis.Answering
import Tymux.Analysis.Chunks

/-!
# The output as the emulator answers it

`Walk` reads the output of a pane one byte at a time with the emulator and cuts it at the queries:
a query goes from the last ESC to the byte at which the emulator produced a reply. It says what
the scanner is for, and does not know the scanner.

The emulator holds back a `C2` until it has seen the next byte; apart from that it has read what
the walk has read (`EmulatorAt`), as long as the output has no `C2 80`..`C2 9F`.
-/

set_option autoImplicit false

namespace Tymux.Analysis

open Tymux.Model.Vt Tymux.Model.TerminalQuery Tymux.Analysis.Vt Tymux.Lib

/-! ## Pieces of the output -/

/-- A part of the output: text, or a query with the controls executed in it, the replies to it,
and whether the daemon is the one to give them. -/
inductive Piece where
  | text (bytes : List UInt8)
  | query (bytes controls : List UInt8) (replies : List (List UInt8)) (daemon : Bool)
  deriving DecidableEq, Repr

namespace Piece

def raw : Piece → List UInt8
  | text bytes => bytes
  | query bytes _ _ _ => bytes

/-- A query leaves the controls in it. -/
def stripped : Piece → List UInt8
  | text bytes => bytes
  | query _ controls _ _ => controls

/-- Only a query that the daemon answers is taken out. -/
def payload : Piece → List UInt8
  | text bytes => bytes
  | query bytes controls _ daemon => if daemon then controls else bytes

def replies : Piece → List (List UInt8)
  | text _ => []
  | query _ _ replies _ => replies

def offered : Piece → List (List UInt8)
  | text _ => []
  | query _ _ replies daemon => if daemon then replies else []

end Piece

/-- The output cut into pieces, with what came after the last ESC and the controls executed
since. -/
structure Cut where
  pieces : List Piece
  opened : List UInt8
  controls : List UInt8
  deriving DecidableEq, Repr

/-- The next byte, with the controls executed and the replies produced at it. An ESC, CAN or SUB
that ended a query is not part of it. -/
def Cut.step (c : Cut) (daemon : Bool) (b : UInt8) (executed : List UInt8)
    (replies : List (List UInt8)) : Cut :=
  if replies = [] then
    if b = 0x1b then ⟨c.pieces ++ [.text c.opened], [b], []⟩
    else ⟨c.pieces, c.opened ++ [b], c.controls ++ executed⟩
  else if b = 0x1b ∨ Aborts b then
    ⟨c.pieces ++ [.query c.opened c.controls replies daemon], [b], []⟩
  else ⟨c.pieces ++ [.query (c.opened ++ [b]) c.controls replies daemon], [], []⟩

/-- The emulator, and the output up to where it has read. -/
structure Walk (σ : Type) where
  emulator : Parser σ
  cut : Cut

section

variable {σ : Type} (tok : Tokenizer σ) (width : Char → Option ℕ) (colors : Colors)

def Walk.new (emulator : Parser σ) : Walk σ := ⟨emulator, ⟨[], [], []⟩⟩

def Walk.step (daemon : Bool) (w : Walk σ) (b : UInt8) : Option (Walk σ) := do
  let out := (Parser.rewrite w.emulator.pendingC2 [b]).1
  let executed := (tok.advanceAll w.emulator.parser out).2.filterMap control
  let r ← processReplying tok width colors w.emulator [b]
  return ⟨r.1, w.cut.step daemon b executed r.2⟩

/-- A chunk, for whose queries the daemon is to answer or not. -/
def Walk.chunk (daemon : Bool) (w : Walk σ) (bytes : List UInt8) : Option (Walk σ) :=
  bytes.foldlM (Walk.step tok width colors daemon) w

/-- The emulator has read `u`, but for a `C2` at its end. -/
def EmulatorAt (p : Parser σ) (u : List UInt8) : Prop :=
  (p.pendingC2 = false ∧ p.parser = tok.after u ∧ u.getLast? ≠ some 0xc2) ∨
    p.pendingC2 = true ∧ ∃ v, u = v ++ [0xc2] ∧ p.parser = tok.after v

/-- No two bytes of the output are a C1 control. -/
def PairFree (a b : UInt8) : Prop := ¬ (a = 0xc2 ∧ 0x80 ≤ b ∧ b ≤ 0x9f)

instance (a b : UInt8) : Decidable (PairFree a b) := inferInstanceAs (Decidable (¬ _))

/-- The walk has read `u`. -/
structure Walked (size : Size) (cap : ℕ) (u : List UInt8) (w : Walk σ) : Prop where
  emulator : EmulatorAt tok w.emulator u
  screen : ScreenFits False size cap w.emulator.screen

end

section

variable {σ : Type} {tok : Tokenizer σ} {width : Char → Option ℕ} {colors : Colors}

/-! ## One byte -/

theorem Phase.next_c2 (p : Phase) : p.next 0xc2 = p := by
  cases p <;> rfl

theorem allowed_c2 {p : Phase} {acts : List Action} (h : Allowed p 0xc2 acts) :
    (∀ a ∈ acts, isQuery a = false) ∧ (p ≠ .calm → acts = []) := by
  cases p with
  | calm => exact ⟨fun a ha => not_isQuery_of_not_dispatches (h a ha), fun hp => absurd rfl hp⟩
  | escape =>
      have hnil : acts = [] := h
      rw [hnil]
      exact ⟨fun a ha => absurd ha List.not_mem_nil, fun _ => rfl⟩
  | csi =>
      have hnil : acts = [] := h
      rw [hnil]
      exact ⟨fun a ha => absurd ha List.not_mem_nil, fun _ => rfl⟩
  | osc =>
      have hnil : acts = [] := h
      rw [hnil]
      exact ⟨fun a ha => absurd ha List.not_mem_nil, fun _ => rfl⟩

/-- What the emulator reads for a byte: the `C2` that it held back, and the byte unless it is a
`C2` itself. -/
theorem emulatorAt_step (hlaw : Lawful tok) {p : Parser σ} {u : List UInt8} {b : UInt8}
    (h : EmulatorAt tok p u) (hpair : ∀ a, u.getLast? = some a → PairFree a b) :
    let r := tok.advanceAll p.parser (rewriteC1 p.pendingC2 b).1
    (∀ screen, EmulatorAt tok ⟨r.1, (rewriteC1 p.pendingC2 b).2, screen⟩ (u ++ [b])) ∧
      ((∀ a ∈ r.2, isQuery a = false) ↔
        ∀ a ∈ (tok.advance (tok.after u) b).2, isQuery a = false) ∧
      (phaseOf u ≠ .calm →
        r.2.filterMap control = (tok.advance (tok.after u) b).2.filterMap control) := by
  have hc2 := fun v => allowed_c2 (hlaw.allowed v 0xc2)
  rcases h with ⟨hpending, hparser, hlast⟩ | ⟨hpending, v, rfl, hparser⟩
  · rw [hpending, hparser]
    by_cases hb : b = 0xc2
    · -- the byte waits for its partner
      rw [hb]
      refine ⟨fun screen => Or.inr ⟨rfl, u, rfl, rfl⟩, ?_, ?_⟩
      · constructor
        · exact fun _ => (hc2 u).1
        · exact fun _ a ha => absurd ha List.not_mem_nil
      · intro hphase
        rw [(hc2 u).2 hphase]
        rfl
    · have hout : rewriteC1 false b = ([b], false) := by
        unfold rewriteC1
        simp [hb]
      rw [hout]
      dsimp only
      rw [tok.advanceAll_singleton]
      refine ⟨fun screen => Or.inl ⟨rfl, (tok.after_append u b).symm, ?_⟩, Iff.rfl, fun _ => rfl⟩
      rw [List.getLast?_append, List.getLast?_singleton]
      exact fun hsome => hb (Option.some_inj.mp hsome)
  · have hafter : tok.after (v ++ [0xc2]) = (tok.advance (tok.after v) 0xc2).1 :=
      tok.after_append v 0xc2
    have hphase : phaseOf (v ++ [0xc2]) = phaseOf v := by
      rw [phaseOf_append, Phase.next_c2]
    rw [hpending, hparser]
    by_cases hb : b = 0xc2
    · have hout : rewriteC1 true b = ([0xc2], true) := by
        rw [hb]
        rfl
      rw [hout]
      dsimp only
      rw [tok.advanceAll_singleton, hb]
      refine ⟨fun screen => Or.inr ⟨rfl, v ++ [0xc2], rfl, hafter.symm⟩, ?_, ?_⟩
      · constructor
        · exact fun _ => (hc2 _).1
        · exact fun _ => (hc2 v).1
      · intro hne
        rw [(hc2 _).2 hne, (hc2 v).2 (hphase ▸ hne)]
    · have hfree := hpair 0xc2 (by rw [List.getLast?_append, List.getLast?_singleton]; rfl)
      have hout : rewriteC1 true b = ([0xc2, b], false) := by
        unfold rewriteC1
        rw [if_neg fun hc => hfree ⟨rfl, hc.2⟩]
        simp [hb]
      rw [hout]
      dsimp only
      rw [tok.advanceAll_cons, tok.advanceAll_singleton, ← hafter]
      refine ⟨fun screen => Or.inl ⟨rfl, (tok.after_append _ b).symm, ?_⟩, ?_, ?_⟩
      · rw [List.getLast?_append, List.getLast?_singleton]
        exact fun hsome => hb (Option.some_inj.mp hsome)
      · rw [List.forall_mem_append]
        exact ⟨fun hall => hall.2, fun hall => ⟨(hc2 v).1, hall⟩⟩
      · intro hne
        rw [(hc2 v).2 (hphase ▸ hne), List.nil_append]

/-- What the walk takes from the emulator at a byte. -/
structure Observed (tok : Tokenizer σ) (u : List UInt8) (b : UInt8) (executed : List UInt8)
    (replies : List (List UInt8)) : Prop where
  replies : replies = [] ↔ ∀ a ∈ (tok.advance (tok.after u) b).2, isQuery a = false
  executed : phaseOf u ≠ .calm →
    executed = (tok.advance (tok.after u) b).2.filterMap control

variable (colors) in
/-- INTERNAL: The walk gets over every byte. It cuts where the tokenizer reports a query, and in a
sequence it sees the controls that the tokenizer reports. -/
theorem walk_step (hlaw : Lawful tok) (hwidth : WidthLaw width) {size : Size} {cap : ℕ}
    {u : List UInt8} {w : Walk σ} {b : UInt8} (h : Walked tok size cap u w)
    (hpair : ∀ a, u.getLast? = some a → PairFree a b) (daemon : Bool) :
    ∃ p executed replies, Observed tok u b executed replies ∧
      w.step tok width colors daemon b = some ⟨p, w.cut.step daemon b executed replies⟩ ∧
      ∀ cut, Walked tok size cap (u ++ [b]) ⟨p, cut⟩ := by
  obtain ⟨hemulator, hquery, hcontrols⟩ := emulatorAt_step hlaw h.emulator hpair
  obtain ⟨⟨screen, replies⟩, hperform, hfits, hreplies⟩ :=
    yields_performReplying hwidth h.screen
      (tok.advanceAll w.emulator.parser (rewriteC1 w.emulator.pendingC2 b).1).2
  refine ⟨_, _, replies, ⟨hreplies.trans hquery, hcontrols⟩, ?_, fun cut => ⟨hemulator screen, hfits⟩⟩
  unfold Walk.step
  rw [processReplying_singleton, hperform, rewrite_singleton]
  rfl

end

end Tymux.Analysis
