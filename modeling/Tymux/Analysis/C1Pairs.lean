import Tymux.Analysis.StripAgreement

/-!
# C1 controls inside a sequence

`Parser::process` rewrites `C2 80`..`C2 9F` for the emulator, and the scanner reads the output as it
is. Inside a sequence the rewritten pair ends it with an ESC, where the scanner goes on: so the two
may differ about such a sequence either way. The scanner removes what is a query as the bytes stand
(`queryCut`). An ESC makes both tokenizers forget what came before, so about a sequence with no pair
in it they agree, wherever else there are pairs.
-/

set_option autoImplicit false

namespace Tymux.Analysis

open Tymux.Model.Vt Tymux.Model.TerminalQuery Tymux.Analysis.Vt Tymux.Lib

/-! ## What the bytes say as they stand -/

section

variable {σ : Type} (tok : Tokenizer σ)

/-- A query ends at `b`, which comes after `u`. -/
def endsQuery (u : List UInt8) (b : UInt8) : Bool :=
  (tok.advance (tok.after u) b).2.any isQuery

/-- The output cut at the queries in it. -/
def queryCut : List UInt8 → Cut → List UInt8 → Cut
  | _, c, [] => c
  | u, c, b :: bs =>
    queryCut (u ++ [b])
      (c.step true b ((tok.advance (tok.after u) b).2.filterMap control)
        (if endsQuery tok u b then [[]] else [])) bs

/-- No pair comes after an ESC of `u`, up to `b`. -/
def Unpaired (u : List UInt8) (b : UInt8) : Prop :=
  ∃ before seq, u = before ++ 0x1b :: seq ∧ List.IsChain PairFree (0x1b :: seq ++ [b])

/-- The bytes after `u` have a pair only where a CSI or an OSC is open. -/
def pairsInSequence (u : List UInt8) : List UInt8 → Bool
  | a :: b :: rest =>
    (decide (PairFree a b) || phaseOf u = .csi || phaseOf u = .osc) &&
      pairsInSequence (u ++ [a]) (b :: rest)
  | _ => true

/-- The scanner, whatever the chunks, gives out and holds the output without what the emulator
answers. -/
def StripsAnswered (width : Char → Option ℕ) (colors : Colors) (p : Parser σ)
    (chunks : List (List UInt8)) : Prop :=
  ∃ w, (Walk.new p).chunk tok width colors true chunks.flatten = some w ∧
    ((QueryScanner.default tok).feedAll tok chunks).1.flatMap Scanned.stripped ++
        ((QueryScanner.default tok).feedAll tok chunks).2.held =
      w.cut.pieces.flatMap Piece.stripped ++ w.cut.opened

end

section

variable {σ : Type} {tok : Tokenizer σ} {width : Char → Option ℕ} {colors : Colors}
  {size : Size} {cap : ℕ} {u : List UInt8} {b : UInt8}

theorem endsQuery_eq_false_iff :
    endsQuery tok u b = false ↔ ∀ a ∈ (tok.advance (tok.after u) b).2, isQuery a = false := by
  unfold endsQuery
  simp

theorem cutsTo_queryCut (u : List UInt8) (c : Cut) (bs : List UInt8) :
    CutsTo tok true u c bs (queryCut tok u c bs) := by
  induction bs generalizing u c with
  | nil => rfl
  | cons b bs ih =>
      refine ⟨_, _, ⟨?_, fun _ => rfl⟩, ih _ _⟩
      rw [← endsQuery_eq_false_iff]
      cases endsQuery tok u b with
      | true => simp
      | false => simp

/-! ## The emulator reads the rewritten bytes -/

theorem rewrite_concat (pending : Bool) (u : List UInt8) (b : UInt8) :
    Parser.rewrite pending (u ++ [b]) =
      ((Parser.rewrite pending u).1 ++ (rewriteC1 (Parser.rewrite pending u).2 b).1,
        (rewriteC1 (Parser.rewrite pending u).2 b).2) := by
  unfold Parser.rewrite
  rw [List.foldl_append]
  rfl

variable (tok) in
/-- The tokenizer of the emulator after `u`. -/
def rewrittenAfter (u : List UInt8) : σ := tok.after (Parser.rewrite false u).1

theorem rewrittenAfter_concat (u : List UInt8) (b : UInt8) :
    rewrittenAfter tok (u ++ [b]) =
      (tok.advanceAll (rewrittenAfter tok u) (rewriteC1 (Parser.rewrite false u).2 b).1).1 := by
  unfold rewrittenAfter Tokenizer.after
  rw [rewrite_concat, tok.advanceAll_append]

variable (tok) (colors) in
/-- INTERNAL: the emulator gets over the bytes, whatever pairs are in them.
SRC: parser.rs:50-76 -/
theorem processReplying_after (hwidth : WidthLaw width) {screen : Screen}
    (hfits : ScreenFits False size cap screen) (bytes : List UInt8) :
    ∃ e given, processReplying tok width colors ⟨tok.start, false, screen⟩ bytes = some (e, given) ∧
      e.parser = rewrittenAfter tok bytes ∧ e.pendingC2 = (Parser.rewrite false bytes).2 ∧
      ScreenFits False size cap e.screen := by
  obtain ⟨⟨screen', given⟩, hperform, hfits', -⟩ := @yields_performReplying width colors hwidth size
    cap screen hfits (tok.advanceAll tok.start (Parser.rewrite false bytes).1).2
  refine ⟨⟨rewrittenAfter tok bytes, (Parser.rewrite false bytes).2, screen'⟩, given, ?_, rfl, rfl,
    hfits'⟩
  rw [performReplying_eq] at hperform
  rw [processReplying_eq]
  unfold processing
  dsimp only
  rw [hperform]
  rfl

variable (tok) (colors) in
/-- INTERNAL: it answers at a byte exactly if the rewritten bytes have the end of a query there.
SRC: parser.rs:50-76, terminal_query.rs:413-432 -/
theorem processReplying_byte (hwidth : WidthLaw width) {e : Parser σ}
    (hfits : ScreenFits False size cap e.screen) (b : UInt8) :
    ∃ e' replies, processReplying tok width colors e [b] = some (e', replies) ∧
      (replies = [] ↔
        ∀ a ∈ (tok.advanceAll e.parser (rewriteC1 e.pendingC2 b).1).2, isQuery a = false) := by
  obtain ⟨⟨screen, replies⟩, hperform, -, hreplies⟩ := @yields_performReplying width colors hwidth
    size cap e.screen hfits (tok.advanceAll e.parser (rewriteC1 e.pendingC2 b).1).2
  refine ⟨⟨(tok.advanceAll e.parser (rewriteC1 e.pendingC2 b).1).1, (rewriteC1 e.pendingC2 b).2,
    screen⟩, replies, ?_, hreplies⟩
  rw [processReplying_singleton, hperform]
  rfl

/-! ## An ESC makes it forget the pairs before it -/

/-- No input tells the tokenizer of the emulator from one that has read `u` as it stands, but for a
`C2` at its end. -/
def Near (tok : Tokenizer σ) (u : List UInt8) : Prop :=
  ∃ p : Parser σ, EmulatorAt tok p u ∧ p.pendingC2 = (Parser.rewrite false u).2 ∧
    tok.ObsEq (rewrittenAfter tok u) p.parser

theorem near_esc (hlaw : Lawful tok) (screen : Screen) (u : List UInt8) :
    Near tok (u ++ [0x1b]) := by
  have hesc : ∀ pending : Bool, rewriteC1 pending 0x1b =
      ((if pending then [0xc2] else []) ++ [0x1b], false) := by
    intro pending
    cases pending with
    | true => rfl
    | false => rfl
  refine ⟨⟨tok.after (u ++ [0x1b]), false, screen⟩, Or.inl ⟨rfl, rfl, ?_⟩, ?_, ?_⟩
  · rw [List.getLast?_append, List.getLast?_singleton]
    exact fun h => absurd (Option.some_inj.mp h) (by decide)
  · rw [rewrite_concat, hesc]
  · rw [rewrittenAfter_concat, hesc, tok.after_append, tok.advanceAll_append,
      tok.advanceAll_singleton]
    exact hlaw.esc _ _

/-- INTERNAL: over a byte that makes no pair, both report the same queries.
SRC: parser.rs:50-76 -/
theorem near_step (hlaw : Lawful tok) (h : Near tok u)
    (hpair : ∀ a, u.getLast? = some a → PairFree a b) :
    Near tok (u ++ [b]) ∧
      ((∀ a ∈ (tok.advanceAll (rewrittenAfter tok u) (rewriteC1 (Parser.rewrite false u).2 b).1).2,
        isQuery a = false) ↔ endsQuery tok u b = false) := by
  obtain ⟨p, hat, hpending, hobs⟩ := h
  obtain ⟨hemulator, hquery, -⟩ := emulatorAt_step hlaw hat hpair
  rw [hpending] at hemulator hquery
  refine ⟨⟨_, hemulator p.screen, ?_, ?_⟩, ?_⟩
  · rw [rewrite_concat]
  · rw [rewrittenAfter_concat]
    exact hobs.advanceAll _
  · rw [hobs, endsQuery_eq_false_iff]
    exact hquery

theorem getLast?_append_cons (before : List UInt8) (e : UInt8) (seq : List UInt8) :
    (before ++ e :: seq).getLast? = (e :: seq).getLast? :=
  List.getLast?_append_of_ne_nil _ (List.cons_ne_nil _ _)

/-- INTERNAL: so they do over a sequence without a pair.
SRC: parser.rs:50-76 -/
theorem near_of_chain (hlaw : Lawful tok) (screen : Screen) (before : List UInt8)
    {seq : List UInt8} (hchain : List.IsChain PairFree (0x1b :: seq)) :
    Near tok (before ++ 0x1b :: seq) := by
  induction seq using List.reverseRecOn with
  | nil => exact near_esc hlaw screen before
  | append_singleton seq b ih =>
      rw [← List.cons_append] at hchain ⊢
      rw [← List.append_assoc]
      apply (near_step hlaw (ih hchain.left_of_append) _).1
      intro a ha
      rw [getLast?_append_cons] at ha
      exact pairFree_getLast hchain a ha

end

end Tymux.Analysis
