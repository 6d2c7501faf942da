import Tymux.Analysis.Tokenizing

/-!
# The chunks of the output

`Parser::process` takes a chunk as it is when it has no `C2` and none is held back, and rewrites it
otherwise. The fast path gives what the rewriting would have given, and the rewriting of two chunks
is that of both at once: so it does not matter to the emulator where the output is cut.
-/

set_option autoImplicit false

namespace Tymux.Analysis

open Tymux.Model.Vt Tymux.Model.TerminalQuery

/-! ## The rewriting -/

theorem rewrite_singleton (pending : Bool) (b : UInt8) :
    Parser.rewrite pending [b] = rewriteC1 pending b := by
  simp [Parser.rewrite]

/-- What a chunk is rewritten to after others, by what was held back. -/
theorem rewrite_append (pending : Bool) (as bs : List UInt8) :
    Parser.rewrite pending (as ++ bs) =
      ((Parser.rewrite pending as).1 ++ (Parser.rewrite (Parser.rewrite pending as).2 bs).1,
        (Parser.rewrite (Parser.rewrite pending as).2 bs).2) := by
  have hacc : ∀ (bs : List UInt8) (r : List UInt8 × Bool),
      bs.foldl (fun r b => (r.1 ++ (rewriteC1 r.2 b).1, (rewriteC1 r.2 b).2)) r =
        (r.1 ++ (Parser.rewrite r.2 bs).1, (Parser.rewrite r.2 bs).2) := by
    intro bs
    induction bs with
    | nil =>
        intro r
        simp [Parser.rewrite]
    | cons b bs ih =>
        intro r
        have hcons : Parser.rewrite r.2 (b :: bs) =
            bs.foldl (fun r b => (r.1 ++ (rewriteC1 r.2 b).1, (rewriteC1 r.2 b).2))
              ([] ++ (rewriteC1 r.2 b).1, (rewriteC1 r.2 b).2) := rfl
        rw [List.foldl_cons, ih, hcons, ih]
        simp only [List.nil_append, List.append_assoc]
  unfold Parser.rewrite
  rw [List.foldl_append]
  exact hacc bs _

theorem rewrite_cons (pending : Bool) (b : UInt8) (bs : List UInt8) :
    Parser.rewrite pending (b :: bs) =
      ((rewriteC1 pending b).1 ++ (Parser.rewrite (rewriteC1 pending b).2 bs).1,
        (Parser.rewrite (rewriteC1 pending b).2 bs).2) := by
  have happend := rewrite_append pending [b] bs
  rw [rewrite_singleton] at happend
  exact happend

theorem rewrite_fast {bytes : List UInt8} (h : bytes.contains 0xc2 = false) :
    Parser.rewrite false bytes = (bytes, false) := by
  induction bytes with
  | nil => rfl
  | cons b bs ih =>
      simp only [List.contains_cons, Bool.or_eq_false_iff, beq_eq_false_iff_ne, ne_eq] at h
      have hone : rewriteC1 false b = ([b], false) := by
        unfold rewriteC1
        simp [Ne.symm h.1]
      rw [rewrite_cons, hone]
      dsimp only
      rw [ih h.2]
      rfl

/-- Either path hands on the rewriting. -/
theorem handedOn_eq (pending : Bool) (bytes : List UInt8) :
    (if !pending && !bytes.contains 0xc2 then (bytes, false) else Parser.rewrite pending bytes) =
      Parser.rewrite pending bytes := by
  split
  · rename_i hfast
    simp only [Bool.and_eq_true, Bool.not_eq_true'] at hfast
    rw [hfast.1, rewrite_fast hfast.2]
  · rfl

/-! ## The actions -/

section

variable {γ : Type} (f : Screen → Action → Option (Screen × List γ))

/-- The actions in order, with what each of them gives out. -/
def collecting (screen : Screen) (acts : List Action) : Option (Screen × List γ) :=
  acts.foldlM (fun r a => (f r.1 a).map fun n => (n.1, r.2 ++ n.2)) (screen, [])

theorem collecting_append (screen : Screen) (acts acts' : List Action) :
    collecting f screen (acts ++ acts') = (collecting f screen acts).bind fun r =>
      (collecting f r.1 acts').map fun r' => (r'.1, r.2 ++ r'.2) := by
  have hacc : ∀ (acts : List Action) (screen : Screen) (before : List γ),
      acts.foldlM (fun r a => (f r.1 a).map fun n => (n.1, r.2 ++ n.2)) (screen, before) =
        (collecting f screen acts).map fun r => (r.1, before ++ r.2) := by
    intro acts
    induction acts with
    | nil => simp [collecting]
    | cons a acts ih =>
        intro screen before
        unfold collecting
        rw [List.foldlM_cons, List.foldlM_cons]
        cases f screen a with
        | none => rfl
        | some n =>
            simp only [Option.map_some, Option.bind_eq_bind, Option.bind_some, List.nil_append]
            rw [ih n.1 (before ++ n.2), ih n.1 n.2, Option.map_map]
            congr 1
            funext r
            simp
  unfold collecting
  rw [List.foldlM_append]
  show Option.bind _ _ = Option.bind _ _
  congr 1
  funext r
  exact hacc acts' r.1 r.2

variable {σ : Type} (tok : Tokenizer σ)

/-- A chunk, with what its actions give out. -/
def processing (p : Parser σ) (bytes : List UInt8) : Option (Parser σ × List γ) :=
  let out := Parser.rewrite p.pendingC2 bytes
  let r := tok.advanceAll p.parser out.1
  (collecting f p.screen r.2).map fun next => (⟨r.1, out.2, next.1⟩, next.2)

theorem processing_append (p : Parser σ) (as bs : List UInt8) :
    processing f tok p (as ++ bs) = (processing f tok p as).bind fun r =>
      (processing f tok r.1 bs).map fun r' => (r'.1, r.2 ++ r'.2) := by
  unfold processing
  dsimp only
  rw [rewrite_append, tok.advanceAll_append, collecting_append]
  cases collecting f p.screen
    (tok.advanceAll p.parser (Parser.rewrite p.pendingC2 as).1).2 with
  | none => rfl
  | some next =>
      show Option.map _ (Option.map _ _) = Option.map _ (Option.map _ _)
      rw [Option.map_map, Option.map_map]
      rfl

end

/-! ## The emulator -/

section

variable {σ : Type} {tok : Tokenizer σ} {width : Char → Option ℕ} {colors : Colors}

theorem performAll_eq (screen : Screen) (acts : List Action) :
    screen.performAll width acts = collecting (Screen.perform width) screen acts := by
  unfold Screen.performAll collecting
  congr 1
  funext r a
  cases Screen.perform width r.1 a with
  | none => rfl
  | some next => rfl

/-- INTERNAL: what `process` does on either path.
SRC: parser.rs:48-70 -/
theorem process_eq (p : Parser σ) (bytes : List UInt8) :
    p.process tok width bytes = processing (Screen.perform width) tok p bytes := by
  unfold Parser.process processing
  rw [handedOn_eq]
  dsimp only
  rw [performAll_eq]
  cases collecting (Screen.perform width) p.screen
    (tok.advanceAll p.parser (Parser.rewrite p.pendingC2 bytes).1).2 with
  | none => rfl
  | some next => rfl

/-- One action, with its replies. -/
def replying (width : Char → Option ℕ) (colors : Colors) (screen : Screen) (a : Action) :
    Option (Screen × List (List UInt8)) :=
  (Screen.perform width screen a).map fun next => (next.1, next.2.flatMap (respond colors next.1))

theorem performReplying_eq (screen : Screen) (acts : List Action) :
    performReplying width colors screen acts = collecting (replying width colors) screen acts := by
  unfold performReplying collecting
  congr 1
  funext r a
  unfold replying
  cases Screen.perform width r.1 a with
  | none => rfl
  | some next => rfl

/-- INTERNAL: the same with the responder as its callbacks.
SRC: parser.rs:48-70, terminal_query.rs:413-432 -/
theorem processReplying_eq (p : Parser σ) (bytes : List UInt8) :
    processReplying tok width colors p bytes = processing (replying width colors) tok p bytes := by
  unfold processReplying processing
  rw [handedOn_eq]
  dsimp only
  rw [performReplying_eq]
  cases collecting (replying width colors) p.screen
    (tok.advanceAll p.parser (Parser.rewrite p.pendingC2 bytes).1).2 with
  | none => rfl
  | some next => rfl

/-- The emulator takes a chunk byte by byte. -/
theorem processReplying_cons (p : Parser σ) (b : UInt8) (bs : List UInt8) :
    processReplying tok width colors p (b :: bs) =
      (processReplying tok width colors p [b]).bind fun r =>
        (processReplying tok width colors r.1 bs).map fun r' => (r'.1, r.2 ++ r'.2) := by
  simp only [processReplying_eq]
  exact processing_append _ tok p [b] bs

theorem processReplying_singleton (p : Parser σ) (b : UInt8) :
    processReplying tok width colors p [b] =
      (performReplying width colors p.screen
        (tok.advanceAll p.parser (rewriteC1 p.pendingC2 b).1).2).map fun next =>
          (⟨(tok.advanceAll p.parser (rewriteC1 p.pendingC2 b).1).1, (rewriteC1 p.pendingC2 b).2,
            next.1⟩, next.2) := by
  rw [processReplying_eq, performReplying_eq]
  unfold processing
  rw [rewrite_singleton]

/-- **A chunk may be cut anywhere.** Two chunks leave the parser with the state and the screen that
both at once do, and make the same callbacks; so do the callbacks that read the screen.
SRC: parser.rs:41-70, terminal_query.rs:413-432 -/
theorem process_append (tok : Tokenizer σ) (width : Char → Option ℕ) (colors : Colors)
    (p : Parser σ) (as bs : List UInt8) :
    (p.process tok width (as ++ bs) = (p.process tok width as).bind fun r =>
        (r.1.process tok width bs).map fun r' => (r'.1, r.2 ++ r'.2)) ∧
      processReplying tok width colors p (as ++ bs) =
        (processReplying tok width colors p as).bind fun r =>
          (processReplying tok width colors r.1 bs).map fun r' => (r'.1, r.2 ++ r'.2) := by
  simp only [process_eq, processReplying_eq]
  exact ⟨processing_append _ tok p as bs, processing_append _ tok p as bs⟩

end

end Tymux.Analysis
