import Tymux.Analysis.ScannerHandoff
import Tymux.Analysis.ReaderSteps
import Tymux.Model.Handoff

/-!
# What an adopted pane performs

The new image has of the emulator's tokenizer only what the scanner holds. Held bytes begin with
an ESC, which makes the two tokenizers alike (`Together`), so the sequence goes on as it would
have; but what the emulator performs while it reads the held bytes again it performs a second time.
Without held bytes the new emulator begins at rest, and the old one need not be at rest: it can be
inside of a character, of a string, or of a sequence too long to hold.
-/

set_option autoImplicit false

namespace Tymux.Analysis

open Tymux.Model.Vt Tymux.Model.TerminalQuery

section

variable {σ : Type} {tok : Tokenizer σ} {width : Char → Option ℕ} {colors : Colors}

/-- The tokenizer is inside of nothing: it reads a letter as that letter. -/
def AtRest (tok : Tokenizer σ) (q : σ) : Prop := (tok.advance q 0x41).2 = [.print 'A']

/-- The behaviour of `vte` in its ground state. -/
structure Settles (tok : Tokenizer σ) : Prop where
  /-- A fresh parser is in the ground state. -/
  start : AtRest tok tok.start
  /-- The ground state remembers nothing. -/
  rest : ∀ u, AtRest tok (tok.after u) → tok.ObsEq (tok.after u) tok.start
  /-- The first byte of a character is not lost when a letter follows. -/
  lead : ∀ u, (tok.advanceAll (tok.after u) [0xc2, 0x41]).2 ≠ [.print 'A']

/-- The emulator has the screen, and the picture that it was restored from ended at rest. -/
structure Restored (tok : Tokenizer σ) (screen : Screen) (p : Parser σ) : Prop where
  screen : p.screen = screen
  pendingC2 : p.pendingC2 = false
  atRest : AtRest tok p.parser
  read : ∃ u, p.parser = tok.after u

/-- Reading the bytes performs nothing. -/
def Silent (tok : Tokenizer σ) (bytes : List UInt8) : Prop :=
  (tok.advanceAll tok.start (Parser.rewrite false bytes).1).2 = []

/-- What is handed over of the pane is all that its tokenizers know: held bytes that are silent, or
an emulator at rest that holds back no `C2`. -/
def Handable (tok : Tokenizer σ) (p : ReaderPane σ) : Prop :=
  (p.scanner.held ≠ [] ∧ Silent tok p.scanner.held) ∨
    p.scanner.held = [] ∧ p.parser.pendingC2 = false ∧ AtRest tok p.parser.parser

/-! ## Tokenizers that read the same -/

/-- INTERNAL: The two emulators perform the same from now on. -/
structure Together (tok : Tokenizer σ) (p p' : Parser σ) : Prop where
  pendingC2 : p.pendingC2 = p'.pendingC2
  sync : tok.ObsEq p.parser p'.parser

theorem obsEq_advanceAll {s t : σ} (h : tok.ObsEq s t) (u : List UInt8) :
    tok.ObsEq (tok.advanceAll s u).1 (tok.advanceAll t u).1 := by
  induction u generalizing s t with
  | nil => exact h
  | cons b u ih =>
      rw [tok.advanceAll_cons, tok.advanceAll_cons]
      exact ih (h.advance b)

/-- The fast path of `process` does what the rewriting does. -/
theorem advance_eq (p : Parser σ) (bytes : List UInt8) :
    p.advance tok bytes =
      ({ p with
          parser := (tok.advanceAll p.parser (Parser.rewrite p.pendingC2 bytes).1).1
          pendingC2 := (Parser.rewrite p.pendingC2 bytes).2 },
        (tok.advanceAll p.parser (Parser.rewrite p.pendingC2 bytes).1).2) := by
  unfold Parser.advance
  rw [handedOn_eq]

theorem advance_append (p : Parser σ) (u v : List UInt8) :
    p.advance tok (u ++ v) =
      (((p.advance tok u).1.advance tok v).1,
        (p.advance tok u).2 ++ ((p.advance tok u).1.advance tok v).2) := by
  simp only [advance_eq, rewrite_append, tok.advanceAll_append]

/-- How the bytes are cut into chunks does not matter. -/
theorem operations_flatten (p : Parser σ) (chunks : List (List UInt8)) :
    p.operations tok chunks = (p.advance tok chunks.flatten).2 := by
  induction chunks generalizing p with
  | nil =>
      rw [List.flatten_nil, advance_eq]
      rfl
  | cons chunk chunks ih =>
      rw [List.flatten_cons, advance_append]
      show (p.advance tok chunk).2 ++ (p.advance tok chunk).1.operations tok chunks = _
      rw [ih]

theorem Together.advance {p p' : Parser σ} (h : Together tok p p') (u : List UInt8) :
    Together tok (p.advance tok u).1 (p'.advance tok u).1 ∧
      (p.advance tok u).2 = (p'.advance tok u).2 := by
  rw [advance_eq, advance_eq, h.pendingC2]
  exact ⟨⟨rfl, obsEq_advanceAll h.sync _⟩, h.sync _⟩

/-- INTERNAL: An ESC makes any two emulators alike, also one that holds back a `C2`. -/
theorem together_esc (hlaw : Lawful tok) (p p' : Parser σ) :
    Together tok (p.advance tok [0x1b]).1 (p'.advance tok [0x1b]).1 := by
  have hout : ∀ pending, ∃ before, Parser.rewrite pending [0x1b] = (before ++ [0x1b], false) := by
    intro pending
    rw [rewrite_singleton]
    cases pending with
    | false => exact ⟨[], rfl⟩
    | true => exact ⟨[0xc2], rfl⟩
  obtain ⟨before, hbefore⟩ := hout p.pendingC2
  obtain ⟨before', hbefore'⟩ := hout p'.pendingC2
  rw [advance_eq, advance_eq, hbefore, hbefore']
  refine ⟨rfl, ?_⟩
  dsimp only
  rw [tok.advanceAll_append, tok.advanceAll_append, tok.advanceAll_singleton,
    tok.advanceAll_singleton]
  exact hlaw.esc _ _

/-! ## What is held is the end of what was read -/

theorem held_feed (scanner : QueryScanner σ) (chunk : List UInt8) :
    (scanner.feed tok chunk).2.held <:+ scanner.held ++ chunk := by
  have hfinish : ∀ (q : σ) (t : Tracker) (buf : List UInt8),
      (QueryScanner.finish q t buf).2.held <:+ buf := by
    intro q t buf
    unfold QueryScanner.finish
    dsimp only
    split
    · exact List.drop_suffix _ _
    · split
      · exact List.nil_suffix
      · exact List.nil_suffix
  unfold QueryScanner.feed
  split
  · rename_i hfast
    simp only [Bool.and_eq_true, List.isEmpty_iff] at hfast
    rw [hfast.1.1]
    exact List.nil_suffix
  · exact hfinish _ _ _

theorem held_esc (hlaw : Lawful tok) {scanner : QueryScanner σ} (hreach : Reachable tok scanner)
    (hheld : scanner.held ≠ []) : ∃ rest, scanner.held = 0x1b :: rest := by
  have hesc := ((hreach.holding hlaw).told hheld).esc
  cases hlist : scanner.held with
  | nil => exact absurd hlist hheld
  | cons b rest =>
      rw [hlist, List.getElem?_cons_zero, Option.some_inj] at hesc
      exact ⟨rest, by rw [hesc]⟩

/-- The emulator has read the bytes since it was `origin`. -/
def ReadBy (tok : Tokenizer σ) (origin : Parser σ) (u : List UInt8) (p : Parser σ) : Prop :=
  p.parser = (origin.advance tok u).1.parser ∧ p.pendingC2 = (origin.advance tok u).1.pendingC2

theorem readBy_processReplying {origin p : Parser σ} {u bytes : List UInt8}
    (h : ReadBy tok origin u p) {r : Parser σ × List (List UInt8)}
    (hr : processReplying tok width colors p bytes = some r) :
    ReadBy tok origin (u ++ bytes) r.1 := by
  have hsame : r.1.parser = (p.advance tok bytes).1.parser ∧
      r.1.pendingC2 = (p.advance tok bytes).1.pendingC2 := by
    unfold processReplying at hr
    obtain ⟨next, -, hnext⟩ := Option.bind_eq_some_iff.mp hr
    cases hnext
    exact ⟨rfl, rfl⟩
  unfold ReadBy
  rw [hsame.1, hsame.2, advance_append]
  rw [advance_eq p, advance_eq (origin.advance tok u).1, h.1, h.2]
  exact ⟨rfl, rfl⟩

/-- What is held where the emulator has read `u`. Only between `parse` and `scan` has it read more
than the scanner. -/
def HeldAt (held u : List UInt8) : ReaderStage → Prop
  | .parsed _ _ chunk => ∃ v, u = v ++ chunk ∧ held <:+ v
  | .stopped => held = []
  | _ => held <:+ u

/-- INTERNAL: The pane between two steps. -/
def Reads (tok : Tokenizer σ) (origin : Parser σ) (p : ReaderPane σ) : Prop :=
  Reachable tok p.scanner ∧
    ∃ u, ReadBy tok origin u p.parser ∧ HeldAt p.scanner.held u p.stage

/-- INTERNAL: One step of the pane. -/
theorem reads_step {origin : Parser σ} {p p' : ReaderPane σ} {e : PaneEvent}
    (h : Reads tok origin p) (hstep : p.step tok width colors e = some p') :
    Reads tok origin p' := by
  obtain ⟨hreach, u, hread, hheld⟩ := h
  by_cases hclient : OfClient e
  · obtain ⟨clients, new, -, rfl⟩ := client_inv hclient hstep
    exact ⟨hreach, u, hread, hheld⟩
  cases e with
  | decide chunk =>
      obtain ⟨next, daemon, hstage, rfl⟩ := decide_inv hstep
      rw [hstage] at hheld
      exact ⟨hreach, u, hread, hheld⟩
  | parse =>
      obtain ⟨next, daemon, chunk, r, hstage, hr, rfl⟩ := parse_inv hstep
      rw [hstage] at hheld
      exact ⟨hreach, u ++ chunk, readBy_processReplying hread hr, u, rfl, hheld⟩
  | scan =>
      obtain ⟨next, daemon, chunk, hstage, rfl⟩ := scan_inv hstep
      rw [hstage] at hheld
      obtain ⟨v, rfl, hsuffix⟩ := hheld
      refine ⟨hreach.feed chunk, v ++ chunk, hread, ?_⟩
      apply (held_feed p.scanner chunk).trans
      obtain ⟨before, rfl⟩ := hsuffix
      exact ⟨before, (List.append_assoc ..).symm⟩
  | push =>
      obtain ⟨next, daemon, scanned, hstage, rfl⟩ := push_inv hstep
      rw [hstage] at hheld
      exact ⟨hreach, u, hread, hheld⟩
  | broadcast =>
      obtain ⟨next, daemon, scanned, payload, sent, hstage, -, -, rfl⟩ := broadcast_inv hstep
      rw [hstage] at hheld
      exact ⟨hreach, u, hread, hheld⟩
  | eof =>
      obtain ⟨-, ⟨-, rfl⟩ | ⟨-, rfl⟩⟩ := eof_inv hstep
      · exact ⟨hreach.takeHeld, u, hread, rfl⟩
      · exact ⟨hreach.takeHeld, u, hread, rfl⟩
  | inject data =>
      obtain ⟨r, hstage, hr, rfl⟩ := inject_inv hstep
      rw [hstage] at hheld
      refine ⟨hreach, u ++ data, readBy_processReplying hread hr, ?_⟩
      show HeldAt p.scanner.held (u ++ data) p.stage
      rw [hstage]
      exact hheld
  | respawn =>
      obtain ⟨-, rfl⟩ := respawn_inv hstep
      exact ⟨Reachable.default, u, hread, List.nil_suffix⟩
  | register => exact absurd trivial hclient
  | goLiveAfter client seq => exact absurd trivial hclient
  | setLagged client lagged => exact absurd trivial hclient
  | dropClient client => exact absurd trivial hclient
  | resume fromSeq => exact absurd trivial hclient

theorem reads_start (parser : Parser σ) (clients : ClientRegistry) (seq budget : ℕ) :
    Reads tok parser (ReaderPane.start tok parser clients seq budget) := by
  refine ⟨Reachable.default, [], ?_, List.nil_suffix⟩
  unfold ReadBy
  rw [advance_eq]
  exact ⟨rfl, rfl⟩

/-! ## The adopted pane -/

theorem Restored.together (hsettles : Settles tok) {screen : Screen} {p : Parser σ}
    (h : Restored tok screen p) : Together tok p ⟨tok.start, false, screen⟩ := by
  obtain ⟨u, hu⟩ := h.read
  refine ⟨h.pendingC2, ?_⟩
  have hrest := h.atRest
  rw [hu] at hrest ⊢
  exact hsettles.rest u hrest

/-- INTERNAL: An emulator is where another one is that reads only the end of its input, from an ESC
on. -/
theorem together_suffix (hlaw : Lawful tok) {origin p : Parser σ} {held u : List UInt8}
    (hread : ReadBy tok origin u p) (hsuffix : held <:+ u) (hesc : ∃ rest, held = 0x1b :: rest)
    (q : Parser σ) : Together tok (q.advance tok held).1 p := by
  obtain ⟨before, rfl⟩ := hsuffix
  obtain ⟨rest, hrest⟩ := hesc
  have hsplit : before ++ held = (before ++ [0x1b]) ++ rest := by
    rw [hrest, List.append_assoc, List.singleton_append]
  have htogether := together_esc hlaw q (origin.advance tok before).1
  obtain ⟨hpending, hsync⟩ := (htogether.advance rest).1
  have horigin : (origin.advance tok (before ++ held)).1 =
      (((origin.advance tok before).1.advance tok [0x1b]).1.advance tok rest).1 := by
    rw [hsplit, advance_append, advance_append]
  have hq : (q.advance tok held).1 = ((q.advance tok [0x1b]).1.advance tok rest).1 := by
    rw [hrest, ← List.singleton_append, advance_append]
  constructor
  · rw [hread.2, horigin, hq]
    exact hpending
  · rw [hread.1, horigin, hq]
    exact hsync

/-- A pane that holds bytes is where an emulator is that reads them. -/
theorem together_held (hlaw : Lawful tok) {origin : Parser σ} {p : ReaderPane σ}
    (hreads : Reads tok origin p) (hwaiting : p.stage = .waiting) (hheld : p.scanner.held ≠ [])
    (q : Parser σ) : Together tok (q.advance tok p.scanner.held).1 p.parser := by
  obtain ⟨hreach, u, hread, hsuffix⟩ := hreads
  rw [hwaiting] at hsuffix
  exact together_suffix hlaw hread hsuffix (held_esc hlaw hreach hheld) q

theorem Together.trans {p p' p'' : Parser σ} (h : Together tok p p') (h' : Together tok p' p'') :
    Together tok p p'' :=
  ⟨h.pendingC2.trans h'.pendingC2, h.sync.trans h'.sync⟩

theorem Together.operations {p p' : Parser σ} (h : Together tok p p')
    {chunks chunks' : List (List UInt8)} (hsame : chunks.flatten = chunks'.flatten) :
    p.operations tok chunks = p'.operations tok chunks' := by
  rw [operations_flatten, operations_flatten, hsame]
  exact (h.advance _).2

theorem exportHandoff_inv {p : ReaderPane σ} {handoff : PaneHandoff}
    (h : p.exportHandoff = some handoff) :
    p.stage = .waiting ∧ handoff.scannerHeld = p.scanner.held := by
  unfold ReaderPane.exportHandoff at h
  split at h
  · rename_i hstage
    cases h
    exact ⟨hstage, rfl⟩
  · cases h

theorem fromAdopted_inv {restoreScreen : Screen → Parser σ} {budget : ℕ} {handoff : PaneHandoff}
    {adopted : ReaderPane σ}
    (h : ReaderPane.fromAdopted tok width colors restoreScreen budget handoff = some adopted) :
    Together tok adopted.parser
      ((restoreScreen handoff.screen).advance tok handoff.scannerHeld).1 := by
  unfold ReaderPane.fromAdopted at h
  obtain ⟨r, hr, hnext⟩ := Option.bind_eq_some_iff.mp h
  cases hnext
  have hread : ReadBy tok (restoreScreen handoff.screen) ([] ++ handoff.scannerHeld) r.1 := by
    apply readBy_processReplying _ hr
    unfold ReadBy
    rw [advance_eq]
    exact ⟨rfl, rfl⟩
  rw [offer_eq]
  refine ⟨hread.2, ?_⟩
  show tok.ObsEq r.1.parser _
  rw [hread.1]
  exact Tokenizer.ObsEq.refl _

/-- INTERNAL: Without held bytes, a letter tells whether the old emulator was at rest. -/
theorem atRest_of_operations (hsettles : Settles tok) {p : Parser σ} {u : List UInt8}
    (hread : p.parser = tok.after u) (h : p.operations tok [[0x41]] = [.print 'A']) :
    p.pendingC2 = false ∧ AtRest tok p.parser := by
  rw [operations_flatten, advance_eq] at h
  cases hpending : p.pendingC2 with
  | false =>
      rw [hpending] at h
      refine ⟨rfl, ?_⟩
      unfold AtRest
      rw [← tok.advanceAll_singleton]
      exact h
  | true =>
      rw [hpending, hread] at h
      exact absurd h (hsettles.lead u)

/-- For every output, wherever it is cut: the adopted pane performs from the handoff on what the
old pane would have performed for the rest of the output, if and only if the old pane was
handable.
SRC: pane/handoff.rs:62-86, pane/handoff.rs:307-384, pane.rs:510-576, parser.rs:41-76 -/
theorem handoff_transparent_iff (hlaw : Lawful tok) (hsettles : Settles tok)
    {restoreScreen : Screen → Parser σ} (hrestores : ∀ s, Restored tok s (restoreScreen s))
    {parser : Parser σ} (hfresh : parser.parser = tok.start) {clients : ClientRegistry}
    {seq budget budget' : ℕ} {events : List PaneEvent} {p adopted : ReaderPane σ}
    {handoff : PaneHandoff}
    (hrun : (ReaderPane.start tok parser clients seq budget).run tok width colors events = some p)
    (hexport : p.exportHandoff = some handoff)
    (hadopted : ReaderPane.fromAdopted tok width colors restoreScreen budget' handoff =
      some adopted) :
    (∀ chunks chunks' : List (List UInt8), chunks.flatten = chunks'.flatten →
      ((restoreScreen handoff.screen).advance tok handoff.scannerHeld).2 ++
        adopted.parser.operations tok chunks = p.parser.operations tok chunks') ↔
      Handable tok p := by
  obtain ⟨hwaiting, hsent⟩ := exportHandoff_inv hexport
  have hreads : Reads tok parser p :=
    Lib.run_invariant (Reads tok parser) (fun _ => True)
      (fun _ _ _ _ hold hstep => reads_step hold hstep) (fun _ _ => trivial)
      (reads_start parser clients seq budget) hrun
  have hagain := fromAdopted_inv hadopted
  have hrest := (hrestores handoff.screen).together hsettles
  have hsilent : ((restoreScreen handoff.screen).advance tok handoff.scannerHeld).2 = [] ↔
      Silent tok p.scanner.held := by
    rw [(hrest.advance _).2, hsent, advance_eq]
    exact Iff.rfl
  unfold Handable
  by_cases hheld : p.scanner.held = []
  · have hnothing : Silent tok p.scanner.held := by
      rw [hheld]
      rfl
    rw [hsilent.mpr hnothing]
    have hadopted' : Together tok adopted.parser ⟨tok.start, false, handoff.screen⟩ := by
      apply hagain.trans
      have hsame := (hrest.advance handoff.scannerHeld).1
      rw [hsent, hheld, advance_eq ⟨tok.start, false, handoff.screen⟩] at hsame
      rw [hsent, hheld]
      exact hsame
    obtain ⟨-, u, hread, -⟩ := hreads
    have hafter : p.parser.parser = tok.after (Parser.rewrite parser.pendingC2 u).1 := by
      rw [hread.1, advance_eq, hfresh]
      rfl
    constructor
    · intro hall
      refine Or.inr ⟨hheld, atRest_of_operations hsettles hafter ?_⟩
      rw [← hall [[0x41]] [[0x41]] rfl, List.nil_append, hadopted'.operations rfl,
        operations_flatten, advance_eq]
      exact (congrArg Prod.snd (tok.advanceAll_singleton _ _)).trans hsettles.start
    · rintro (⟨hne, -⟩ | ⟨-, hpending, hatRest⟩)
      · exact absurd hheld hne
      · intro chunks chunks' hflat
        rw [List.nil_append]
        apply Together.operations _ hflat
        apply hadopted'.trans
        refine ⟨hpending.symm, ?_⟩
        rw [hafter] at hatRest ⊢
        exact (hsettles.rest _ hatRest).symm
  · have hadopted' : Together tok adopted.parser p.parser := by
      apply hagain.trans
      rw [hsent]
      exact together_held hlaw hreads hwaiting hheld _
    constructor
    · intro hall
      refine Or.inl ⟨hheld, hsilent.mp ?_⟩
      have hnil := hall [] [] rfl
      rw [show adopted.parser.operations tok [] = [] from rfl, List.append_nil] at hnil
      exact hnil
    · rintro (⟨-, hquiet⟩ | ⟨hnil, -⟩)
      · intro chunks chunks' hflat
        rw [hsilent.mpr hquiet, List.nil_append]
        exact hadopted'.operations hflat
      · exact absurd hnil hheld

end

/-! ## The concrete tokenizer -/

theorem vte_letter {s : Vte.State} (h : AtRest vte s) : s = .ground [] := by
  have hacts : (Vte.advance s 0x41).2 = [.print 'A'] := h
  cases s with
  | ground bytes =>
      cases bytes with
      | nil => rfl
      | cons b bytes => cases hacts
  | escape => cases hacts
  | escapeIntermediate inter => cases hacts
  | csi head =>
      have hdispatch : head.dispatch 0x41 = [.print 'A'] := hacts
      unfold Vte.Csi.dispatch at hdispatch
      split at hdispatch
      · cases hdispatch
      · cases hdispatch
  | osc bytes => cases hacts
  | dcs => cases hacts
  | dcsPassthrough => cases hacts
  | sosPmApc => cases hacts

theorem vte_lead (s : Vte.State) : (vte.advanceAll s [0xc2, 0x41]).2 ≠ [.print 'A'] := by
  intro hacts
  rw [vte.advanceAll_cons, vte.advanceAll_singleton] at hacts
  have hlead : ∀ bytes, (Vte.advance (.ground bytes) 0xc2).1 = .ground [0xc2] := by
    intro bytes
    cases bytes with
    | nil => rfl
    | cons b bytes => rfl
  cases s with
  | ground bytes =>
      have hletter : (Vte.advance (.ground bytes) 0xc2).2 ++
          (Vte.advance (Vte.advance (.ground bytes) 0xc2).1 0x41).2 = [.print 'A'] := hacts
      rw [hlead] at hletter
      have hlength := congrArg List.length hletter
      rw [List.length_append] at hlength
      have htwo : (Vte.advance (.ground [0xc2]) 0x41).2.length = 2 := rfl
      rw [htwo] at hlength
      simp at hlength
  | escape => cases hacts
  | escapeIntermediate inter => cases hacts
  | csi head => cases vte_letter (s := .csi head) hacts
  | osc bytes => cases hacts
  | dcs => cases hacts
  | dcsPassthrough => cases hacts
  | sosPmApc => cases hacts

theorem settles_vte : Settles vte where
  start := rfl
  rest := by
    intro u hrest
    rw [vte_letter hrest]
    exact Tokenizer.ObsEq.refl _
  lead := fun u => vte_lead _

/-- An emulator that has the screen and has read nothing. -/
def freshAt (screen : Screen) : Parser Vte.State := ⟨vte.start, false, screen⟩

theorem restored_freshAt (screen : Screen) : Restored vte screen (freshAt screen) :=
  ⟨rfl, rfl, settles_vte.start, [], rfl⟩

/-- A CSI is handed over after its first parameter. -/
theorem handoff_transparent_iff_csi :
    ∃ parser p handoff adopted, Parser.new vte 1 1 1 = some parser ∧
      (ReaderPane.start vte parser {} 0 1000).run vte (fun _ => some 1) {}
        [.decide [0x61, 0x1b, 0x5b, 0x35], .parse, .scan, .push, .broadcast] = some p ∧
      p.exportHandoff = some handoff ∧
      ReaderPane.fromAdopted vte (fun _ => some 1) {} freshAt 1000 handoff = some adopted ∧
      handoff.scannerHeld = [0x1b, 0x5b, 0x35] ∧
      ∀ chunks chunks' : List (List UInt8), chunks.flatten = chunks'.flatten →
        ((freshAt handoff.screen).advance vte handoff.scannerHeld).2 ++
          adopted.parser.operations vte chunks = p.parser.operations vte chunks' := by
  have hheld : ((Parser.new vte 1 1 1).bind fun parser =>
      ((ReaderPane.start vte parser {} 0 1000).run vte (fun _ => some 1) {}
        [.decide [0x61, 0x1b, 0x5b, 0x35], .parse, .scan, .push, .broadcast]).bind fun p =>
      p.exportHandoff.bind fun handoff =>
      (ReaderPane.fromAdopted vte (fun _ => some 1) {} freshAt 1000 handoff).map fun _ =>
        handoff.scannerHeld) = some [0x1b, 0x5b, 0x35] := by
    decide +kernel
  obtain ⟨parser, hnew, hheld⟩ := Option.bind_eq_some_iff.mp hheld
  obtain ⟨p, hrun, hheld⟩ := Option.bind_eq_some_iff.mp hheld
  obtain ⟨handoff, hexport, hheld⟩ := Option.bind_eq_some_iff.mp hheld
  obtain ⟨adopted, hadopted, hheld⟩ := Option.map_eq_some_iff.mp hheld
  have hfresh : parser.parser = vte.start := by
    have hscreen := hnew
    unfold Parser.new at hscreen
    obtain ⟨screen, -, hparser⟩ := Option.bind_eq_some_iff.mp hscreen
    cases hparser
    rfl
  refine ⟨parser, p, handoff, adopted, hnew, hrun, hexport, hadopted, hheld, ?_⟩
  apply (handoff_transparent_iff lawful_vte settles_vte restored_freshAt hfresh hrun hexport
    hadopted).mpr
  have hsame := (exportHandoff_inv hexport).2
  rw [hheld] at hsame
  refine Or.inl ?_
  rw [← hsame]
  exact ⟨List.cons_ne_nil _ _, rfl⟩

/-- A character that the handoff cuts is lost: for `C3` before it and `A9` after it the old pane
prints an e with an acute accent, the adopted one a replacement character. -/
theorem handoff_losesCharacter :
    ∃ parser p handoff adopted, Parser.new vte 1 1 1 = some parser ∧
      (ReaderPane.start vte parser {} 0 1000).run vte (fun _ => some 1) {}
        [.decide [0xc3], .parse, .scan, .push, .broadcast] = some p ∧
      p.exportHandoff = some handoff ∧
      ReaderPane.fromAdopted vte (fun _ => some 1) {} freshAt 1000 handoff = some adopted ∧
      ((freshAt handoff.screen).advance vte handoff.scannerHeld).2 ++
        adopted.parser.operations vte [[0xa9]] = [.print (Char.ofNat 0xfffd)] ∧
      p.parser.operations vte [[0xa9]] = [.print (Char.ofNat 0xe9)] := by
  have hops : ((Parser.new vte 1 1 1).bind fun parser =>
      ((ReaderPane.start vte parser {} 0 1000).run vte (fun _ => some 1) {}
        [.decide [0xc3], .parse, .scan, .push, .broadcast]).bind fun p =>
      p.exportHandoff.bind fun handoff =>
      (ReaderPane.fromAdopted vte (fun _ => some 1) {} freshAt 1000 handoff).map fun adopted =>
        [((freshAt handoff.screen).advance vte handoff.scannerHeld).2 ++
          adopted.parser.operations vte [[0xa9]], p.parser.operations vte [[0xa9]]]) =
      some [[.print (Char.ofNat 0xfffd)], [.print (Char.ofNat 0xe9)]] := by
    decide +kernel
  obtain ⟨parser, hnew, hops⟩ := Option.bind_eq_some_iff.mp hops
  obtain ⟨p, hrun, hops⟩ := Option.bind_eq_some_iff.mp hops
  obtain ⟨handoff, hexport, hops⟩ := Option.bind_eq_some_iff.mp hops
  obtain ⟨adopted, hadopted, hops⟩ := Option.map_eq_some_iff.mp hops
  obtain ⟨hagain, hrest⟩ := List.cons_eq_cons.mp hops
  exact ⟨parser, p, handoff, adopted, hnew, hrun, hexport, hadopted, hagain,
    (List.cons_eq_cons.mp hrest).1⟩

end Tymux.Analysis
