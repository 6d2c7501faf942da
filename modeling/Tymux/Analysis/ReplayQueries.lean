import Tymux.Analysis.ReaderSteps
import Tymux.Analysis.StripAgreement

/-!
# Queries in the replay log

The replay log is what the scanner leaves of the output of one process after the other, with the
bytes it still held at the end of each and with what the supervisor writes in between. When a query
is taken out, the bytes around it come together. As long as a removed query does not begin inside
of another sequence, and none is open where a process ends, this joins text to text, and the log
has no query (`RunMeets`). Otherwise a sequence can be completed by what was not meant for it.
-/

set_option autoImplicit false

namespace Tymux.Analysis

open Tymux.Model.Vt Tymux.Model.TerminalQuery Tymux.Analysis.Vt Tymux.Lib

section

variable {σ : Type} {tok : Tokenizer σ}

/-! ## Two outputs with the same queries to come -/

/-- After `u` and after `v` the same queries are to come: no sequence is open, or the tokenizers
agree. -/
def Meet (tok : Tokenizer σ) (u v : List UInt8) : Prop :=
  (phaseOf u = .calm ∧ phaseOf v = .calm) ∨
    tok.ObsEq (tok.after u) (tok.after v) ∧ phaseOf u = phaseOf v

variable {u v : List UInt8} {b : UInt8}

theorem Meet.calm (h : Meet tok u v) (hcalm : phaseOf u = .calm) : phaseOf v = .calm := by
  rcases h with ⟨-, hv⟩ | ⟨-, hsame⟩
  · exact hv
  · rw [← hsame]
    exact hcalm

/-- No query ends at the byte. -/
def QuietAt (tok : Tokenizer σ) (u : List UInt8) (b : UInt8) : Prop :=
  ∀ a ∈ (tok.advance (tok.after u) b).2, isQuery a = false

theorem quietAt_of_calm (hlaw : Lawful tok) (hcalm : phaseOf u = .calm) (b : UInt8) :
    QuietAt tok u b := by
  have hallowed := hlaw.allowed u b
  rw [hcalm] at hallowed
  exact fun a ha => not_isQuery_of_not_dispatches (hallowed a ha)

theorem Meet.quietAt (hlaw : Lawful tok) (h : Meet tok u v) (hquiet : QuietAt tok u b) :
    QuietAt tok v b := by
  rcases h with ⟨-, hv⟩ | ⟨hsync, -⟩
  · exact quietAt_of_calm hlaw hv b
  · unfold QuietAt
    rw [← hsync.actions b]
    exact hquiet

theorem Meet.step (hlaw : Lawful tok) (h : Meet tok u v) (b : UInt8) :
    Meet tok (u ++ [b]) (v ++ [b]) := by
  unfold Meet
  rw [phaseOf_append, phaseOf_append, tok.after_append, tok.after_append]
  rcases h with ⟨hu, hv⟩ | ⟨hsync, hsame⟩
  · rw [hu, hv]
    by_cases hesc : b = 0x1b
    · subst hesc
      exact Or.inr ⟨hlaw.esc _ _, rfl⟩
    · rw [Phase.next_calm hesc]
      exact Or.inl ⟨rfl, rfl⟩
  · rw [hsame]
    exact Or.inr ⟨hsync.advance b, rfl⟩

/-- Bytes with no query after `u` have none after `v`. -/
theorem Meet.quiet (hlaw : Lawful tok) (h : Meet tok u v) {bs : List UInt8}
    (hquiet : Quiet tok u bs) : Quiet tok v bs ∧ Meet tok (u ++ bs) (v ++ bs) := by
  induction bs generalizing u v with
  | nil =>
      rw [List.append_nil, List.append_nil]
      exact ⟨trivial, h⟩
  | cons b bs ih =>
      obtain ⟨hrest, hmeet⟩ := ih (h.step hlaw b) hquiet.2
      rw [List.append_cons, List.append_cons v]
      exact ⟨⟨h.quietAt hlaw hquiet.1, hrest⟩, hmeet⟩

theorem quiet_left {bs cs : List UInt8} (h : Quiet tok u (bs ++ cs)) : Quiet tok u bs := by
  induction bs generalizing u with
  | nil => trivial
  | cons b bs ih => exact ⟨h.1, ih h.2⟩

/-- What tokenizing the bytes gives. -/
theorem quiet_iff {bytes : List UInt8} :
    Quiet tok [] bytes ↔ ∀ a ∈ (tok.advanceAll tok.start bytes).2, isQuery a = false := by
  have hgeneral : ∀ (bs u : List UInt8),
      Quiet tok u bs ↔ ∀ a ∈ (tok.advanceAll (tok.after u) bs).2, isQuery a = false := by
    intro bs
    induction bs with
    | nil =>
        intro u
        exact iff_of_true trivial fun a ha => absurd ha List.not_mem_nil
    | cons b bs ih =>
        intro u
        rw [tok.advanceAll_cons]
        dsimp only
        rw [List.forall_mem_append, ← tok.after_append, ← ih]
        exact Iff.rfl
  exact hgeneral bytes []

/-! ## The log of one process -/

/-- An ESC after `v` cuts off a sequence that is no query. -/
def Interrupts (tok : Tokenizer σ) (v : List UInt8) : Prop :=
  phaseOf v ≠ .calm ∧ QuietAt tok v 0x1b

/-- The last ESC of the output cut off a sequence. -/
def LastInterrupts (tok : Tokenizer σ) (u : List UInt8) : Prop :=
  ∃ v x, u = v ++ 0x1b :: x ∧ 0x1b ∉ x ∧ Interrupts tok v

/-- No query begins with an ESC that cut off a sequence. -/
def Undisturbed (tok : Tokenizer σ) (output : List UInt8) : Prop :=
  ∀ u b, u ++ [b] <+: output → LastInterrupts tok u → QuietAt tok u b

/-- INTERNAL: The log `base` of the processes before, and of this one what is left of the output
`u`. -/
structure LeftOver (tok : Tokenizer σ) (base u : List UInt8) (cut : Cut) : Prop where
  quiet : Quiet tok [] (base ++ cut.pieces.flatMap Piece.stripped ++ cut.opened)
  meet : Meet tok u (base ++ cut.pieces.flatMap Piece.stripped ++ cut.opened)
  joined : phaseOf u ≠ .calm → ¬ LastInterrupts tok u →
    phaseOf (base ++ cut.pieces.flatMap Piece.stripped) = .calm
  controls : phaseOf u ≠ .calm → ∀ c ∈ cut.controls, c ≠ 0x1b

variable {base : List UInt8} {cut : Cut}

/-- Inside of a sequence the tokenizer reports at most the control that it reads. -/
theorem acts_of_open (hlaw : Lawful tok) (hphase : phaseOf u ≠ .calm) (hne : b ≠ 0x1b)
    (hnext : phaseOf (u ++ [b]) ≠ .calm) :
    (tok.advance (tok.after u) b).2 = [] ∨ (tok.advance (tok.after u) b).2 = [.execute b] := by
  have hallowed := hlaw.allowed u b
  rw [phaseOf_append] at hnext
  have habort : ¬ Aborts b := fun habort => hnext (Phase.next_of_aborts _ habort)
  unfold Allowed at hallowed
  unfold Phase.next at hnext
  rw [if_neg hne, if_neg habort] at hnext
  cases hp : phaseOf u with
  | calm => exact absurd hp hphase
  | escape =>
      rw [hp] at hallowed hnext
      dsimp only at hallowed hnext
      split at hallowed
      · exact Or.inl hallowed
      · rename_i hopens
        split at hallowed
        · exact Or.inr hallowed
        · rename_i hctl
          exfalso
          push Not at hopens
          rw [if_neg hopens.2.1, if_neg hopens.2.2.1, if_neg] at hnext
          · exact hnext rfl
          · rintro (hlt | hge)
            · exact hctl ⟨hlt, habort⟩
            · exact hopens.2.2.2 hge
  | csi =>
      rw [hp] at hallowed hnext
      dsimp only at hallowed hnext
      split at hallowed
      · rename_i hfinal
        rw [if_pos hfinal] at hnext
        exact absurd rfl hnext
      · split at hallowed
        · exact Or.inr hallowed
        · exact Or.inl hallowed
  | osc =>
      rw [hp] at hallowed hnext
      dsimp only at hallowed hnext
      split at hallowed
      · rename_i hbel
        rw [if_pos hbel] at hnext
        exact absurd rfl hnext
      · exact Or.inl hallowed

theorem lastInterrupts_append (hne : b ≠ 0x1b) :
    LastInterrupts tok (u ++ [b]) ↔ LastInterrupts tok u := by
  constructor
  · rintro ⟨v, x, hu, hx, hv⟩
    -- the last byte is not the ESC
    rcases List.eq_nil_or_concat x with rfl | ⟨y, c, rfl⟩
    · obtain ⟨-, hb⟩ := List.append_inj' hu rfl
      exact absurd (List.cons.inj hb).1 hne
    · rw [List.concat_eq_append, ← List.cons_append, ← List.append_assoc] at hu
      obtain ⟨rfl, hb⟩ := List.append_inj' hu rfl
      refine ⟨v, y, rfl, fun hmem => hx ?_, hv⟩
      rw [List.concat_eq_append]
      exact List.mem_append_left _ hmem
  · rintro ⟨v, x, rfl, hx, hv⟩
    refine ⟨v, x ++ [b], by simp, ?_, hv⟩
    rw [List.mem_append, List.mem_singleton]
    rintro (hmem | heq)
    · exact hx hmem
    · exact hne heq.symm

theorem lastInterrupts_esc : LastInterrupts tok (u ++ [0x1b]) ↔ Interrupts tok u := by
  constructor
  · rintro ⟨v, x, hu, hx, hv⟩
    rcases List.eq_nil_or_concat x with rfl | ⟨y, c, rfl⟩
    · obtain ⟨rfl, -⟩ := List.append_inj' hu rfl
      exact hv
    · rw [List.concat_eq_append, ← List.cons_append, ← List.append_assoc] at hu
      obtain ⟨-, hb⟩ := List.append_inj' hu rfl
      have hc : 0x1b = c := (List.cons.inj hb).1
      exact absurd (by rw [List.concat_eq_append, hc]; simp) hx
  · intro hu
    exact ⟨u, [], rfl, List.not_mem_nil, hu⟩

/-- INTERNAL: A byte that ends no query. -/
theorem leftOver_quiet (hlaw : Lawful tok) (h : LeftOver tok base u cut) (hquiet : QuietAt tok u b)
    {executed : List UInt8} (daemon : Bool)
    (hexecuted : phaseOf u ≠ .calm → executed = (tok.advance (tok.after u) b).2.filterMap control) :
    LeftOver tok base (u ++ [b]) (cut.step daemon b executed []) := by
  have happend : base ++ (cut.step daemon b executed []).pieces.flatMap Piece.stripped ++
      (cut.step daemon b executed []).opened =
      base ++ cut.pieces.flatMap Piece.stripped ++ cut.opened ++ [b] := by
    rw [List.append_assoc base, (cut.step_quiet daemon b executed).1 Piece.stripped fun _ => rfl]
    simp only [List.append_assoc]
  constructor
  case quiet =>
    rw [happend]
    exact quiet_append h.quiet ⟨h.meet.quietAt hlaw hquiet, trivial⟩
  case meet =>
    rw [happend]
    exact h.meet.step hlaw b
  case joined =>
    intro hphase hno
    unfold Cut.step
    rw [if_pos rfl]
    by_cases hesc : b = 0x1b
    · subst hesc
      rw [if_pos rfl]
      rw [lastInterrupts_esc] at hno
      have hcalm : phaseOf u = .calm := by
        by_contra hne
        exact hno ⟨hne, hquiet⟩
      have htext : base ++ (cut.pieces ++ [Piece.text cut.opened]).flatMap Piece.stripped =
          base ++ cut.pieces.flatMap Piece.stripped ++ cut.opened := by
        simp [Piece.stripped]
      rw [htext]
      exact h.meet.calm hcalm
    · rw [if_neg hesc]
      rw [lastInterrupts_append hesc] at hno
      apply h.joined _ hno
      intro hcalm
      rw [phaseOf_append, hcalm, Phase.next_calm hesc] at hphase
      exact hphase rfl
  case controls =>
    intro hphase c hc
    unfold Cut.step at hc
    rw [if_pos rfl] at hc
    by_cases hesc : b = 0x1b
    · rw [if_pos hesc] at hc
      exact absurd hc List.not_mem_nil
    · rw [if_neg hesc] at hc
      have hopen : phaseOf u ≠ .calm := by
        intro hcalm
        rw [phaseOf_append, hcalm, Phase.next_calm hesc] at hphase
        exact hphase rfl
      rcases List.mem_append.mp hc with hold | hnew
      · exact h.controls hopen c hold
      · rw [hexecuted hopen] at hnew
        rcases acts_of_open hlaw hopen hesc hphase with hnil | hone
        · rw [hnil] at hnew
          exact absurd hnew List.not_mem_nil
        · rw [hone] at hnew
          obtain ⟨a, ha, hcontrol⟩ := List.mem_filterMap.mp hnew
          rw [List.mem_singleton.mp ha] at hcontrol
          unfold control at hcontrol
          dsimp only at hcontrol
          split at hcontrol
          · cases hcontrol
          · cases hcontrol
            exact hesc

/-- INTERNAL: A byte that ends a query, which did not cut off another sequence. -/
theorem leftOver_query (hlaw : Lawful tok) (h : LeftOver tok base u cut) (hquery : ¬ QuietAt tok u b)
    (hlast : ¬ LastInterrupts tok u) {replies : List (List UInt8)} (hreplies : replies ≠ [])
    (daemon : Bool) (executed : List UInt8) :
    LeftOver tok base (u ++ [b]) (cut.step daemon b executed replies) := by
  have hopen : phaseOf u ≠ .calm := fun hcalm => hquery (quietAt_of_calm hlaw hcalm b)
  have hcalm := h.joined hopen hlast
  obtain ⟨hcontrols, hafter⟩ := quiet_text hlaw hcalm (h.controls hopen)
  have hlog : Quiet tok [] (base ++ cut.pieces.flatMap Piece.stripped ++ cut.controls) := by
    apply quiet_append (quiet_left h.quiet)
    exact hcontrols
  have hpieces : ∀ x, base ++ (cut.pieces ++ [Piece.query x cut.controls replies daemon]).flatMap
      Piece.stripped = base ++ cut.pieces.flatMap Piece.stripped ++ cut.controls := by
    intro x
    simp [Piece.stripped]
  unfold Cut.step
  rw [if_neg hreplies]
  by_cases hends : b = 0x1b ∨ Aborts b
  · rw [if_pos hends]
    constructor
    case quiet =>
      dsimp only
      rw [hpieces]
      exact quiet_append hlog ⟨quietAt_of_calm hlaw hafter b, trivial⟩
    case meet =>
      dsimp only
      rw [hpieces]
      unfold Meet
      rw [phaseOf_append, phaseOf_append, tok.after_append, tok.after_append]
      rcases hends with rfl | habort
      · exact Or.inr ⟨hlaw.esc _ _, by rw [Phase.next_esc, Phase.next_esc]⟩
      · exact Or.inl ⟨Phase.next_of_aborts _ habort, Phase.next_of_aborts _ habort⟩
    case joined =>
      intro _ _
      dsimp only
      rw [hpieces]
      exact hafter
    case controls =>
      intro _ c hc
      exact absurd hc List.not_mem_nil
  · rw [if_neg hends]
    obtain ⟨hesc, habort⟩ := not_or.mp hends
    -- the byte ended a CSI or an OSC
    have hnext : phaseOf (u ++ [b]) = .calm := by
      by_contra hne
      apply hquery
      unfold QuietAt
      rcases acts_of_open hlaw hopen hesc hne with hnil | hone
      · rw [hnil]
        exact fun a ha => absurd ha List.not_mem_nil
      · rw [hone]
        intro a ha
        rw [List.mem_singleton.mp ha]
        rfl
    constructor
    case quiet =>
      dsimp only
      rw [hpieces, List.append_nil]
      exact hlog
    case meet =>
      dsimp only
      rw [hpieces, List.append_nil]
      exact Or.inl ⟨hnext, hafter⟩
    case joined => exact fun hne => absurd hnext hne
    case controls => exact fun hne => absurd hnext hne

end

section

variable {σ : Type} {tok : Tokenizer σ} {width : Char → Option ℕ} {colors : Colors} {size : Size}
  {cap : ℕ} {base u : List UInt8} {daemon : Bool} {w w' : Walk σ}

/-- INTERNAL: A chunk. -/
theorem leftOver_chunk (hlaw : Lawful tok) (hwidth : WidthLaw width)
    (hwalked : Walked tok size cap u w) (h : LeftOver tok base u w.cut) {bytes : List UInt8}
    (hchain : List.IsChain PairFree (u ++ bytes)) (hok : Undisturbed tok (u ++ bytes))
    (hchunk : w.chunk tok width colors daemon bytes = some w') :
    LeftOver tok base (u ++ bytes) w'.cut := by
  induction bytes generalizing u w with
  | nil =>
      have hw : w = w' := Option.some_inj.mp hchunk
      rw [← hw, List.append_nil]
      exact h
  | cons b bs ih =>
      obtain ⟨p, executed, replies, hobs, hstep, hnext⟩ :=
        walk_step colors hlaw hwidth hwalked (pairFree_getLast hchain) daemon
      rw [chunk_cons, hstep] at hchunk
      rw [List.append_cons] at hchain hok ⊢
      apply ih (hnext (w.cut.step daemon b executed replies)) _ hchain hok hchunk
      by_cases hquiet : QuietAt tok u b
      · have hnil : replies = [] := hobs.replies.mpr hquiet
        subst hnil
        exact leftOver_quiet hlaw h hquiet daemon hobs.executed
      · apply leftOver_query hlaw h hquiet _ (fun hnil => hquiet (hobs.replies.mp hnil))
        intro hlast
        exact hquiet (hok u b (List.prefix_append _ _) hlast)

end

/-! ## Runs -/

section

variable {σ : Type} {tok : Tokenizer σ} {width : Char → Option ℕ} {colors : Colors}
  {p p' : ReaderPane σ} {e : PaneEvent}

/-- What the processes of a run print: no C1 control in two bytes, and no sequence that stays open
for more than the scanner holds. -/
def Prints (p : ReaderPane σ) : PaneEvent → Prop
  | .decide chunk => Readable [] (printed p.chunks ++ chunk)
  | _ => True

/-- The condition for a step: a query that is taken out did not cut off another sequence, no
sequence is open where the output of a process ends, and text that is written in between has no
query of its own and leaves nothing open. -/
def Meets (tok : Tokenizer σ) (p : ReaderPane σ) : PaneEvent → Prop
  | .decide chunk => Undisturbed tok (printed p.chunks ++ chunk)
  | .eof => phaseOf (printed p.chunks) = .calm
  | .inject data => Quiet tok [] data ∧ phaseOf data = .calm
  | _ => True

/-- Every step of the run is taken in a state that is as `ok` says. -/
def Throughout (tok : Tokenizer σ) (width : Char → Option ℕ) (colors : Colors)
    (ok : ReaderPane σ → PaneEvent → Prop) : ReaderPane σ → List PaneEvent → Prop
  | _, [] => True
  | p, e :: es => ok p e ∧ ∀ p', p.step tok width colors e = some p' → Throughout tok width colors ok p' es

/-- INTERNAL: What the scanner has left of the output `u` of the process, behind the log `base` of
those before. -/
structure LogSettled (tok : Tokenizer σ) (u base : List UInt8) (w : Walk σ)
    (scanner : QueryScanner σ) (logged : List UInt8) : Prop where
  between : Between tok ⟨1, 1⟩ 0 scanner u w
  inv : LeftOver tok base u w.cut
  logged : ∃ own, logged = base ++ own ∧
    own ++ scanner.held = w.cut.pieces.flatMap Piece.stripped ++ w.cut.opened

/-- INTERNAL: The log at each stage of the reader. -/
def LogStands (tok : Tokenizer σ) (p : ReaderPane σ) : Prop :=
  match p.stage with
  | .waiting | .pushed _ _ _ =>
    ∃ base w, LogSettled tok (printed p.chunks) base w p.scanner (bytesOf p.logged)
  | .decided _ daemon chunk | .parsed _ daemon chunk =>
    ∃ before base w, p.chunks = before ++ [(daemon, chunk)] ∧
      Readable [] (printed before ++ chunk) ∧ Undisturbed tok (printed before ++ chunk) ∧
      LogSettled tok (printed before) base w p.scanner (bytesOf p.logged)
  | .scanned _ _ scanned =>
    ∃ base w, LogSettled tok (printed p.chunks) base w p.scanner
      (bytesOf p.logged ++ scanned.stripped)
  | .stopped => Quiet tok [] (bytesOf p.logged) ∧ phaseOf (bytesOf p.logged) = .calm

theorem LogSettled.whole {u base : List UInt8} {w : Walk σ} {scanner : QueryScanner σ}
    {logged : List UInt8} (h : LogSettled tok u base w scanner logged) :
    logged ++ scanner.held = base ++ w.cut.pieces.flatMap Piece.stripped ++ w.cut.opened := by
  obtain ⟨own, rfl, hown⟩ := h.logged
  rw [List.append_assoc, hown, List.append_assoc]

/-- A process starts behind a log in which nothing is open. -/
theorem logSettled_default {base : List UInt8} (hquiet : Quiet tok [] base)
    (hcalm : phaseOf base = .calm) :
    ∃ w, LogSettled tok [] base w (QueryScanner.default tok) base := by
  obtain ⟨parser, -, hwalked⟩ := walked_new tok (Nat.le_refl 1) (Nat.le_refl 1) (by decide) 0
  refine ⟨Walk.new parser, between_default hwalked rfl, ?_, [], (List.append_nil base).symm, rfl⟩
  have hbase : base ++ (Walk.new parser).cut.pieces.flatMap Piece.stripped ++
      (Walk.new parser).cut.opened = base := by
    show base ++ [] ++ [] = base
    rw [List.append_nil, List.append_nil]
  constructor
  case quiet =>
    rw [hbase]
    exact hquiet
  case meet =>
    rw [hbase]
    exact Or.inl ⟨rfl, hcalm⟩
  case joined => exact fun hne => absurd rfl hne
  case controls => exact fun hne => absurd rfl hne

theorem logSettled_feed (hlaw : Lawful tok) {u base : List UInt8} {w : Walk σ}
    {scanner : QueryScanner σ} {logged : List UInt8}
    (h : LogSettled tok u base w scanner logged) (daemon : Bool) {chunk : List UInt8}
    (hreadable : Readable [] (u ++ chunk)) (hok : Undisturbed tok (u ++ chunk)) :
    ∃ w', LogSettled tok (u ++ chunk) base w' (scanner.feed tok chunk).2
      (logged ++ (scanner.feed tok chunk).1.stripped) := by
  obtain ⟨w', hnext, hbetween, hview, -⟩ := feed_spec {} hlaw widthLaw_one daemon h.between
    hreadable.1 (hreadable.2 _ (List.prefix_refl _))
  obtain ⟨own, rfl, hown⟩ := h.logged
  refine ⟨w', hbetween, ?_, own ++ (scanner.feed tok chunk).1.stripped, ?_, ?_⟩
  · exact leftOver_chunk hlaw widthLaw_one h.between.walked h.inv hreadable.1 hok hnext
  · rw [List.append_assoc]
  · exact hview Piece.stripped false own (renders_stripped daemon) hown

/-- INTERNAL: One step that meets the condition.
SRC: pane.rs:564-612, pane.rs:777-794 -/
theorem logStands_step (hlaw : Lawful tok) (hprints : Prints p e) (hmeets : Meets tok p e)
    (h : LogStands tok p) (hstep : p.step tok width colors e = some p') : LogStands tok p' := by
  by_cases hclient : OfClient e
  · obtain ⟨clients, new, -, rfl⟩ := client_inv hclient hstep
    exact h
  unfold LogStands at h
  cases e with
  | decide chunk =>
      obtain ⟨next, daemon, hstage, rfl⟩ := decide_inv hstep
      rw [hstage] at h
      obtain ⟨base, w, hsettled⟩ := h
      exact ⟨p.chunks, base, w, rfl, hprints, hmeets, hsettled⟩
  | parse =>
      obtain ⟨next, daemon, chunk, r, hstage, -, rfl⟩ := parse_inv hstep
      rw [hstage] at h
      exact h
  | scan =>
      obtain ⟨next, daemon, chunk, hstage, rfl⟩ := scan_inv hstep
      rw [hstage] at h
      obtain ⟨before, base, w, hchunks, hreadable, hok, hsettled⟩ := h
      obtain ⟨w', hnext⟩ := logSettled_feed hlaw hsettled daemon hreadable hok
      refine ⟨base, w', ?_⟩
      show LogSettled tok (printed p.chunks) base w' _ _
      rw [hchunks, printed_append]
      exact hnext
  | push =>
      obtain ⟨next, daemon, scanned, hstage, rfl⟩ := push_inv hstep
      rw [hstage] at h
      obtain ⟨base, w, hsettled⟩ := h
      rw [← bytesOf_append p.logged next] at hsettled
      exact ⟨base, w, hsettled⟩
  | broadcast =>
      obtain ⟨next, daemon, scanned, payload, sent, hstage, -, -, rfl⟩ := broadcast_inv hstep
      rw [hstage] at h
      exact h
  | eof =>
      obtain ⟨hstage, hcases⟩ := eof_inv hstep
      rw [hstage] at h
      obtain ⟨base, w, hsettled⟩ := h
      have hquiet := hsettled.inv.quiet
      have hcalm := hsettled.inv.meet.calm hmeets
      rw [← hsettled.whole] at hquiet hcalm
      rcases hcases with ⟨hempty, rfl⟩ | ⟨-, rfl⟩
      · rw [hempty, List.append_nil] at hquiet hcalm
        exact ⟨hquiet, hcalm⟩
      · rw [← bytesOf_append p.logged (p.outputSeq + 1)] at hquiet hcalm
        exact ⟨hquiet, hcalm⟩
  | inject data =>
      obtain ⟨r, hstage, -, rfl⟩ := inject_inv hstep
      rw [hstage] at h
      have hmeet : Meet tok [] (bytesOf p.logged) := Or.inl ⟨rfl, h.2⟩
      obtain ⟨hdata, hafter⟩ := hmeet.quiet hlaw hmeets.1
      have hquiet : Quiet tok [] (bytesOf p.logged ++ data) := quiet_append h.1 hdata
      have hcalm := hafter.calm hmeets.2
      rw [← bytesOf_append p.logged (p.outputSeq + 1)] at hquiet hcalm
      unfold LogStands
      show match p.stage with
        | .waiting | .pushed _ _ _ => _
        | .decided _ daemon chunk | .parsed _ daemon chunk => _
        | .scanned _ _ scanned => _
        | .stopped => _
      rw [hstage]
      exact ⟨hquiet, hcalm⟩
  | respawn =>
      obtain ⟨hstage, rfl⟩ := respawn_inv hstep
      rw [hstage] at h
      obtain ⟨w, hsettled⟩ := logSettled_default h.1 h.2
      exact ⟨bytesOf p.logged, w, hsettled⟩
  | register => exact absurd trivial hclient
  | goLiveAfter client seq => exact absurd trivial hclient
  | setLagged client lagged => exact absurd trivial hclient
  | dropClient client => exact absurd trivial hclient
  | resume fromSeq => exact absurd trivial hclient

/-- INTERNAL: No query in the log at any stage. -/
theorem LogStands.quiet (h : LogStands tok p) : Quiet tok [] (bytesOf p.logged) := by
  have hsettled : ∀ {u base : List UInt8} {w : Walk σ} {scanner : QueryScanner σ}
      {logged : List UInt8}, LogSettled tok u base w scanner logged → Quiet tok [] logged := by
    intro u base w scanner logged hlogged
    have hwhole := hlogged.inv.quiet
    rw [← hlogged.whole] at hwhole
    exact quiet_left hwhole
  unfold LogStands at h
  split at h
  · obtain ⟨base, w, hlogged⟩ := h
    exact hsettled hlogged
  · obtain ⟨base, w, hlogged⟩ := h
    exact hsettled hlogged
  · obtain ⟨before, base, w, -, -, -, hlogged⟩ := h
    exact hsettled hlogged
  · obtain ⟨before, base, w, -, -, -, hlogged⟩ := h
    exact hsettled hlogged
  · obtain ⟨base, w, hlogged⟩ := h
    exact quiet_left (hsettled hlogged)
  · exact h.1

/-- The log of a run over any number of processes, with what is released at the end of each and
with markers and banners in between, has no query, if all the steps of the run meet the condition.
SRC: pane.rs:564-612, pane.rs:777-794, scanner.rs:120-188, supervision.rs:201-220 -/
theorem log_queryFree (hlaw : Lawful tok) (parser : Parser σ) (clients : ClientRegistry)
    (outputSeq budgetBytes : ℕ) {events : List PaneEvent}
    (hprints : Throughout tok width colors Prints
      (ReaderPane.start tok parser clients outputSeq budgetBytes) events)
    (hmeets : Throughout tok width colors (Meets tok)
      (ReaderPane.start tok parser clients outputSeq budgetBytes) events)
    (hrun : (ReaderPane.start tok parser clients outputSeq budgetBytes).run tok width colors events =
      some p) :
    ∀ a ∈ (tok.advanceAll tok.start (bytesOf p.logged)).2, isQuery a = false := by
  have hruns : ∀ (events : List PaneEvent) (s : ReaderPane σ), LogStands tok s →
      Throughout tok width colors Prints s events → Throughout tok width colors (Meets tok) s events →
      s.run tok width colors events = some p → LogStands tok p := by
    intro events
    induction events with
    | nil =>
        intro s hs _ _ hrun
        rw [← Option.some_inj.mp hrun]
        exact hs
    | cons e es ih =>
        intro s hs hprints hmeets hrun
        obtain ⟨s', hstep, hrest⟩ := Option.bind_eq_some_iff.mp hrun
        exact ih s' (logStands_step hlaw hprints.1 hmeets.1 hs hstep) (hprints.2 s' hstep)
          (hmeets.2 s' hstep) hrest
  have hstart : LogStands tok (ReaderPane.start tok parser clients outputSeq budgetBytes) := by
    obtain ⟨w, hsettled⟩ : ∃ w, LogSettled tok [] [] w (QueryScanner.default tok) [] :=
      logSettled_default trivial rfl
    exact ⟨[], w, hsettled⟩
  rw [← quiet_iff]
  exact (hruns events _ hstart hprints hmeets hrun).quiet

/-- An output in which every ESC comes outside of a sequence. -/
theorem undisturbed_of_calm {output : List UInt8}
    (h : ∀ n < output.length, output[n]? = some 0x1b → phaseOf (output.take n) = .calm) :
    Undisturbed tok output := by
  rintro u b ⟨rest, rfl⟩ ⟨v, x, rfl, -, hopen, -⟩
  refine absurd ?_ hopen
  have hcalm := h v.length (by simp) (by simp)
  simpa using hcalm

/-! ## Markers and banners -/

/-- Complete CSIs that are no queries. -/
theorem quiet_csis (hlaw : Lawful tok) {u : List UInt8} (hcalm : phaseOf u = .calm)
    {csis : List (List UInt8)} (hcsis : ∀ csi ∈ csis, completeOtherCsi csi = some csi.length) :
    Quiet tok u csis.flatten ∧ phaseOf (u ++ csis.flatten) = .calm := by
  induction csis generalizing u with
  | nil =>
      rw [List.flatten_nil, List.append_nil]
      exact ⟨trivial, hcalm⟩
  | cons csi csis ih =>
      rw [List.forall_mem_cons] at hcsis
      obtain ⟨hquiet, hphase, -, -⟩ := quiet_otherCsi hlaw hcalm hcsis.1
      rw [List.take_length] at hquiet hphase
      obtain ⟨hrest, hphase'⟩ := ih hphase hcsis.2
      rw [List.flatten_cons, ← List.append_assoc]
      exact ⟨quiet_append hquiet hrest, hphase'⟩

/-- Text that is written around complete CSIs. -/
theorem quiet_between (hlaw : Lawful tok) {u : List UInt8} (hcalm : phaseOf u = .calm)
    (before : List UInt8) (csis : List (List UInt8)) (after : List UInt8) (hbefore : ∀ b ∈ before, b ≠ 0x1b)
    (hcsis : ∀ csi ∈ csis, completeOtherCsi csi = some csi.length)
    (hafter : ∀ b ∈ after, b ≠ 0x1b) :
    Quiet tok u (before ++ csis.flatten ++ after) ∧
      phaseOf (u ++ (before ++ csis.flatten ++ after)) = .calm := by
  obtain ⟨hquiet, hphase⟩ := quiet_text hlaw hcalm hbefore
  obtain ⟨hquiet', hphase'⟩ := quiet_csis hlaw hphase hcsis
  obtain ⟨hquiet'', hphase''⟩ := quiet_text hlaw hphase' hafter
  rw [List.append_assoc u, List.append_assoc u] at hphase''
  rw [List.append_assoc u] at hquiet''
  exact ⟨quiet_append (quiet_append hquiet hquiet') hquiet'', hphase''⟩

/-- A marker whose text has no ESC has no query and leaves nothing open. -/
theorem quiet_marker (hlaw : Lawful tok) {u : List UInt8} (hcalm : phaseOf u = .calm)
    {text : String} (htext : ∀ b ∈ textBytes text, b ≠ 0x1b) :
    Quiet tok u (marker text) ∧ phaseOf (u ++ marker text) = .calm := by
  have hhead : textBytes "\r\n\x1b[2m[tymux: " = [0x0d, 0x0a] ++
      [[0x1b, 0x5b, 0x32, 0x6d]].flatten ++ [0x5b, 0x74, 0x79, 0x6d, 0x75, 0x78, 0x3a, 0x20] := by
    decide +kernel
  have htail : textBytes "]\x1b[0m\r\n" =
      [0x5d] ++ [[0x1b, 0x5b, 0x30, 0x6d]].flatten ++ [0x0d, 0x0a] := by
    decide +kernel
  unfold marker
  rw [hhead, htail]
  obtain ⟨hquiet, hphase⟩ := quiet_between hlaw hcalm [0x0d, 0x0a] [[0x1b, 0x5b, 0x32, 0x6d]]
    [0x5b, 0x74, 0x79, 0x6d, 0x75, 0x78, 0x3a, 0x20] (by decide +kernel) (by decide)
    (by decide +kernel)
  obtain ⟨hquiet', hphase'⟩ := quiet_text hlaw hphase htext
  obtain ⟨hquiet'', hphase''⟩ := quiet_between hlaw hphase' [0x5d] [[0x1b, 0x5b, 0x30, 0x6d]]
    [0x0d, 0x0a] (by decide +kernel) (by decide)
    (by decide +kernel)
  rw [List.append_assoc u] at hquiet'' hphase''
  rw [List.append_assoc u] at hphase''
  exact ⟨quiet_append (quiet_append hquiet hquiet') hquiet'', hphase''⟩

/-- The CSIs that a restart begins with. -/
def resetCsis : List (List UInt8) :=
  [[0x1b, 0x5b, 0x30, 0x6d], [0x1b, 0x5b, 0x3f, 0x31, 0x30, 0x34, 0x39, 0x6c],
    [0x1b, 0x5b, 0x3f, 0x32, 0x35, 0x68], [0x1b, 0x5b, 0x3f, 0x31, 0x30, 0x30, 0x30, 0x6c],
    [0x1b, 0x5b, 0x3f, 0x31, 0x30, 0x30, 0x32, 0x6c],
    [0x1b, 0x5b, 0x3f, 0x31, 0x30, 0x30, 0x33, 0x6c],
    [0x1b, 0x5b, 0x3f, 0x31, 0x30, 0x30, 0x36, 0x6c],
    [0x1b, 0x5b, 0x3f, 0x31, 0x30, 0x30, 0x34, 0x6c],
    [0x1b, 0x5b, 0x3f, 0x32, 0x30, 0x30, 0x34, 0x6c], [0x1b, 0x5b, 0x3f, 0x31, 0x6c]]

/-- So does the banner of a restart. -/
theorem quiet_banner (hlaw : Lawful tok) {text : String}
    (htext : ∀ b ∈ textBytes text, b ≠ 0x1b) :
    Quiet tok [] (banner text) ∧ phaseOf (banner text) = .calm := by
  have hreset : textBytes terminalReset = resetCsis.flatten ++ [0x1b, 0x3e] := by
    decide +kernel
  obtain ⟨hquiet, hphase⟩ : Quiet tok [] resetCsis.flatten ∧
      phaseOf ([] ++ resetCsis.flatten) = .calm :=
    quiet_csis hlaw rfl (by decide)
  -- the keypad mode is an escape sequence without a CSI
  have hescape := hlaw.allowed ([] ++ resetCsis.flatten) 0x1b
  rw [hphase] at hescape
  have hkeypad := hlaw.allowed ([] ++ resetCsis.flatten ++ [0x1b]) 0x3e
  rw [phaseOf_append, Phase.next_esc] at hkeypad
  have hend : Quiet tok ([] ++ resetCsis.flatten) [0x1b, 0x3e] := by
    refine ⟨fun a ha => not_isQuery_of_not_dispatches (hescape a ha), ?_, trivial⟩
    exact fun a ha => not_isQuery_of_not_dispatches (hkeypad a ha)
  obtain ⟨hmarker, hcalm⟩ : Quiet tok ([] ++ (resetCsis.flatten ++ [0x1b, 0x3e])) (marker text) ∧
      phaseOf ([] ++ (resetCsis.flatten ++ [0x1b, 0x3e]) ++ marker text) = .calm :=
    quiet_marker hlaw (by decide) htext
  unfold banner
  rw [hreset]
  exact ⟨quiet_append (quiet_append hquiet hend) hmarker, hcalm⟩

/-- What the supervisor writes meets the condition, as long as its text has no ESC. -/
theorem meets_inject (hlaw : Lawful tok) (p : ReaderPane σ) {text : String}
    (htext : ∀ b ∈ textBytes text, b ≠ 0x1b) :
    Meets tok p (.inject (marker text)) ∧ Meets tok p (.inject (banner text)) :=
  ⟨quiet_marker hlaw rfl htext, quiet_banner hlaw htext⟩

end

/-- The output `ESC [ ESC [ c c` has one query, the DA1 in its middle, which is taken out; what is
left is a DA1 again. -/
theorem log_hasQuery :
    ∃ parser p, Parser.new vte 1 1 1 = some parser ∧
      Throughout vte (fun _ => some 1) {} Prints (ReaderPane.start vte parser {} 0 1000)
        [.decide [0x1b, 0x5b, 0x1b, 0x5b, 0x63, 0x63], .parse, .scan, .push] ∧
      (ReaderPane.start vte parser {} 0 1000).run vte (fun _ => some 1) {}
        [.decide [0x1b, 0x5b, 0x1b, 0x5b, 0x63, 0x63], .parse, .scan, .push] = some p ∧
      ¬ ∀ a ∈ (vte.advanceAll vte.start (bytesOf p.logged)).2, isQuery a = false := by
  obtain ⟨parser, hnew, -⟩ := @walked_new _ vte 1 1 (by decide) (by decide) (by decide) 1
  have hlogged : ((Parser.new vte 1 1 1).bind fun parser =>
      (ReaderPane.start vte parser {} 0 1000).run vte (fun _ => some 1) {}
        [.decide [0x1b, 0x5b, 0x1b, 0x5b, 0x63, 0x63], .parse, .scan, .push]).map
          (fun p => bytesOf p.logged) = some [0x1b, 0x5b, 0x63] := by
    decide +kernel
  rw [hnew, Option.bind_some] at hlogged
  obtain ⟨p, hrun, hp⟩ := Option.map_eq_some_iff.mp hlogged
  have hreadable : Readable [] [0x1b, 0x5b, 0x1b, 0x5b, 0x63, 0x63] :=
    ⟨by decide, short_of_length (by decide)⟩
  refine ⟨parser, p, hnew, ⟨hreadable, fun _ _ => ?_⟩, hrun, ?_⟩
  · exact ⟨trivial, fun _ _ => ⟨trivial, fun _ _ => ⟨trivial, fun _ _ => trivial⟩⟩⟩
  · rw [hp]
    decide +kernel

/-- A DSR in text is taken out of the log, the process ends, and a marker follows. -/
theorem log_queryFree_marker :
    ∃ parser p, Parser.new vte 1 1 1 = some parser ∧
      (ReaderPane.start vte parser {} 0 1000).run vte (fun _ => some 1) {}
        [.decide [0x61, 0x1b, 0x5b, 0x35, 0x6e, 0x62], .parse, .scan, .push, .broadcast, .eof,
          .inject (marker "process exited (0); stopped")] = some p ∧
      ∀ a ∈ (vte.advanceAll vte.start (bytesOf p.logged)).2, isQuery a = false := by
  obtain ⟨parser, hnew, -⟩ := @walked_new _ vte 1 1 (by decide) (by decide) (by decide) 1
  have hsome : ((Parser.new vte 1 1 1).bind fun parser =>
      (ReaderPane.start vte parser {} 0 1000).run vte (fun _ => some 1) {}
        [.decide [0x61, 0x1b, 0x5b, 0x35, 0x6e, 0x62], .parse, .scan, .push, .broadcast, .eof,
          .inject (marker "process exited (0); stopped")]).isSome := by
    decide +kernel
  rw [hnew, Option.bind_some] at hsome
  obtain ⟨p, hrun⟩ := Option.isSome_iff_exists.mp hsome
  have hreadable : Readable [] [0x61, 0x1b, 0x5b, 0x35, 0x6e, 0x62] :=
    ⟨by decide, short_of_length (by decide)⟩
  have hcalm : Undisturbed vte [0x61, 0x1b, 0x5b, 0x35, 0x6e, 0x62] :=
    undisturbed_of_calm (by decide)
  refine ⟨parser, p, hnew, hrun, log_queryFree lawful_vte parser {} 0 1000 ?_ ?_ hrun⟩
  · refine ⟨hreadable, fun _ _ => ⟨trivial, fun _ _ => ⟨trivial, fun _ _ => ⟨trivial, fun _ _ =>
      ⟨trivial, fun _ _ => ⟨trivial, fun _ _ => ⟨trivial, fun _ _ => trivial⟩⟩⟩⟩⟩⟩⟩
  · refine ⟨hcalm, fun p1 h1 => ⟨trivial, fun p2 h2 => ⟨trivial, fun p3 h3 => ⟨trivial, fun p4 h4 =>
      ⟨trivial, fun p5 h5 => ⟨?_, fun p6 h6 => ⟨?_, fun _ _ => trivial⟩⟩⟩⟩⟩⟩⟩
    · change (ReaderPane.start vte parser {} 0 1000).decide
        [0x61, 0x1b, 0x5b, 0x35, 0x6e, 0x62] = some p1 at h1
      change p1.parse vte (fun _ => some 1) {} = some p2 at h2
      change p2.scan vte = some p3 at h3
      change p3.push = some p4 at h4
      change p4.broadcast = some p5 at h5
      obtain ⟨_, _, -, rfl⟩ := decide_inv h1
      obtain ⟨_, _, _, _, -, -, rfl⟩ := parse_inv h2
      obtain ⟨_, _, _, -, rfl⟩ := scan_inv h3
      obtain ⟨_, _, _, -, rfl⟩ := push_inv h4
      obtain ⟨_, _, _, _, _, -, -, -, rfl⟩ := broadcast_inv h5
      exact (rfl : phaseOf [0x61, 0x1b, 0x5b, 0x35, 0x6e, 0x62] = .calm)
    · exact (meets_inject lawful_vte p6 (by decide +kernel)).1

end Tymux.Analysis
