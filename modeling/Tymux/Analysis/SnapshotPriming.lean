import Tymux.Analysis.LivePayloads
import Tymux.Analysis.Spelling

/-!
# What a client sees that was primed with a snapshot

A client that reads the held bytes after the snapshot has its emulator where that of the pane is,
but what they do to the screen is done a second time. Without held bytes the client begins at rest,
and the pane need not be at rest: then some output tells the two apart, whatever the screen is.
-/

set_option autoImplicit false

namespace Tymux.Analysis

open Tymux.Lib Tymux.Model.Vt Tymux.Model.TerminalQuery
open Tymux.Analysis.Vt (WidthLaw ScreenFits Call)

section

variable {σ : Type} (tok : Tokenizer σ) (width : Char → Option ℕ) (colors : Colors)

/-- Whatever comes after the snapshot, up to the end of the process and with no query stripped: the
client ends with the screen of the pane. -/
def Seamless (seq : ℕ) (screen : Screen) (p : ReaderPane σ) : Prop :=
  ∀ events p', p.run tok width colors events = some p' →
    Along (ReaderPane.step tok width colors) (Unstripped seq) p events → p'.stage = .stopped →
    ((Parser.primed tok screen).processAll tok width (livePayloads seq p'.sent)).map Parser.screen =
      some p'.parser.screen

/-- The screen is all that the pane knows: what it holds leaves the screen alone when it is read
again, or it holds nothing, and its emulator is at rest and holds back no `C2`. -/
def Primed (screen : Screen) (p : ReaderPane σ) : Prop :=
  (p.scanner.held ≠ [] ∧
    screenAfter width screen ((Parser.primed tok screen).advance tok p.scanner.held).2 =
      some screen) ∨
    p.scanner.held = [] ∧ p.parser.pendingC2 = false ∧ AtRest tok p.parser.parser

variable {tok width colors}

/-! ## Screens in shape -/

theorem yields_screenAfter {size : Size} {cap : ℕ} (hwidth : WidthLaw width) {s : Screen}
    (h : ScreenFits False size cap s) (acts : List Action) :
    Yields (screenAfter width s acts) (ScreenFits False size cap) := by
  have hall := (Vt.yields_performAll hwidth h acts False.elim).map (f := Prod.fst) fun _ hr => hr
  rw [performAll_eq, collecting_fst] at hall
  exact hall

theorem fits_new {rows cols cap : ℕ} (hsize : (Call.setSize rows cols).Admissible)
    {parser : Parser σ} (hnew : Parser.new tok rows cols cap = some parser) :
    parser = Parser.primed tok parser.screen ∧ ScreenFits False ⟨rows, cols⟩ cap parser.screen := by
  unfold Parser.new at hnew
  obtain ⟨screen, hscreen, hparser⟩ := Option.bind_eq_some_iff.mp hnew
  cases hparser
  have hmax : cols ≤ Model.u16Max := hsize.2.2.2.trans (by decide)
  exact ⟨rfl, (Vt.yields_screenNew hsize.1 hsize.2.2.1 hmax cap).of_eq hscreen⟩

theorem fits_run {size : Size} {cap : ℕ} (hwidth : WidthLaw width) {p p' : ReaderPane σ}
    {events : List PaneEvent} (h : ScreenFits False size cap p.parser.screen)
    (hrun : p.run tok width colors events = some p') :
    ScreenFits False size cap p'.parser.screen := by
  refine run_invariant (fun p : ReaderPane σ => ScreenFits False size cap p.parser.screen)
    (fun _ => True) (fun q e q' _ hq hstep => ?_) (fun _ _ => trivial) h hrun
  obtain ⟨screen, hscreen, hq'⟩ := Option.map_eq_some_iff.mp (emulatorAfter_step hstep)
  rw [← hq']
  exact (yields_screenAfter hwidth hq _).of_eq hscreen

theorem processReplying_isSome {size : Size} {cap : ℕ} (hwidth : WidthLaw width) {p : Parser σ}
    (h : ScreenFits False size cap p.screen) (bytes : List UInt8) :
    (processReplying tok width colors p bytes).isSome := by
  obtain ⟨screen, hscreen, -⟩ := yields_screenAfter hwidth h (p.advance tok bytes).2
  have hread : (processReplying tok width colors p bytes).map Prod.fst =
      some { (p.advance tok bytes).1 with screen } := by
    rw [processReplying_fst p bytes colors]
    unfold emulatorAfter
    rw [hscreen]
    rfl
  obtain ⟨r, hr, -⟩ := Option.map_eq_some_iff.mp hread
  exact Option.isSome_iff_exists.mpr ⟨r, hr⟩

/-! ## At the snapshot -/

theorem liveBytes_eq_nil {seq : ℕ} {sent : List (ℕ × List UInt8)}
    (h : ∀ entry ∈ sent, entry.1 ≤ seq) : liveBytes seq sent = [] := by
  unfold liveBytes livePayloads
  rw [List.filter_eq_nil_iff.mpr]
  · rfl
  · intro entry hentry
    simpa using h entry hentry

theorem since_snapshot {parser : Parser σ} {clients : ClientRegistry} {first budget seq : ℕ}
    {events : List PaneEvent} {p : ReaderPane σ} {screen : Screen}
    (hrun : (ReaderPane.start tok parser clients first budget).run tok width colors events = some p)
    (hsnap : p.snapshotWithSeq = some (screen, seq)) :
    Since tok width p.parser seq p.scanner.held [] p := by
  obtain ⟨hnumbered, hstopped⟩ : Numbered p ∧ (p.stage = .stopped → p.scanner.held = []) :=
    run_invariant (fun p : ReaderPane σ => Numbered p ∧ (p.stage = .stopped → p.scanner.held = []))
      (fun _ => True)
      (fun _ _ _ _ h hstep => ⟨(numbered_step h.1 hstep).1, released_step h.2 hstep⟩)
      (fun _ _ => trivial) ⟨⟨fun _ h => absurd h List.not_mem_nil, trivial⟩, fun _ => rfl⟩ hrun
  obtain ⟨-, hseq, hstage⟩ := snapshotWithSeq_inv hsnap
  refine ⟨hnumbered, le_of_eq hseq.symm, hstopped, emulatorAfter_nil _, ?_⟩
  rw [liveBytes_eq_nil fun entry hentry => (hnumbered.sent entry hentry).trans (le_of_eq hseq)]
  rw [List.append_nil]
  unfold openBytes
  obtain hwaiting | ⟨next, daemon, scanned, hpushed⟩ | hstill := hstage
  · rw [hwaiting]
    rfl
  · have hnext := hnumbered.stage
    rw [hpushed] at hnext ⊢
    dsimp only
    rw [if_neg (by omega)]
    rfl
  · rw [hstill]
    rfl

/-- INTERNAL: The client reads what is held, and then what the pane reads. -/
theorem seamless_iff_actions {size : Size} {cap : ℕ} (hwidth : WidthLaw width) {p : ReaderPane σ}
    (hfits : ScreenFits False size cap p.parser.screen) {seq : ℕ} {screen : Screen}
    (hsince : Since tok width p.parser seq p.scanner.held [] p)
    (hsnap : p.snapshotWithSeq = some (screen, seq)) :
    Seamless tok width colors seq screen p ↔ ∀ u,
      screenAfter width screen ((Parser.primed tok screen).advance tok (p.scanner.held ++ u)).2 =
        screenAfter width screen (p.parser.advance tok u).2 := by
  have hscreen := (snapshotWithSeq_inv hsnap).1
  -- what the two sides show when `u` has been read
  have hends : ∀ {u : List UInt8} {p' : ReaderPane σ}, p'.stage = .stopped →
      Since tok width p.parser seq p.scanner.held u p' →
      (((Parser.primed tok screen).processAll tok width (livePayloads seq p'.sent)).map
        Parser.screen = some p'.parser.screen ↔
      screenAfter width screen ((Parser.primed tok screen).advance tok (p.scanner.held ++ u)).2 =
        screenAfter width screen (p.parser.advance tok u).2) := by
    intro u p' hstopped hsince'
    have hsent : liveBytes seq p'.sent = p.scanner.held ++ u := by
      have hstream := hsince'.stream
      unfold openBytes at hstream
      rw [hstopped] at hstream
      dsimp only at hstream
      rw [hsince'.stopped hstopped, List.append_nil] at hstream
      exact hstream
    have hclient : ((Parser.primed tok screen).processAll tok width (livePayloads seq p'.sent)).map
        Parser.screen =
        screenAfter width screen ((Parser.primed tok screen).advance tok (p.scanner.held ++ u)).2 := by
      rw [processAll_eq, screen_emulatorAfter]
      exact congrArg (fun bytes =>
        screenAfter width screen ((Parser.primed tok screen).advance tok bytes).2) hsent
    have hpane : some p'.parser.screen = screenAfter width screen (p.parser.advance tok u).2 := by
      rw [← hscreen, ← screen_emulatorAfter, hsince'.read]
      rfl
    rw [hclient, hpane]
  constructor
  · intro hseamless u
    have hrun : Ends tok width colors p.parser seq p.scanner.held u p := by
      refine ends_of_snapshot hsince hsnap fun q hparser hwaiting hq => ?_
      rw [← List.nil_append u]
      apply ends_chunk hq hwaiting
      apply processReplying_isSome hwidth
      rw [hparser]
      exact hfits
    obtain ⟨events, p', hrun, halong, hstopped, hsince'⟩ := hrun
    exact (hends hstopped hsince').mp (hseamless events p' hrun halong hstopped)
  · intro hall events p' hrun halong hstopped
    obtain ⟨u, hsince'⟩ : ∃ u, Since tok width p.parser seq p.scanner.held u p' :=
      run_invariant_along (fun q => ∃ u, Since tok width p.parser seq p.scanner.held u q)
        (fun q e q' ⟨u, hq⟩ hraw hstep => ⟨_, since_step hq hraw hstep⟩) ⟨[], hsince⟩ halong hrun
    exact (hends hstopped hsince').mpr (hall u)

/-! ## What tells the client from the pane -/

section

variable {size : Size} {cap : ℕ} {p : Parser σ} {screen : Screen}

/-- A letter that is not the last character, which the client prints. -/
theorem told_by_letter (hwidth : WidthLaw width) (hspells : Spells tok)
    (hfits : ScreenFits False size cap screen)
    (hdeaf : ∀ b, Letter b → ∀ a ∈ (p.advance tok [b]).2, Unprinted a) :
    ∃ u, screenAfter width screen ((Parser.primed tok screen).advance tok u).2 ≠
      screenAfter width screen (p.advance tok u).2 := by
  obtain ⟨b, hb, hother⟩ : ∃ b, Letter b ∧ Char.ofNat b.toNat ≠ screen.lastBase := by
    by_cases hq : Char.ofNat (0x51 : UInt8).toNat = screen.lastBase
    · refine ⟨0x56, Or.inr rfl, ?_⟩
      rw [← hq]
      decide
    · exact ⟨0x51, Or.inl rfl, hq⟩
  refine ⟨[b], fun hsame => ?_⟩
  have hprimed : ((Parser.primed tok screen).advance tok [b]).2 = [.print (Char.ofNat b.toNat)] := by
    have hplain : [b].contains 0xc2 = false := by
      obtain rfl | rfl := hb
      · rfl
      · rfl
    rw [advance_eq]
    show (tok.advanceAll tok.start (Parser.rewrite false [b]).1).2 = _
    rw [rewrite_fast hplain, tok.advanceAll_singleton]
    exact hspells.letters b hb
  obtain ⟨t, ht, -⟩ := yields_screenAfter hwidth hfits (p.advance tok [b]).2
  have hkept := lastBase_screenAfter (hdeaf b hb) ht
  rw [hprimed, ht, screenAfter_singleton] at hsame
  obtain ⟨r, hr, rfl⟩ := Option.map_eq_some_iff.mp hsame
  rw [lastBase_letter hb hr] at hkept
  exact hother hkept

/-- The last byte of a character that the pane has the first bytes of. -/
theorem told_by_character (hwidth : WidthLaw width) (htells : WidthTells width)
    (hfits : ScreenFits False size cap screen) {c : Char} (bytes : List UInt8)
    (hc : 0xa0 ≤ c.toNat) (hother : c ≠ Char.ofNat 0xfffd)
    (hprimed : ∃ before, ((Parser.primed tok screen).advance tok bytes).2 =
      before ++ [.print (Char.ofNat 0xfffd)])
    (hpane : ∃ before, (p.advance tok bytes).2 = before ++ [.print c]) :
    ∃ u, screenAfter width screen ((Parser.primed tok screen).advance tok u).2 ≠
      screenAfter width screen (p.advance tok u).2 := by
  obtain ⟨before, hprimed⟩ := hprimed
  obtain ⟨before', hpane⟩ := hpane
  refine ⟨bytes, fun hsame => ?_⟩
  obtain ⟨t, ht, -⟩ := yields_screenAfter hwidth hfits (p.advance tok bytes).2
  rw [ht] at hsame
  rw [hprimed] at hsame
  rw [hpane] at ht
  obtain ⟨s, calls, hreplaced⟩ := exists_print_of_screenAfter hsame
  obtain ⟨s', calls', hprinted⟩ := exists_print_of_screenAfter ht
  have hlast : lastCluster t = replaced := lastCluster_replacement htells hreplaced
  exact lastCluster_ne_replaced htells hc hother hprinted hlast

/-- INTERNAL: An emulator that is not at rest is told from one that is. -/
theorem rests_of_untold (hwidth : WidthLaw width) (htells : WidthTells width)
    (hspells : Spells tok) (hfits : ScreenFits False size cap screen) {w : List UInt8}
    (hread : p.parser = tok.after w)
    (hall : ∀ u, screenAfter width screen ((Parser.primed tok screen).advance tok u).2 =
      screenAfter width screen (p.advance tok u).2) :
    p.pendingC2 = false ∧ AtRest tok p.parser := by
  have huntold : ¬ ∃ u, screenAfter width screen ((Parser.primed tok screen).advance tok u).2 ≠
      screenAfter width screen (p.advance tok u).2 := fun ⟨u, hu⟩ => hu (hall u)
  have hacts : ∀ bytes, bytes.contains 0xc2 = false →
      ((Parser.primed tok screen).advance tok bytes).2 = (tok.advanceAll tok.start bytes).2 ∧
      (p.pendingC2 = false → (p.advance tok bytes).2 = (tok.advanceAll p.parser bytes).2) := by
    intro bytes hbytes
    constructor
    · rw [advance_eq]
      show (tok.advanceAll tok.start (Parser.rewrite false bytes).1).2 = _
      rw [rewrite_fast hbytes]
    · intro hpending
      rw [advance_eq, hpending]
      dsimp only
      rw [rewrite_fast hbytes]
  cases hpending : p.pendingC2 with
  | false =>
      refine ⟨rfl, ?_⟩
      have hplain : ∀ bytes, bytes.contains 0xc2 = false →
          (p.advance tok bytes).2 = (tok.advanceAll p.parser bytes).2 :=
        fun bytes hbytes => (hacts bytes hbytes).2 hpending
      rw [hread] at hplain ⊢
      obtain hrest | hdeaf | ⟨bytes, c, hbytes, hc, hother, hpane, hprimed⟩ := hspells.rest w
      · exact hrest
      · refine absurd (told_by_letter hwidth hspells hfits fun b hb => ?_) huntold
        have hone : [b].contains 0xc2 = false := by
          obtain rfl | rfl := hb
          · rfl
          · rfl
        rw [hplain _ hone, tok.advanceAll_singleton]
        exact hdeaf b hb
      · refine absurd (told_by_character hwidth htells hfits bytes hc hother ?_ ?_) huntold
        · rw [(hacts bytes hbytes).1]
          exact hprimed
        · rw [hplain bytes hbytes]
          exact hpane
  | true =>
      have hlead : ∀ b, rewriteC1 true b = ([0xc2, b], false) →
          (p.advance tok [b]).2 = (tok.advanceAll (tok.after w) [0xc2, b]).2 := by
        intro b hb
        rw [advance_eq, hpending, hread, rewrite_singleton, hb]
      obtain hdeaf | hpane := hspells.lead w
      · refine absurd (told_by_letter hwidth hspells hfits fun b hb => ?_) huntold
        rw [hlead b (by obtain rfl | rfl := hb <;> rfl)]
        exact hdeaf b hb
      · have hprimed : ((Parser.primed tok screen).advance tok [0xa9]).2 =
            [.print (Char.ofNat 0xfffd)] := by
          rw [(hacts [0xa9] rfl).1, tok.advanceAll_singleton]
          exact hspells.stray
        refine absurd (told_by_character (c := Char.ofNat 0xa9) hwidth htells hfits [0xa9]
          (by decide) (by decide) ⟨[], hprimed⟩ ?_) huntold
        rw [hlead 0xa9 rfl]
        exact hpane

end

end

/-! ## Two snapshots -/

theorem widthTells_ascii : WidthTells Vt.asciiWidth where
  replacement := rfl
  isSome := by
    intro c hc
    unfold Vt.asciiWidth
    rw [if_neg (by omega)]
    rfl

end Tymux.Analysis
