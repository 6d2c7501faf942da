import Tymux.Analysis.SearchText
import Tymux.Analysis.Vt.RestingResize
import Tymux.Analysis.Vt.RestingScreens
import Tymux.Lib.Ensures

/-!
# Reads change nothing

A snapshot at an offset and a search scroll the emulator and so pad rows of its scrollback for good.
Two emulators that differ only in this padding answer every read alike, and output and resizes keep
them so: a run with reads in it ends as the run without them.
-/

set_option autoImplicit false

namespace Tymux.Analysis

open Tymux.Lib Tymux.Model Tymux.Model.Vt Tymux.Analysis.Vt

/-! ## What is done with the emulator of a pane -/

/-- A chunk of output, a resize, or one of the two reads. -/
inductive PaneCall where
  | output (bytes : List UInt8)
  | resize (rows cols : ℕ)
  | snapshotAt (offset : ℕ)
  | search (pattern : List Char) (startOffset : ℕ)

namespace PaneCall

/-- SRC: pane.rs:1066-1112 -/
def isRead : PaneCall → Bool
  | .output _ => false
  | .resize _ _ => false
  | .snapshotAt _ => true
  | .search _ _ => true

/-- SRC: parser.rs:50-76, pane.rs:960-985, pane.rs:1066-1112 -/
def run {σ : Type} (tok : Tokenizer σ) (width : Char → Option ℕ) (p : Parser σ) :
    PaneCall → Option (Parser σ)
  | .output bytes => (p.process tok width bytes).map Prod.fst
  | .resize rows cols => (p.screen.setSize rows cols).map fun screen => { p with screen }
  | .snapshotAt offset => (snapshotAtOffset p.screen offset).map fun r => { p with screen := r.1 }
  | .search pattern start => (searchScrollback p.screen pattern start).map fun r =>
      { p with screen := r.1 }

/-- A resize is to a size that a pane can have. -/
def Admissible : PaneCall → Prop
  | .resize rows cols => (Call.setSize rows cols).Admissible
  | _ => True

end PaneCall

/-- The two emulators answer every read alike, and have their cursor in one place. -/
def AnswersAlike (s t : Screen) : Prop :=
  (∀ offset, ∃ s' t' snapshot, snapshotAtOffset s offset = some (s', snapshot) ∧
    snapshotAtOffset t offset = some (t', snapshot)) ∧
  (∀ pattern start, ∃ s' t' answer, searchScrollback s pattern start = some (s', answer) ∧
    searchScrollback t pattern start = some (t', answer)) ∧
  s.currentGrid.pos = t.currentGrid.pos

/-! ## Answers -/

section

variable {s t : Screen}

theorem topCells_congr (h : restScreen s = restScreen t) (offset : ℕ) :
    topCells s offset = topCells t offset := by
  unfold topCells
  rw [viewAt_congr (currentGrid_congr h)]

theorem length_scrollback_congr (h : restScreen s = restScreen t) :
    s.currentGrid.scrollback.length = t.currentGrid.scrollback.length := by
  have hrest : ∀ g : Grid, (restGrid g).scrollback.length = g.scrollback.length :=
    fun g => List.length_map _
  rw [← hrest, currentGrid_congr h, hrest]

theorem cellSnapshot_congr (h : s.hyperlinks = t.hyperlinks) :
    cellSnapshot s = cellSnapshot t := by
  have hlink : linkEntry s = linkEntry t := by
    funext index table
    unfold linkEntry Screen.hyperlink
    rw [h]
  funext cell
  unfold cellSnapshot
  rw [hlink]

/-- INTERNAL: A snapshot shows the rows in view, and nothing else of the scrollback.
SRC: pane.rs:1258-1343 -/
theorem snapshotFromScreen_congr (h : restScreen s = restScreen t)
    (hview : s.currentGrid.visibleRows = t.currentGrid.visibleRows) :
    snapshotFromScreen s = snapshotFromScreen t := by
  obtain ⟨-, hsize, hpos, -, -, -, htop, hbottom, horigin, -, -, -, -, -, htabs⟩ :=
    (Grid.mk.injEq ..).mp (currentGrid_congr h)
  obtain ⟨-, -, -, -, hcharsets, -, -, -, -, hlinks, -, -, -, hstyle, hmodes, hmouse, hencoding⟩ :=
    (Screen.mk.injEq ..).mp h
  unfold snapshotFromScreen rowSnapshot terminalModes scrollRegion
  dsimp only
  rw [cellSnapshot_congr hlinks, hview, hsize, hpos, htop, hbottom, horigin, htabs, hcharsets, hstyle,
    hmodes, hmouse, hencoding]

/-- INTERNAL: One snapshot at an offset, which leaves the emulator as it was up to its padding.
SRC: pane.rs:1066-1081 -/
theorem snapshotAtOffset_alike {size : Size} {cap : ℕ} (hs : ScreenFits False size cap s)
    (h : restScreen s = restScreen t) (offset : ℕ) :
    ∃ s' t' snapshot, snapshotAtOffset s offset = some (s', snapshot) ∧
      snapshotAtOffset t offset = some (t', snapshot) ∧ restScreen s' = restScreen s := by
  obtain ⟨u, hu, hrest, -, hview⟩ := setScrollbackScreen_rest s offset
  obtain ⟨v, hv, hrest', -, hview'⟩ := setScrollbackScreen_rest t offset
  have hsame : restScreen u = restScreen v := hrest.trans (h.trans hrest'.symm)
  have hvisible : u.currentGrid.visibleRows = v.currentGrid.visibleRows := by
    rw [hview, hview', viewAt_congr (currentGrid_congr h)]
  have hfits : ScreenFits False size cap u := (yields_setScrollbackScreen hs offset).of_eq hu
  obtain ⟨visible, hrows, hlen, hwide⟩ := view_fits hfits.current rfl
  obtain ⟨snapshot, hsnapshot, -⟩ := print_snapshot hrows hlen fun row hrow => (hwide row hrow).1
  have hsnapshot' := (snapshotFromScreen_congr hsame hvisible).symm.trans hsnapshot
  obtain ⟨s', hs', hback, -⟩ := setScrollbackScreen_rest u 0
  obtain ⟨t', ht', -⟩ := setScrollbackScreen_rest v 0
  refine ⟨s', t', snapshot, ?_, ?_, hback.trans hrest⟩
  · unfold snapshotAtOffset
    rw [hu, Option.bind_eq_bind, Option.bind_some, hsnapshot, Option.bind_eq_bind,
      Option.bind_some, hs']
    rfl
  · unfold snapshotAtOffset
    rw [hv, Option.bind_eq_bind, Option.bind_some, hsnapshot', Option.bind_eq_bind,
      Option.bind_some, ht']
    rfl

/-- INTERNAL: One search, likewise.
SRC: pane.rs:1083-1112 -/
theorem searchScrollback_alike {size : Size} {cap : ℕ} (hs : ScreenFits False size cap s)
    (ht : ScreenFits False size cap t) (h : restScreen s = restScreen t) (pattern : List Char)
    (start : ℕ) :
    ∃ s' t' answer, searchScrollback s pattern start = some (s', answer) ∧
      searchScrollback t pattern start = some (t', answer) ∧ restScreen s' = restScreen s := by
  by_cases hpattern : pattern = []
  · subst hpattern
    exact ⟨s, t, none, rfl, rfl, rfl⟩
  obtain ⟨s', hrest, hs'⟩ := searchScrollback_reads hs hpattern start
  obtain ⟨t', -, ht'⟩ := searchScrollback_reads ht hpattern start
  simp only [← topCells_congr h, ← length_scrollback_congr h] at ht'
  exact ⟨s', t', _, hs', ht', hrest⟩

/-! ## Resizes -/

theorem setSize_congr {b b' : Frame} {g g' : Grid} (hg : Fits b g) (hg' : Fits b' g')
    (h : restGrid g = restGrid g') (size : Size) (reflow : Bool) :
    (g.setSize size reflow).map restGrid = (g'.setSize size reflow).map restGrid := by
  have hends : ∀ {b : Frame} {g : Grid}, Fits b g → ∀ row ∈ g.scrollback, ¬ EndsWide row :=
    fun hfits row hrow => not_endsWide_of_paired (hfits.history_fit row hrow).2
  rw [← setSize_respects (hends hg), h, setSize_respects (hends hg')]

/-- INTERNAL: Only the grid of the primary screen is rewrapped.
SRC: screen.rs:220-224 -/
theorem screenSetSize_congr {size : Size} {cap : ℕ} (hs : ScreenFits False size cap s)
    (ht : ScreenFits False size cap t) (h : restScreen s = restScreen t) (rows cols : ℕ) :
    (s.setSize rows cols).map restScreen = (t.setSize rows cols).map restScreen := by
  have hmain := setSize_congr hs.main ht.main (congrArg Screen.grid h) ⟨rows, cols⟩ true
  have halt := setSize_congr hs.alternate ht.alternate (congrArg Screen.alternateGrid h)
    ⟨rows, cols⟩ false
  unfold Screen.setSize
  refine bind_agree hmain fun g g' hg => bind_agree halt fun a a' ha => congrArg some ?_
  have hrest : ∀ (u : Screen) (g a : Grid), restScreen { u with grid := g, alternateGrid := a } =
      { restScreen u with grid := restGrid g, alternateGrid := restGrid a } := fun _ _ _ => rfl
  rw [hrest, hrest, hg, ha]
  exact congrArg (fun u : Screen => { u with grid := restGrid g, alternateGrid := restGrid a }) h

/-! ## Both reads keep the screen in shape -/

theorem fits_setScrollback {size : Size} {cap : ℕ} (h : ScreenFits False size cap s) (offset : ℕ) :
    Ensures (s.setScrollback offset) (ScreenFits False size cap) := fun _ =>
  (yields_setScrollbackScreen h offset).of_eq

theorem fits_snapshotAtOffset {size : Size} {cap : ℕ} (h : ScreenFits False size cap s)
    (offset : ℕ) : Ensures (snapshotAtOffset s offset) fun r => ScreenFits False size cap r.1 := by
  refine (fits_setScrollback h offset).bind fun s hs => ensures_bind fun snapshot => ?_
  exact (fits_setScrollback hs 0).bind fun s hs => ensures_some hs

theorem fits_searchOffsets {size : Size} {cap : ℕ} (h : ScreenFits False size cap s)
    (pattern : List Char) (cols : ℕ) (offsets : List ℕ) :
    Ensures (searchOffsets pattern cols s offsets) fun r => ScreenFits False size cap r.1 := by
  induction offsets generalizing s with
  | nil => exact ensures_some h
  | cons offset offsets ih =>
      refine (fits_setScrollback h offset).bind fun s hs => ensures_bind fun line => ?_
      exact Ensures.ite (ensures_some hs) (ih hs)

theorem fits_searchScrollback {size : Size} {cap : ℕ} (h : ScreenFits False size cap s)
    (pattern : List Char) (start : ℕ) :
    Ensures (searchScrollback s pattern start) fun r => ScreenFits False size cap r.1 := by
  refine Ensures.ite (ensures_some h) ?_
  refine (fits_setScrollback h u64Max).bind fun s hs => ?_
  refine (fits_searchOffsets hs pattern _ _).bind fun r hr => ?_
  exact (fits_setScrollback hr 0).bind fun s hs => ensures_some hs

end

/-! ## Runs -/

section

variable {σ : Type} {tok : Tokenizer σ} {width : Char → Option ℕ} {cap : ℕ} {p q : Parser σ}

/-- The emulators are the same up to the padding of the scrollback and their view. -/
structure SameAtRest (cap : ℕ) (p q : Parser σ) : Prop where
  parser : p.parser = q.parser
  pending : p.pendingC2 = q.pendingC2
  rest : restScreen p.screen = restScreen q.screen
  fits : ∃ size, ScreenFits False size cap p.screen ∧ ScreenFits False size cap q.screen

theorem SameAtRest.answers (h : SameAtRest cap p q) : AnswersAlike p.screen q.screen := by
  obtain ⟨size, hp, hq⟩ := h.fits
  refine ⟨fun offset => ?_, fun pattern start => ?_, ?_⟩
  · obtain ⟨s', t', snapshot, hs, ht, -⟩ := snapshotAtOffset_alike hp h.rest offset
    exact ⟨s', t', snapshot, hs, ht⟩
  · obtain ⟨s', t', answer, hs, ht, -⟩ := searchScrollback_alike hp hq h.rest pattern start
    exact ⟨s', t', answer, hs, ht⟩
  · obtain ⟨-, -, hpos, -⟩ := (Grid.mk.injEq ..).mp (currentGrid_congr h.rest)
    exact hpos

variable (width) in
theorem performAll_respects (actions : List Vt.Action) :
    Respects restScreen restPair fun s => s.performAll width actions := by
  intro s
  unfold Screen.performAll
  refine foldlM_respects (φ := restPair) restPair_idem (fun a r => ?_) actions (s, [])
  exact bind_respects (perform_respects width a r.1) fun next =>
    congrArg some (restPair_idem (next.1, r.2 ++ next.2))

variable (tok width) in
/-- A read of the first emulator. -/
theorem SameAtRest.read (h : SameAtRest cap p q) {call : PaneCall} (hread : call.isRead = true) :
    Yields (call.run tok width p) fun p' => SameAtRest cap p' q := by
  obtain ⟨size, hp, hq⟩ := h.fits
  cases call with
  | output bytes => cases hread
  | resize rows cols => cases hread
  | snapshotAt offset =>
      obtain ⟨s', -, snapshot, hs, -, hrest⟩ := snapshotAtOffset_alike hp h.rest offset
      have hfits := fits_snapshotAtOffset hp offset _ hs
      refine ⟨{ p with screen := s' }, ?_, h.parser, h.pending, hrest.trans h.rest, size, hfits, hq⟩
      show (snapshotAtOffset p.screen offset).map _ = _
      rw [hs, Option.map_some]
  | search pattern start =>
      obtain ⟨s', -, answer, hs, -, hrest⟩ := searchScrollback_alike hp hq h.rest pattern start
      have hfits := fits_searchScrollback hp pattern start _ hs
      refine ⟨{ p with screen := s' }, ?_, h.parser, h.pending, hrest.trans h.rest, size, hfits, hq⟩
      show (searchScrollback p.screen pattern start).map _ = _
      rw [hs, Option.map_some]

/-- A chunk of output, for both. -/
theorem SameAtRest.output (hwidth : WidthLaw width) (h : SameAtRest cap p q) (bytes : List UInt8) :
    ∃ p' q', (PaneCall.output bytes).run tok width p = some p' ∧
      (PaneCall.output bytes).run tok width q = some q' ∧ SameAtRest cap p' q' := by
  obtain ⟨parser, pendingC2, s⟩ := p
  obtain ⟨parser', pendingC2', t⟩ := q
  obtain rfl : parser = parser' := h.parser
  obtain rfl : pendingC2 = pendingC2' := h.pending
  obtain ⟨size, hs, ht⟩ := h.fits
  let out := if !pendingC2 && !bytes.contains 0xc2 then (bytes, false)
    else Parser.rewrite pendingC2 bytes
  let r := tok.advanceAll parser out.1
  have hrun : ∀ u : Screen, (PaneCall.output bytes).run tok width ⟨parser, pendingC2, u⟩ =
      (u.performAll width r.2 >>= fun next => some (Parser.mk r.1 out.2 next.1, next.2)).map
        Prod.fst := fun _ => rfl
  obtain ⟨next, hnext, hfits⟩ := yields_performAll hwidth hs r.2 False.elim
  obtain ⟨next', hnext', hfits'⟩ := yields_performAll hwidth ht r.2 False.elim
  have hsame := (performAll_respects width r.2).congr h.rest
  rw [hnext, hnext', Option.map_some, Option.map_some, Option.some_inj] at hsame
  refine ⟨⟨r.1, out.2, next.1⟩, ⟨r.1, out.2, next'.1⟩, ?_, ?_, rfl, rfl, congrArg Prod.fst hsame,
    size, hfits, hfits'⟩
  · rw [hrun, hnext]
    rfl
  · rw [hrun, hnext']
    rfl

/-- A resize, for both. No row of a scrollback ends in the first half of a wide character. -/
theorem SameAtRest.resize (hcap : 1 ≤ cap) (h : SameAtRest cap p q) {rows cols : ℕ}
    (hsize : (Call.setSize rows cols).Admissible) :
    ∃ p' q', (PaneCall.resize rows cols).run tok width p = some p' ∧
      (PaneCall.resize rows cols).run tok width q = some q' ∧ SameAtRest cap p' q' := by
  obtain ⟨size, hp, hq⟩ := h.fits
  have hmax : cols ≤ u16Max := hsize.2.2.2.trans (by decide)
  obtain ⟨s, hs, hfits⟩ := yields_screenSetSize hp hcap hsize.1 hsize.2.2.1 hmax
  obtain ⟨t, ht, hfits'⟩ := yields_screenSetSize hq hcap hsize.1 hsize.2.2.1 hmax
  refine ⟨{ p with screen := s }, { q with screen := t }, ?_, ?_, h.parser, h.pending, ?_, _, hfits,
    hfits'⟩
  · show (p.screen.setSize rows cols).map _ = _
    rw [hs, Option.map_some]
  · show (q.screen.setSize rows cols).map _ = _
    rw [ht, Option.map_some]
  have hsame := screenSetSize_congr hp hq h.rest rows cols
  rw [hs, ht, Option.map_some, Option.map_some, Option.some_inj] at hsame
  exact hsame

variable (tok) in
theorem SameAtRest.both (hwidth : WidthLaw width) (hcap : 1 ≤ cap) (h : SameAtRest cap p q)
    {call : PaneCall} (hcall : call.Admissible) (hread : call.isRead = false) :
    ∃ p' q', call.run tok width p = some p' ∧ call.run tok width q = some q' ∧
      SameAtRest cap p' q' := by
  cases call with
  | output bytes => exact h.output hwidth bytes
  | resize rows cols => exact h.resize hcap hcall
  | snapshotAt offset => cases hread
  | search pattern start => cases hread

variable (tok) in
/-- INTERNAL: The run with the reads and the run without them, from emulators that are the same. -/
theorem SameAtRest.runs (hwidth : WidthLaw width) (hcap : 1 ≤ cap) (h : SameAtRest cap p q)
    (calls : List PaneCall) (hcalls : ∀ call ∈ calls, call.Admissible) :
    ∃ p' q', calls.foldlM (PaneCall.run tok width) p = some p' ∧
      (calls.filter fun call => !call.isRead).foldlM (PaneCall.run tok width) q = some q' ∧
      SameAtRest cap p' q' := by
  induction calls generalizing p q with
  | nil => exact ⟨p, q, rfl, rfl, h⟩
  | cons call calls ih =>
      obtain ⟨hcall, hcalls⟩ := List.forall_mem_cons.mp hcalls
      cases hread : call.isRead with
      | true =>
          obtain ⟨p', hp', h'⟩ := h.read tok width hread
          obtain ⟨p'', q'', hp'', hq'', hsame⟩ := ih h' hcalls
          refine ⟨p'', q'', ?_, ?_, hsame⟩
          · rw [List.foldlM_cons, hp']
            exact hp''
          · rw [List.filter_cons_of_neg (by rw [hread]; decide)]
            exact hq''
      | false =>
          obtain ⟨p', q', hp', hq', h'⟩ := h.both tok hwidth hcap hcall hread
          obtain ⟨p'', q'', hp'', hq'', hsame⟩ := ih h' hcalls
          refine ⟨p'', q'', ?_, ?_, hsame⟩
          · rw [List.foldlM_cons, hp']
            exact hp''
          · rw [List.filter_cons_of_pos (by rw [hread]; rfl), List.foldlM_cons, hq']
            exact hq''

end

end Tymux.Analysis
