import Tymux.Analysis.Vt.BlankAttrs
import Tymux.Analysis.Vt.Representation

/-!
# Hyperlinks keep their target

What a cell's link should be is said by a second emulator. It has no table: every OSC 8 that opens
a link gets a stamp of its own, which is never used again and never changed, and the pen, and with
it every cell drawn, carries the stamp. The emulator of the source shows the same cells with other
indices, and an index that is not 0 stands in its table for the link that the stamp was given for.
-/

set_option autoImplicit false

namespace Tymux.Analysis.Vt

open Tymux.Lib Tymux.Model Tymux.Model.Vt

/-! ## What an OSC 8 opens -/

/-- The link that an OSC 8 opens; none if it only ends the open one.
SRC: screen.rs:878-910 -/
def linkOf (params uri : List UInt8) : Option (String × String) :=
  if uri.isEmpty then none
  else
    match String.fromUTF8? ⟨uri.toArray⟩, String.fromUTF8? ⟨params.toArray⟩ with
    | some uri, some params =>
      let id := ((params.splitOn ":").findSome? fun kv =>
        if kv.startsWith "id=" then some ((kv.drop 3).toString) else none).getD ""
      if maxUriBytes < uri.utf8ByteSize ∨ maxLinkIdBytes < id.utf8ByteSize ∨
          uri.toList.any Screen.isControl ∨ id.toList.any Screen.isControl then none
      else some (uri, id)
    | _, _ => none

/-- The link that is opened by the parameters of an OSC 8, the first of which is the 8.
SRC: perform.rs:237-246 -/
def openedBy (params : List (List UInt8)) : Option (String × String) :=
  if maxOscParams ≤ params.length then none
  else match params.tail with
    | linkParams :: u :: us => linkOf linkParams (Screen.joinParams (u :: us))
    | _ => none

/-- The open link, if there is one, is ended. -/
def endLink (s : Screen) : Screen := { s with lastClusterLive := false, attrs.hyperlink := 0 }

theorem osc8_eq (s : Screen) (params uri : List UInt8) :
    s.osc8 params uri = match linkOf params uri with
      | some link => s.breakRep.linkTo link
      | none => some (endLink s) := by
  unfold Screen.osc8 linkOf
  dsimp only
  split_ifs with hempty
  · rfl
  · generalize String.fromUTF8? ⟨uri.toArray⟩ = decodedUri
    generalize String.fromUTF8? ⟨params.toArray⟩ = decodedParams
    match decodedUri, decodedParams with
    | none, _ => rfl
    | some _, none => rfl
    | some uri, some params =>
        dsimp only
        split_ifs with hrefused
        · rfl
        · rfl

theorem oscDispatch_link {s : Screen} {params : List (List UInt8)} (bel : Bool)
    (hlink : params.head? = some [0x38]) :
    s.oscDispatch params bel = Screen.quiet (match openedBy params with
      | some link => s.breakRep.linkTo link
      | none => some (endLink s)) := by
  cases params with
  | nil => cases hlink
  | cons first rest =>
      rw [List.head?_cons, Option.some_inj] at hlink
      subst hlink
      have hended : s.osc8 [] [] = some (endLink s) := rfl
      have hother : ∀ (b : UInt8) (c : Prop), b ≠ 0x38 → ¬ (([0x38] : List UInt8) = [b] ∧ c) := by
        rintro b c hb ⟨heq, -⟩
        exact hb (List.cons.inj heq).1.symm
      unfold Screen.oscDispatch openedBy
      dsimp only
      rw [if_neg (hother 0x30 _ (by decide)), if_neg (hother 0x31 _ (by decide)),
        if_neg (hother 0x32 _ (by decide)), if_pos rfl, hended]
      split_ifs with hmany
      · rfl
      · match rest with
        | [] => rfl
        | [_] => rfl
        | linkParams :: u :: us => exact congrArg Screen.quiet (osc8_eq s linkParams _)

/-! ## The stamped emulator -/

/-- The second emulator, with the links opened so far: the stamp `n + 1` is the link number `n`. -/
structure Stamped where
  screen : Screen
  opened : List (String × String)

namespace Stamped

/-- The link that a stamp was given for. -/
def linkAt (t : Stamped) : ℕ → Option (String × String)
  | 0 => none
  | n + 1 => t.opened[n]?

/-- A link is opened under a new stamp, or the open one is ended. -/
def openLink (t : Stamped) : Option (String × String) → Stamped
  | none => { t with screen := endLink t.screen }
  | some link => {
      screen := { t.screen.breakRep with attrs.hyperlink := t.opened.length + 1 }
      opened := t.opened ++ [link] }

/-- An action. Only OSC 8 is not as in the source. -/
def perform (width : Char → Option ℕ) (t : Stamped) : Vt.Action → Option Stamped
  | .oscDispatch params bel =>
    if params.head? = some [0x38] then some (t.openLink (openedBy params))
    else (t.screen.oscDispatch params bel).map fun r => { t with screen := r.1 }
  | a => (t.screen.perform width a).map fun r => { t with screen := r.1 }

end Stamped

/-! ## Two emulators that show the same -/

/-- The guise of a screen with the indices relabelled by `φ`. -/
def guise (φ : Relabelling) (s : Screen) : Guise where
  labels := φ
  mainFreed := 0
  alternateFreed := 0
  hyperlinks := s.hyperlinks
  compactSkip := s.compactSkip
  compactDelay := s.compactDelay
  compactFreedMark := s.compactFreedMark

/-- Indices above `n` become 0. -/
def upTo (n : ℕ) : Relabelling where
  link i := if i ≤ n then i else 0
  link_zero := by rw [if_pos (Nat.zero_le n)]

/-- No stamp on the screen is above `n`. -/
def StampsUpTo (n : ℕ) (t : Screen) : Prop := dressed (guise (upTo n) t) t = t

/-- Apart from its table the emulator shows what the stamped one does, with the stamp `n` as
`φ.link n`, and where that is not 0 it stands for the link of the stamp. -/
structure Shows (φ : Relabelling) (s : Screen) (t : Stamped) : Prop where
  same : s = dressed (guise φ s) t.screen
  links : ∀ n, φ.link n ≠ 0 → ∃ l, t.linkAt n = some l ∧ s.hyperlink (φ.link n) = some l
  stamps : StampsUpTo t.opened.length t.screen
  unlinked : Unlinked s

/-- A control that is blind to the guise of the screen. -/
def Blind (F : Screen → Option Screen) : Prop :=
  ∀ γ s, F (dressed γ s) = (F s).map (dressed γ)

section

variable {φ : Relabelling} {s s' : Screen} {t : Stamped} {F : Screen → Option Screen}

theorem StampsUpTo.blind {n : ℕ} {t t' : Screen} (h : StampsUpTo n t) (hF : Blind F)
    (ht : F t = some t') : StampsUpTo n t' := by
  have hkept := hF (guise (upTo n) t) t
  rw [h, ht, Option.map_some, Option.some_inj] at hkept
  have hguise : guise (upTo n) t' = guise (upTo n) t := by
    rw [hkept]
    rfl
  unfold StampsUpTo
  rw [hguise]
  exact hkept.symm

/-- A blind control does the same to both emulators. -/
theorem Shows.blind (h : Shows φ s t) (hF : Blind F) (hU : ∀ s, Unlinked s → Unlinks (F s))
    (hs : F s = some s') :
    ∃ u, F t.screen = some u ∧ Shows φ s' { t with screen := u } := by
  have hboth := hF (guise φ s) t.screen
  rw [← h.same, hs] at hboth
  obtain ⟨u, hu, hdressed⟩ := Option.map_eq_some_iff.mp hboth.symm
  have hguise : guise φ s' = guise φ s := by
    rw [← hdressed]
    rfl
  have htable : s'.hyperlinks = s.hyperlinks := congrArg Guise.hyperlinks hguise
  refine ⟨u, hu, ?_, ?_, h.stamps.blind hF hu, hU s h.unlinked s' hs⟩
  · rw [hguise]
    exact hdressed.symm
  · intro n hn
    obtain ⟨l, hl, hindex⟩ := h.links n hn
    refine ⟨l, hl, ?_⟩
    unfold Screen.hyperlink at hindex ⊢
    rw [htable]
    exact hindex

/-- The indices as they are, with the rows freed so far taken out of both grids. -/
theorem eq_dressed_unfreed (s : Screen) :
    s = dressed { guise ⟨id, rfl⟩ s with
        mainFreed := s.grid.freedRows, alternateFreed := s.alternateGrid.freedRows }
      { s with
        grid := { s.grid with freedRows := 0 }
        alternateGrid := { s.alternateGrid with freedRows := 0 } } := by
  have hgrid : ∀ g : Grid, relabelGrid ⟨id, rfl⟩ g.freedRows { g with freedRows := 0 } = g := by
    intro g
    have hid := relabelGrid_eq_self (φ := ⟨id, rfl⟩) (g := { g with freedRows := 0 })
      ⟨fun _ _ _ _ => rfl, rfl⟩ g.freedRows
    rw [hid, Nat.zero_add]
  unfold dressed guise
  simp only [hgrid]
  rfl

/-- A blind control leaves the table alone and frees rows, if anything. -/
theorem blind_kept (hF : Blind F) (hs : F s = some s') :
    s'.hyperlinks = s.hyperlinks ∧ s'.compactFreedMark = s.compactFreedMark ∧
      s.freedRows ≤ s'.freedRows := by
  rw [eq_dressed_unfreed s, hF] at hs
  obtain ⟨u, -, rfl⟩ := Option.map_eq_some_iff.mp hs
  refine ⟨rfl, rfl, ?_⟩
  show s.grid.freedRows + s.alternateGrid.freedRows ≤
    u.grid.freedRows + s.grid.freedRows + (u.alternateGrid.freedRows + s.alternateGrid.freedRows)
  omega

/-! ### Dressing twice, and not at all -/

theorem dressed_guise (γ : Guise) (ψ : Relabelling) (s t : Screen) :
    dressed γ (dressed (guise ψ s) t) = dressed { γ with labels := γ.labels.comp ψ } t := by
  have hgrid := relabelGrid_comp γ.labels ψ γ.mainFreed t.grid
  have halternate := relabelGrid_comp γ.labels ψ γ.alternateFreed t.alternateGrid
  unfold dressed guise
  simp only [hgrid, halternate]
  rfl

theorem dressed_eq_self (hmain : FixesGrid φ s.grid) (halt : FixesGrid φ s.alternateGrid)
    (hpen : φ.link s.attrs.hyperlink = s.attrs.hyperlink)
    (hsaved : φ.link s.savedAttrs.hyperlink = s.savedAttrs.hyperlink) :
    dressed (guise φ s) s = s := by
  have hgrid := relabelGrid_eq_self hmain 0
  have halternate := relabelGrid_eq_self halt 0
  unfold dressed guise
  simp only [hgrid, halternate, relabelAttrs_eq_self hpen, relabelAttrs_eq_self hsaved]
  rfl

/-- Only the stamps that occur matter. -/
theorem StampsUpTo.dressed_congr {n : ℕ} {t : Screen} (h : StampsUpTo n t) {γ : Guise}
    {ψ : Relabelling} (hψ : ∀ i ≤ n, ψ.link i = γ.labels.link i) :
    dressed { γ with labels := ψ } t = dressed γ t := by
  have hcomp : ψ.comp (upTo n) = γ.labels.comp (upTo n) := by
    refine Relabelling.ext fun i => ?_
    show ψ.link (if i ≤ n then i else 0) = γ.labels.link (if i ≤ n then i else 0)
    split_ifs with hi
    · exact hψ i hi
    · rw [ψ.link_zero, γ.labels.link_zero]
  have hself := h
  unfold StampsUpTo at hself
  calc dressed { γ with labels := ψ } t
      = dressed { γ with labels := ψ } (dressed (guise (upTo n) t) t) := by rw [hself]
    _ = dressed { γ with labels := γ.labels.comp (upTo n) } t := by rw [dressed_guise, hcomp]
    _ = dressed γ (dressed (guise (upTo n) t) t) := (dressed_guise γ (upTo n) t t).symm
    _ = dressed γ t := by rw [hself]

theorem StampsUpTo.mono {m n : ℕ} {t : Screen} (h : StampsUpTo m t) (hle : m ≤ n) :
    StampsUpTo n t := by
  have hcongr : dressed (guise (upTo n) t) t = dressed (guise (upTo m) t) t :=
    h.dressed_congr (γ := guise (upTo m) t) (ψ := upTo n) fun i hi => by
      show (if i ≤ n then i else 0) = if i ≤ m then i else 0
      rw [if_pos (hi.trans hle), if_pos hi]
  exact hcongr.trans h

/-! ### The full reset -/

theorem perform_reset (width : Char → Option ℕ) {a : Vt.Action} (ha : IsReset a) :
    s.perform width a = Screen.quiet s.ris := by
  match a, ha with
  | .escDispatch [] b, hb =>
      replace hb : Char.ofNat b.toNat = 'c' := hb
      show s.breakRep.escFinal b = _
      unfold Screen.escFinal
      rw [hb]
      rfl

theorem fixes_new {size : Size} {cap : ℕ} (φ : Relabelling) (hs : Screen.new size cap = some s) :
    dressed (guise φ s) s = s := by
  have hnew : ∀ n g, Grid.new size n = some g →
      g.rows = [] ∧ g.scrollback = [] ∧ g.blankAttrs = {} := by
    intro n g hg
    obtain ⟨bottom, -, hg⟩ := Option.bind_eq_some_iff.mp hg
    rw [← Option.some_inj.mp hg]
    exact ⟨rfl, rfl, rfl⟩
  have hfixed : ∀ n g, Grid.new size n = some g → FixesGrid φ g := by
    intro n g hg
    obtain ⟨hrows, hback, hblank⟩ := hnew n g hg
    refine ⟨?_, ?_⟩
    · rw [hrows, hback]
      exact fun row hrow => absurd hrow List.not_mem_nil
    · rw [hblank]
      exact φ.link_zero
  obtain ⟨g, hg, hs⟩ := Option.bind_eq_some_iff.mp hs
  obtain ⟨g', hg', hs⟩ := Option.bind_eq_some_iff.mp hs
  rw [← Option.some_inj.mp hs]
  refine dressed_eq_self ?_ (hfixed 0 g' hg') φ.link_zero φ.link_zero
  obtain ⟨hrows, hback, hblank⟩ := hnew cap g hg
  show FixesGrid φ g.allocateRows
  unfold Grid.allocateRows
  rw [hrows, if_pos List.isEmpty_nil]
  refine ⟨?_, ?_⟩
  · rw [hback, List.append_nil]
    intro row hrow c hc
    rw [List.eq_of_mem_replicate hrow] at hc
    rw [List.eq_of_mem_replicate hc]
    exact φ.link_zero
  · rw [hblank]
    exact φ.link_zero

/-- A screen that is new shows no stamp. -/
theorem shows_new {size : Size} {cap : ℕ} (hs : Screen.new size cap = some s)
    (opened : List (String × String)) : Shows ⟨fun _ => 0, rfl⟩ s ⟨s, opened⟩ := by
  refine ⟨(fixes_new _ hs).symm, ?_, fixes_new _ hs, unlinks_new size cap s hs⟩
  exact fun n hn => absurd rfl hn

/-! ### Another table -/

/-- The indices of the screen are relabelled, to stand in another table for what they stood for. -/
theorem Shows.relabel (h : Shows φ s t) {γ : Guise} (hfreed : γ.mainFreed = 0 ∧ γ.alternateFreed = 0)
    (hs : s' = dressed γ s)
    (hlink : ∀ i, γ.labels.link i ≠ 0 → s'.hyperlink (γ.labels.link i) = s.hyperlink i) :
    Shows (γ.labels.comp φ) s' t := by
  refine ⟨?_, ?_, h.stamps, ?_⟩
  · have hguise : guise (γ.labels.comp φ) s' = { γ with labels := γ.labels.comp φ } := by
      rw [hs]
      obtain ⟨hmain, halt⟩ := hfreed
      cases γ
      subst hmain halt
      rfl
    rw [hguise, ← dressed_guise γ φ s t.screen, ← h.same, hs]
  · intro n hn
    replace hn : γ.labels.link (φ.link n) ≠ 0 := hn
    have hold : φ.link n ≠ 0 := by
      intro hzero
      rw [hzero] at hn
      exact hn γ.labels.link_zero
    obtain ⟨l, hl, hindex⟩ := h.links n hold
    exact ⟨l, hl, (hlink _ hn).trans hindex⟩
  · obtain ⟨hmain, halt⟩ := h.unlinked
    rw [hs]
    refine ⟨?_, ?_⟩
    · show γ.labels.link s.grid.blankAttrs.hyperlink = 0
      rw [hmain, γ.labels.link_zero]
    · show γ.labels.link s.alternateGrid.blankAttrs.hyperlink = 0
      rw [halt, γ.labels.link_zero]

end

/-! ## Compaction -/

/-- The indices that the screen refers to. -/
def refs (s : Screen) : List ℕ :=
  s.attrs.hyperlink :: s.savedAttrs.hyperlink :: (Screen.cellLinks s.grid ++ Screen.cellLinks s.alternateGrid)

/-- The place of an index among those that are kept, from 1 on. -/
def renumbered (kept : List ℕ) (i : ℕ) : ℕ := if i ∈ kept then kept.idxOf i + 1 else 0

theorem getElem?_kept {α : Type} (table : List α) {kept : List ℕ}
    (hbound : ∀ j ∈ kept, j - 1 < table.length) {i : ℕ} (hi : i ∈ kept) :
    (kept.filterMap fun j => table[j - 1]?)[kept.idxOf i]? = table[i - 1]? := by
  induction kept with
  | nil => cases hi
  | cons k kept ih =>
      obtain ⟨x, hx⟩ : ∃ x, table[k - 1]? = some x :=
        ⟨_, List.getElem?_eq_getElem (hbound k (List.mem_cons_self ..))⟩
      rw [List.filterMap_cons, hx]
      by_cases heq : k = i
      · subst heq
        rw [List.idxOf_cons_self, hx]
        rfl
      · have htail : i ∈ kept := (List.mem_cons.mp hi).resolve_left (Ne.symm heq)
        rw [List.idxOf_cons_ne _ heq]
        exact ih (fun j hj => hbound j (List.mem_cons_of_mem _ hj)) htail

section

variable {φ : Relabelling} {s : Screen} {t : Stamped}

theorem dressed_eq_self_of_refs (hunlinked : Unlinked s) (h : ∀ i ∈ refs s, φ.link i = i) :
    dressed (guise φ s) s = s := by
  have hcells : ∀ g : Grid, g.blankAttrs.hyperlink = 0 →
      (∀ i ∈ Screen.cellLinks g, φ.link i = i) → FixesGrid φ g := by
    intro g hblank hg
    refine ⟨fun row hrow c hc => hg _ ?_, ?_⟩
    · exact List.mem_flatMap.mpr ⟨row, hrow, List.mem_map.mpr ⟨c, hc, rfl⟩⟩
    · rw [hblank, φ.link_zero]
  unfold refs at h
  simp only [List.forall_mem_cons, List.forall_mem_append] at h
  obtain ⟨hpen, hsaved, hmain, halt⟩ := h
  exact dressed_eq_self (hcells _ hunlinked.1 hmain) (hcells _ hunlinked.2 halt) hpen hsaved

/-- Every index that the screen refers to is 0 or stands for a link. -/
theorem Shows.refs_le (h : Shows φ s t) : ∀ i ∈ refs s, i ≤ s.hyperlinks.length := by
  have hlinked : ∀ i ∈ refs s, ∃ n, i = φ.link n := by
    have hgrid : ∀ k g, ∀ i ∈ Screen.cellLinks (relabelGrid φ k g), ∃ n, i = φ.link n := by
      intro k g i hi
      obtain ⟨row, hrow, hi⟩ := List.mem_flatMap.mp hi
      obtain ⟨c, hc, rfl⟩ := List.mem_map.mp hi
      replace hrow : row ∈ g.rows.map (relabelRow φ) ++ g.scrollback.map (relabelRow φ) := hrow
      rw [← List.map_append] at hrow
      obtain ⟨row, -, rfl⟩ := List.mem_map.mp hrow
      obtain ⟨c, -, rfl⟩ := List.mem_map.mp hc
      exact ⟨_, rfl⟩
    rw [h.same]
    unfold refs
    simp only [List.forall_mem_cons, List.forall_mem_append]
    exact ⟨⟨_, rfl⟩, ⟨_, rfl⟩, hgrid 0 _, hgrid 0 _⟩
  intro i hi
  obtain ⟨n, rfl⟩ := hlinked i hi
  rcases Nat.eq_zero_or_pos (φ.link n) with hzero | hpos
  · rw [hzero]
    exact Nat.zero_le _
  · obtain ⟨l, -, hl⟩ := h.links n (Nat.pos_iff_ne_zero.mp hpos)
    unfold Screen.hyperlink at hl
    rw [checkedSub_of_le hpos] at hl
    have hlt := (List.getElem?_eq_some_iff.mp hl).1
    omega

theorem mapLinks_eq {ρ : Relabelling} {g : Grid} (hblank : g.blankAttrs.hyperlink = 0) :
    Screen.mapLinks ρ.link g = relabelGrid ρ 0 g := by
  have hattrs : relabelAttrs ρ g.blankAttrs = g.blankAttrs := by
    apply relabelAttrs_eq_self
    rw [hblank, ρ.link_zero]
  unfold relabelGrid
  rw [hattrs]
  rfl

/-- The screen after a compaction that keeps the indices of `kept`. -/
def keeping (s : Screen) (kept : List ℕ) : Screen :=
  { s with
    hyperlinks := kept.filterMap fun i => s.hyperlinks[i - 1]?
    attrs.hyperlink := renumbered kept s.attrs.hyperlink
    savedAttrs.hyperlink := renumbered kept s.savedAttrs.hyperlink
    grid := Screen.mapLinks (renumbered kept) s.grid
    alternateGrid := Screen.mapLinks (renumbered kept) s.alternateGrid }

theorem compactHyperlinks_eq (s : Screen) (indices : List ℕ)
    (hindices : indices = (List.range s.hyperlinks.length).map (· + 1)) :
    s.compactHyperlinks = if indices.all fun i => !(refs s).contains i
      then ({ s with hyperlinks := [] }, true)
      else if indices.all fun i => (refs s).contains i then (s, false)
      else (keeping s (indices.filter fun i => (refs s).contains i), true) := by
  subst hindices
  rfl

theorem keeping_dressed (hunlinked : Unlinked s) (kept : List ℕ)
    (hmem : ∀ i ∈ kept, 0 < i ∧ i ≤ s.hyperlinks.length) :
    ∃ ρ : Relabelling, keeping s kept = dressed { guise ρ s with
        hyperlinks := kept.filterMap fun i => s.hyperlinks[i - 1]? } s ∧
      ∀ i, ρ.link i ≠ 0 → (keeping s kept).hyperlink (ρ.link i) = s.hyperlink i := by
  have hzero : renumbered kept 0 = 0 := if_neg fun h => absurd (hmem 0 h).1 (lt_irrefl 0)
  refine ⟨⟨renumbered kept, hzero⟩, ?_, ?_⟩
  · have hmain := mapLinks_eq (ρ := ⟨renumbered kept, hzero⟩) hunlinked.1
    have halt := mapLinks_eq (ρ := ⟨renumbered kept, hzero⟩) hunlinked.2
    unfold dressed guise keeping
    rw [← hmain, ← halt]
    rfl
  · intro i hi
    have hin : i ∈ kept := by
      by_contra hout
      exact hi (if_neg hout)
    show (keeping s kept).hyperlink (renumbered kept i) = s.hyperlink i
    unfold Screen.hyperlink renumbered
    rw [if_pos hin, checkedSub_of_le (Nat.succ_pos _), checkedSub_of_le (hmem i hin).1]
    refine getElem?_kept s.hyperlinks (fun j hj => ?_) hin
    have hj := hmem j hj
    omega

/-- INTERNAL: What is left of the table stands under the new indices for what it stood for.
SRC: screen.rs:954-1001 -/
theorem compactHyperlinks_dressed (hunlinked : Unlinked s)
    (hrefs : ∀ i ∈ refs s, i ≤ s.hyperlinks.length) :
    ∃ ρ table, s.compactHyperlinks.1 = dressed { guise ρ s with hyperlinks := table } s ∧
      table.length ≤ s.hyperlinks.length ∧
      ∀ i, ρ.link i ≠ 0 → s.compactHyperlinks.1.hyperlink (ρ.link i) = s.hyperlink i := by
  have hindices : ∀ i, i ∈ (List.range s.hyperlinks.length).map (· + 1) ↔
      0 < i ∧ i ≤ s.hyperlinks.length := by
    intro i
    rw [List.mem_map]
    constructor
    · rintro ⟨j, hj, rfl⟩
      exact ⟨Nat.succ_pos j, List.mem_range.mp hj⟩
    · rintro ⟨hpos, hle⟩
      exact ⟨i - 1, List.mem_range.mpr (by omega), by omega⟩
  have hlen : ((List.range s.hyperlinks.length).map (· + 1)).length = s.hyperlinks.length := by
    rw [List.length_map, List.length_range]
  have hcompact := compactHyperlinks_eq s _ rfl
  generalize (List.range s.hyperlinks.length).map (· + 1) = indices at hindices hlen hcompact
  rw [hcompact]
  split_ifs with hnone hall
  · -- no index is in use, so all of them are 0
    have hzero : ∀ i ∈ refs s, 0 = i := by
      intro i hi
      by_contra hne
      have hfree := List.all_eq_true.mp hnone i ((hindices i).mpr ⟨by omega, hrefs i hi⟩)
      rw [List.contains_iff_mem.mpr hi] at hfree
      exact Bool.false_ne_true hfree
    refine ⟨⟨fun _ => 0, rfl⟩, [], ?_, Nat.zero_le _, fun i hi => absurd rfl hi⟩
    have hself := dressed_eq_self_of_refs (φ := ⟨fun _ => 0, rfl⟩) hunlinked hzero
    exact congrArg (fun u : Screen => { u with hyperlinks := [] }) hself.symm
  · refine ⟨⟨id, rfl⟩, s.hyperlinks, ?_, le_refl _, fun i _ => rfl⟩
    exact (dressed_eq_self_of_refs hunlinked fun i _ => rfl).symm
  · obtain ⟨ρ, hsame, hlinks⟩ := keeping_dressed hunlinked
      (indices.filter fun i => (refs s).contains i)
      fun i hi => (hindices i).mp (List.mem_of_mem_filter hi)
    refine ⟨ρ, _, hsame, ?_, hlinks⟩
    rw [← hlen]
    exact (List.length_filterMap_le _ _).trans (List.length_filter_le _ _)

end

end Tymux.Analysis.Vt
