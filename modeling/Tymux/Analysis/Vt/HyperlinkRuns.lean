import Tymux.Analysis.Vt.Hyperlinks

/-!
# Hyperlinks in whole runs

Every call keeps what the two emulators have in common. The table is never longer than it may be,
and the rows freed when the last futile scan was made are never more than those freed by now.
-/

set_option autoImplicit false

namespace Tymux.Analysis.Vt

open Tymux.Lib Tymux.Model Tymux.Model.Vt

/-- The emulator shows what the stamped one does, and its table and its backoff are in order. -/
structure Linked (s : Screen) (t : Stamped) : Prop where
  shown : ∃ φ, Shows φ s t
  room : s.hyperlinks.length ≤ maxHyperlinks
  mark : s.compactFreedMark ≤ s.freedRows

section

variable {φ : Relabelling} {s s' : Screen} {t : Stamped} {F : Screen → Option Screen}

theorem Linked.blind (h : Linked s t) (hF : Blind F) (hU : ∀ s, Unlinked s → Unlinks (F s))
    (hs : F s = some s') : ∃ u, F t.screen = some u ∧ Linked s' { t with screen := u } := by
  obtain ⟨φ, hshown⟩ := h.shown
  obtain ⟨u, hu, hkept⟩ := hshown.blind hF hU hs
  obtain ⟨htable, hmark, hfreed⟩ := blind_kept hF hs
  refine ⟨u, hu, ⟨φ, hkept⟩, ?_, ?_⟩
  · rw [htable]
    exact h.room
  · rw [hmark]
    exact h.mark.trans hfreed

/-! ## Room in the table -/

theorem Linked.backoff (h : Linked s t) (skip delay : ℕ) :
    Linked { s with compactSkip := skip, compactDelay := delay } t := by
  obtain ⟨φ, hshown⟩ := h.shown
  have hsame := congrArg
    (fun u : Screen => { u with compactSkip := skip, compactDelay := delay }) hshown.same
  exact ⟨⟨φ, hsame, hshown.links, hshown.stamps, hshown.unlinked⟩, h.room, h.mark⟩

/-- The rows freed by now are noted after a futile scan. -/
theorem Linked.rearm (h : Linked s t) (skip delay : ℕ) :
    Linked { s with
      compactSkip := skip, compactDelay := delay, compactFreedMark := s.freedRows } t := by
  obtain ⟨φ, hshown⟩ := h.shown
  have hsame := congrArg (fun u : Screen => { u with
    compactSkip := skip, compactDelay := delay, compactFreedMark := s.freedRows }) hshown.same
  exact ⟨⟨φ, hsame, hshown.links, hshown.stamps, hshown.unlinked⟩, h.room, le_refl s.freedRows⟩

theorem Linked.compactHyperlinks (h : Linked s t) : Linked s.compactHyperlinks.1 t := by
  obtain ⟨φ, hshown⟩ := h.shown
  obtain ⟨ρ, table, hsame, hlen, hlinks⟩ :=
    compactHyperlinks_dressed hshown.unlinked hshown.refs_le
  refine ⟨⟨ρ.comp φ, hshown.relabel ⟨rfl, rfl⟩ hsame hlinks⟩, ?_, ?_⟩
  · rw [hsame]
    exact hlen.trans h.room
  · rw [hsame]
    exact h.mark

/-- INTERNAL: A full table is compacted.
SRC: screen.rs:912-927 -/
theorem Linked.makeRoom (h : Linked s t) (hs : s.makeRoom = some s') : Linked s' t := by
  unfold Screen.makeRoom at hs
  obtain ⟨freed, -, hs⟩ := Option.bind_eq_some_iff.mp hs
  have hcurrent : Linked (if minRearmRows ≤ freed then
      { s with compactSkip := 0, compactDelay := 0 } else s) t := by
    split_ifs
    · exact h.backoff 0 0
    · exact h
  dsimp only at hs
  generalize (if minRearmRows ≤ freed then
    { s with compactSkip := 0, compactDelay := 0 } else s : Screen) = r at hs hcurrent
  split_ifs at hs
  · rw [← Option.some_inj.mp hs]
    exact hcurrent.backoff _ _
  · have hcompact := hcurrent.compactHyperlinks
    match hr : r.compactHyperlinks with
    | (r', true) =>
        rw [hr] at hs hcompact
        rw [← Option.some_inj.mp hs]
        exact hcompact.backoff _ 0
    | (r', false) =>
        rw [hr] at hs hcompact
        rw [← Option.some_inj.mp hs]
        exact hcompact.rearm _ _

/-! ## The next link -/

theorem hyperlink_append {index : ℕ} {l : String × String} (more : List (String × String))
    (hl : s.hyperlink index = some l) :
    ({ s with hyperlinks := s.hyperlinks ++ more } : Screen).hyperlink index = some l := by
  unfold Screen.hyperlink at hl ⊢
  obtain ⟨i, hi, hl⟩ := Option.bind_eq_some_iff.mp hl
  rw [hi]
  exact (List.getElem?_append_left (List.getElem?_eq_some_iff.mp hl).1).trans hl

theorem Stamped.linkAt_append {n : ℕ} {l : String × String} (u : Screen)
    (more : List (String × String)) (hl : t.linkAt n = some l) :
    (Stamped.mk u (t.opened ++ more)).linkAt n = some l := by
  cases n with
  | zero => cases hl
  | succ n => exact (List.getElem?_append_left (List.getElem?_eq_some_iff.mp hl).1).trans hl

/-- The stamp of the next link shows as the index `j`. -/
def withNext (φ : Relabelling) (t : Stamped) (j : ℕ) : Relabelling where
  link n := if n = t.opened.length + 1 then j else φ.link n
  link_zero := (if_neg (Nat.succ_ne_zero _).symm).trans φ.link_zero

/-- A link is opened under its index in the table, or under none. -/
theorem Shows.openLink (h : Shows φ s t) (link : String × String) (more : List (String × String))
    {j : ℕ} (hj : j ≠ 0 →
      ({ s with hyperlinks := s.hyperlinks ++ more } : Screen).hyperlink j = some link) :
    Shows (withNext φ t j)
      { s with hyperlinks := s.hyperlinks ++ more, attrs.hyperlink := j }
      { screen := { t.screen with attrs.hyperlink := t.opened.length + 1 }
        opened := t.opened ++ [link] } := by
  have hnext : (withNext φ t j).link (t.opened.length + 1) = j := if_pos rfl
  refine ⟨?_, ?_, ?_, h.unlinked⟩
  · have hsame : dressed { guise φ s with labels := withNext φ t j } t.screen = s := by
      refine (h.stamps.dressed_congr (γ := guise φ s) fun i hi => ?_).trans h.same.symm
      exact if_neg (Nat.ne_of_lt (Nat.lt_succ_of_le hi))
    have hopened := congrArg (fun u : Screen =>
      { u with hyperlinks := s.hyperlinks ++ more, attrs.hyperlink := j }) hsame
    rw [← hopened]
    unfold dressed guise
    dsimp only
    unfold relabelAttrs
    dsimp only
    rw [hnext]
  · intro n hn
    by_cases hlast : n = t.opened.length + 1
    · subst hlast
      rw [hnext] at hn ⊢
      exact ⟨link, List.getElem?_concat_length, hj hn⟩
    · have hold : (withNext φ t j).link n = φ.link n := if_neg hlast
      rw [hold] at hn ⊢
      obtain ⟨l, hl, hindex⟩ := h.links n hn
      exact ⟨l, Stamped.linkAt_append _ _ hl, hyperlink_append more hindex⟩
  · have hmono := h.stamps.mono (Nat.le_succ t.opened.length)
    have hopened := congrArg (fun u : Screen =>
      { u with attrs.hyperlink := t.opened.length + 1 }) hmono
    have hlast : (upTo (t.opened.length + 1)).link (t.opened.length + 1) = t.opened.length + 1 :=
      if_pos (le_refl _)
    show StampsUpTo (t.opened ++ [link]).length { t.screen with
      attrs.hyperlink := t.opened.length + 1 }
    rw [List.length_append, List.length_singleton]
    unfold StampsUpTo
    conv_rhs => rw [← hopened]
    unfold dressed guise
    dsimp only
    unfold relabelAttrs
    dsimp only
    rw [hlast]

theorem Linked.openLink (h : Linked s t) (link : String × String) (more : List (String × String))
    {j : ℕ} (hmore : (s.hyperlinks ++ more).length ≤ maxHyperlinks) (hj : j ≠ 0 →
      ({ s with hyperlinks := s.hyperlinks ++ more } : Screen).hyperlink j = some link) :
    Linked { s with hyperlinks := s.hyperlinks ++ more, attrs.hyperlink := j }
      { screen := { t.screen with attrs.hyperlink := t.opened.length + 1 }
        opened := t.opened ++ [link] } := by
  obtain ⟨φ, hshown⟩ := h.shown
  exact ⟨⟨_, hshown.openLink link more hj⟩, hmore, h.mark⟩

/-- A link that is in the table is used where it is. -/
theorem Linked.reuse (h : Linked s t) {link : String × String} {i : ℕ}
    (hi : s.hyperlinks.idxOf? link = some i) :
    Linked { s with attrs.hyperlink := i + 1 }
      { screen := { t.screen with attrs.hyperlink := t.opened.length + 1 }
        opened := t.opened ++ [link] } := by
  obtain ⟨hlt, hlink, -⟩ := List.idxOf?_eq_some_iff.mp hi
  have hopened := h.openLink link [] (j := i + 1) (by rw [List.append_nil]; exact h.room)
    fun _ => by
      rw [List.append_nil]
      exact (List.getElem?_eq_getElem hlt).trans (congrArg some hlink)
  rw [List.append_nil] at hopened
  exact hopened

/-- INTERNAL: The link is found, entered, or left out for want of room.
SRC: screen.rs:901-945 -/
theorem Linked.linkTo (h : Linked s t) {link : String × String} (hs : s.linkTo link = some s') :
    Linked s' { screen := { t.screen with attrs.hyperlink := t.opened.length + 1 }
                opened := t.opened ++ [link] } := by
  unfold Screen.linkTo at hs
  cases hfound : s.hyperlinks.idxOf? link with
  | some i =>
      rw [hfound] at hs
      rw [← Option.some_inj.mp hs]
      exact h.reuse hfound
  | none =>
      rw [hfound] at hs
      obtain ⟨r, hr, hs⟩ := Option.bind_eq_some_iff.mp hs
      have hroom : Linked r t := by
        split_ifs at hr
        · exact h.makeRoom hr
        · rw [← Option.some_inj.mp hr]
          exact h
      split_ifs at hs with hfull
      · rw [← Option.some_inj.mp hs]
        have hopened := hroom.openLink link [] (j := 0)
          (by rw [List.append_nil]; exact hroom.room) fun hne => absurd rfl hne
        rw [List.append_nil] at hopened
        exact hopened
      · cases hfound : r.hyperlinks.idxOf? link with
        | some i =>
            rw [hfound] at hs
            rw [← Option.some_inj.mp hs]
            exact hroom.reuse hfound
        | none =>
            rw [hfound] at hs
            rw [← Option.some_inj.mp hs]
            refine hroom.openLink link [link] ?_ fun _ => List.getElem?_concat_length
            rw [List.length_append, List.length_singleton]
            omega

/-! ## Actions and calls -/

theorem Stamped.perform_eq (t : Stamped) (width : Char → Option ℕ) {a : Vt.Action}
    (ha : ¬ IsLink a) :
    t.perform width a = (t.screen.perform width a).map fun r => { t with screen := r.1 } := by
  cases a with
  | oscDispatch params bel => exact if_neg ha
  | _ => rfl

/-- An OSC 8 opens its link or ends the open one. -/
theorem Linked.link (h : Linked s t) {opened : Option (String × String)}
    (hs : (match opened with
      | some link => s.breakRep.linkTo link
      | none => some (endLink s)) = some s') : Linked s' (t.openLink opened) := by
  cases opened with
  | some link =>
      obtain ⟨u, hu, hbroken⟩ := h.blind (F := fun s => some s.breakRep) (fun γ s => rfl)
        (fun s hunlinked => ensures_some hunlinked) rfl
      rw [← Option.some_inj.mp hu] at hbroken
      exact hbroken.linkTo hs
  | none =>
      have hend : Blind fun s => some (endLink s) := by
        intro γ s
        have hzero : relabelAttrs γ.labels { s.attrs with hyperlink := 0 } =
            { relabelAttrs γ.labels s.attrs with hyperlink := 0 } :=
          relabelAttrs_eq_self γ.labels.link_zero
        unfold endLink dressed
        rw [Option.map_some, hzero]
      obtain ⟨u, hu, hended⟩ := h.blind hend (fun s hunlinked => ensures_some hunlinked) hs
      rw [← Option.some_inj.mp hu] at hended
      exact hended

theorem linked_new {size : Size} {cap : ℕ} (hs : Screen.new size cap = some s)
    (opened : List (String × String)) : Linked s ⟨s, opened⟩ := by
  refine ⟨⟨_, shows_new hs opened⟩, ?_, ?_⟩
  all_goals
    obtain ⟨g, -, hs⟩ := Option.bind_eq_some_iff.mp hs
    obtain ⟨g', -, hs⟩ := Option.bind_eq_some_iff.mp hs
    rw [← Option.some_inj.mp hs]
    exact Nat.zero_le _

/-- Both emulators are reset to the same new screen. -/
theorem Linked.reset (h : Linked s t) (hs : s.ris = some s') :
    t.screen.ris = some s' ∧ Linked s' { t with screen := s' } := by
  obtain ⟨φ, hshown⟩ := h.shown
  have hris : s.ris = t.screen.ris := by
    rw [hshown.same]
    rfl
  exact ⟨hris.symm.trans hs, linked_new hs t.opened⟩

/-- INTERNAL: One action.
SRC: perform.rs:26-262 -/
theorem Linked.perform (h : Linked s t) (width : Char → Option ℕ) {a : Vt.Action}
    {calls : List Callback} (hs : s.perform width a = some (s', calls)) :
    ∃ t', t.perform width a = some t' ∧ Linked s' t' := by
  by_cases hlink : IsLink a
  · cases a with
    | oscDispatch params bel =>
        refine ⟨t.openLink (openedBy params), if_pos hlink, ?_⟩
        have hdispatch := (oscDispatch_link bel hlink).symm.trans hs
        obtain ⟨r, hr, heq⟩ := Option.map_eq_some_iff.mp hdispatch
        obtain ⟨rfl, -⟩ := Prod.mk.inj heq
        exact h.link hr
    | _ => exact absurd hlink id
  · rw [Stamped.perform_eq t width hlink]
    by_cases hreset : IsReset a
    · rw [perform_reset width hreset] at hs ⊢
      obtain ⟨r, hr, heq⟩ := Option.map_eq_some_iff.mp hs
      obtain ⟨rfl, -⟩ := Prod.mk.inj heq
      obtain ⟨hris, hkept⟩ := h.reset hr
      rw [hris]
      exact ⟨_, rfl, hkept⟩
    · have hblind : Blind fun s => (s.perform width a).map Prod.fst := by
        intro γ s
        dsimp only
        rw [perform_dressed γ s width hlink hreset, Option.map_map, Option.map_map]
        rfl
      have hunlinks : ∀ s, Unlinked s → Unlinks ((s.perform width a).map Prod.fst) :=
        fun s hunlinked => Ensures.map (unlinks_perform hunlinked width a) fun _ hr => hr
      have hfst : (s.perform width a).map Prod.fst = some s' := by
        rw [hs]
        rfl
      obtain ⟨u, hu, hkept⟩ := h.blind hblind hunlinks hfst
      obtain ⟨r, hr, rfl⟩ := Option.map_eq_some_iff.mp hu
      rw [hr]
      exact ⟨_, rfl, hkept⟩

/-- INTERNAL: The actions of a chunk, one after the other.
SRC: perform.rs:26-262 -/
theorem Linked.performAll (h : Linked s t) (width : Char → Option ℕ) {actions : List Vt.Action}
    {calls : List Callback} (hs : s.performAll width actions = some (s', calls)) :
    ∃ t', actions.foldlM (Stamped.perform width) t = some t' ∧ Linked s' t' := by
  unfold Screen.performAll at hs
  generalize ([] : List Callback) = before at hs
  induction actions generalizing s t before with
  | nil =>
      obtain ⟨rfl, -⟩ := Prod.mk.inj (Option.some_inj.mp hs)
      exact ⟨t, rfl, h⟩
  | cons a actions ih =>
      rw [List.foldlM_cons] at hs
      obtain ⟨r, hr, hs⟩ := Option.bind_eq_some_iff.mp hs
      obtain ⟨next, hnext, heq⟩ := Option.bind_eq_some_iff.mp hr
      rw [← Option.some_inj.mp heq] at hs
      obtain ⟨u, hu, hkept⟩ := h.perform width hnext
      obtain ⟨t', ht', hlast⟩ := ih hkept _ hs
      refine ⟨t', ?_, hlast⟩
      rw [List.foldlM_cons, hu]
      exact ht'

end

/-- The stamped emulator behind the tokenizer. -/
structure StampedParser (σ : Type) where
  parser : σ
  pendingC2 : Bool
  stamped : Stamped

section

variable {σ : Type} (tok : Tokenizer σ) (width : Char → Option ℕ)

/-- The call of the source on the stamped emulator.
SRC: parser.rs:50-76, screen.rs:220-224, screen.rs:245-247 -/
def StampedParser.call (q : StampedParser σ) : Call → Option (StampedParser σ)
  | .process bytes => do
    let out := if !q.pendingC2 && !bytes.contains 0xc2 then (bytes, false)
      else Parser.rewrite q.pendingC2 bytes
    let r := tok.advanceAll q.parser out.1
    let stamped ← r.2.foldlM (Stamped.perform width) q.stamped
    return { parser := r.1, pendingC2 := out.2, stamped }
  | .setSize rows cols =>
    (q.stamped.screen.setSize rows cols).map fun screen => { q with stamped.screen := screen }
  | .setScrollback rows =>
    (q.stamped.screen.setScrollback rows).map fun screen => { q with stamped.screen := screen }

/-- The stamped emulator for a parser that is new. -/
def Parser.stamped (p : Parser σ) : StampedParser σ :=
  { parser := p.parser, pendingC2 := p.pendingC2, stamped := { screen := p.screen, opened := [] } }

/-- Both tokenizers are at the same place, and the screens are linked. -/
structure LinkedParser (p : Parser σ) (q : StampedParser σ) : Prop where
  parser : p.parser = q.parser
  pendingC2 : p.pendingC2 = q.pendingC2
  linked : Linked p.screen q.stamped

variable {tok width} {p p' : Parser σ} {q : StampedParser σ}

theorem LinkedParser.call (h : LinkedParser p q) {call : Call}
    (hp : call.run tok width p = some p') :
    ∃ q', q.call tok width call = some q' ∧ LinkedParser p' q' := by
  obtain ⟨parser, pendingC2, screen⟩ := p
  obtain ⟨rfl, rfl, hlinked⟩ := h
  cases call with
  | process bytes =>
      obtain ⟨r, hr, rfl⟩ := Option.map_eq_some_iff.mp hp
      unfold Parser.process at hr
      obtain ⟨next, hnext, hr⟩ := Option.bind_eq_some_iff.mp hr
      obtain ⟨t, ht, hkept⟩ := hlinked.performAll width hnext
      rw [← Option.some_inj.mp hr]
      unfold StampedParser.call
      dsimp only
      rw [ht]
      exact ⟨_, rfl, rfl, rfl, hkept⟩
  | setSize rows cols =>
      obtain ⟨r, hr, rfl⟩ := Option.map_eq_some_iff.mp hp
      obtain ⟨u, hu, hkept⟩ := hlinked.blind (fun γ s => setSize_dressed γ s rows cols)
        (fun s hunlinked => unlinks_setSize hunlinked rows cols) hr
      unfold StampedParser.call
      dsimp only
      rw [hu]
      exact ⟨_, rfl, rfl, rfl, hkept⟩
  | setScrollback rows =>
      obtain ⟨r, hr, rfl⟩ := Option.map_eq_some_iff.mp hp
      obtain ⟨u, hu, hkept⟩ := hlinked.blind (fun γ s => setScrollback_dressed γ s rows)
        (fun s hunlinked => unlinks_setScrollback hunlinked rows) hr
      unfold StampedParser.call
      dsimp only
      rw [hu]
      exact ⟨_, rfl, rfl, rfl, hkept⟩

theorem LinkedParser.calls (h : LinkedParser p q) {calls : List Call}
    (hp : calls.foldlM (Call.run tok width) p = some p') :
    ∃ q', calls.foldlM (StampedParser.call tok width) q = some q' ∧ LinkedParser p' q' := by
  induction calls generalizing p q with
  | nil =>
      rw [← Option.some_inj.mp hp]
      exact ⟨q, rfl, h⟩
  | cons call calls ih =>
      rw [List.foldlM_cons] at hp
      obtain ⟨next, hnext, hp⟩ := Option.bind_eq_some_iff.mp hp
      obtain ⟨r, hr, hkept⟩ := h.call hnext
      obtain ⟨q', hq', hlast⟩ := ih hkept hp
      refine ⟨q', ?_, hlast⟩
      rw [List.foldlM_cons, hr]
      exact hq'

end

/-! ## The links of the cells -/

section

variable (s : Screen) (t : Stamped)

/-- Apart from its link the cell is the one of the stamped emulator, and a link it has is the one
that the stamp was given for. -/
def CellLinked (c d : Cell) : Prop :=
  c = { d with attrs.hyperlink := c.attrs.hyperlink } ∧
    (c.attrs.hyperlink ≠ 0 → ∃ l, t.linkAt d.attrs.hyperlink = some l ∧
      s.hyperlink c.attrs.hyperlink = some l)

def RowLinked (row drawn : Row) : Prop :=
  List.Forall₂ (CellLinked s t) row.cells drawn.cells ∧ row.wrapped = drawn.wrapped

/-- Every cell that is stored has the link that was open when it was drawn, if it has one. -/
structure Resolves : Prop where
  grid : List.Forall₂ (RowLinked s t) (s.grid.scrollback ++ s.grid.rows)
    (t.screen.grid.scrollback ++ t.screen.grid.rows)
  alternateGrid : List.Forall₂ (RowLinked s t)
    (s.alternateGrid.scrollback ++ s.alternateGrid.rows)
    (t.screen.alternateGrid.scrollback ++ t.screen.alternateGrid.rows)

end

theorem Shows.resolves {φ : Relabelling} {s : Screen} {t : Stamped} (h : Shows φ s t) :
    Resolves s t := by
  have hcell : ∀ c, CellLinked s t (relabelCell φ c) c := fun c => ⟨rfl, h.links _⟩
  have hrow : ∀ row, RowLinked s t (relabelRow φ row) row := by
    refine fun row => ⟨?_, rfl⟩
    exact List.forall₂_map_left_iff.mpr (List.forall₂_same.mpr fun c _ => hcell c)
  have hrows : ∀ g : Grid, List.Forall₂ (RowLinked s t)
      ((relabelGrid φ 0 g).scrollback ++ (relabelGrid φ 0 g).rows) (g.scrollback ++ g.rows) := by
    intro g
    show List.Forall₂ _ (g.scrollback.map (relabelRow φ) ++ g.rows.map (relabelRow φ)) _
    rw [← List.map_append]
    exact List.forall₂_map_left_iff.mpr (List.forall₂_same.mpr fun row _ => hrow row)
  constructor
  case grid =>
    have hgrid : s.grid = relabelGrid φ 0 t.screen.grid := congrArg Screen.grid h.same
    rw [hgrid]
    exact hrows t.screen.grid
  case alternateGrid =>
    have hgrid : s.alternateGrid = relabelGrid φ 0 t.screen.alternateGrid :=
      congrArg Screen.alternateGrid h.same
    rw [hgrid]
    exact hrows t.screen.alternateGrid

/-! ## Every run -/

/-- **Links stay with their target.** After any calls, and in the middle of a chunk, every stored
cell that has a link has the one that was open when it was drawn. The table is not longer than it
may be, and the rows freed at the last futile scan are not more than those freed by now.
SRC: screen.rs:867-1001, grid.rs:87-107, grid.rs:612-633 -/
theorem hyperlinks_resolve {σ : Type} (tok : Tokenizer σ) (width : Char → Option ℕ)
    {rows cols cap : ℕ} {p₀ p : Parser σ} (hp₀ : Parser.new tok rows cols cap = some p₀)
    (calls : List Call) (hp : calls.foldlM (Call.run tok width) p₀ = some p)
    (actions : List Vt.Action) {s : Screen} {callbacks : List Callback}
    (hs : p.screen.performAll width actions = some (s, callbacks)) :
    ∃ q t, calls.foldlM (StampedParser.call tok width) (Parser.stamped p₀) = some q ∧
      actions.foldlM (Stamped.perform width) q.stamped = some t ∧ Resolves s t ∧
      s.hyperlinks.length ≤ maxHyperlinks ∧ s.compactFreedMark ≤ s.freedRows := by
  have hstart : LinkedParser p₀ (Parser.stamped p₀) := by
    obtain ⟨screen, hscreen, hp₀⟩ := Option.bind_eq_some_iff.mp hp₀
    rw [← Option.some_inj.mp hp₀]
    exact ⟨rfl, rfl, linked_new hscreen []⟩
  obtain ⟨q, hq, hlinked⟩ := hstart.calls hp
  obtain ⟨t, ht, hkept⟩ := hlinked.linked.performAll width hs
  obtain ⟨φ, hshown⟩ := hkept.shown
  exact ⟨q, t, hq, ht, hshown.resolves, hkept.room, hkept.mark⟩

/-- A link is opened, a cell is drawn with it, and the screen is made narrower. -/
theorem hyperlinks_resolve_drawn : ∃ p₀ p s callbacks,
    Parser.new asciiTokenizer 2 3 1 = some p₀ ∧
    [Call.process [0x61], .setSize 2 2].foldlM (Call.run asciiTokenizer asciiWidth) p₀ = some p ∧
    p.screen.performAll asciiWidth [.oscDispatch [[0x38], [], [0x62]] false, .print 'x'] =
      some (s, callbacks) ∧
    ∃ q t, [Call.process [0x61], .setSize 2 2].foldlM (StampedParser.call asciiTokenizer asciiWidth)
        (Parser.stamped p₀) = some q ∧
      [Action.oscDispatch [[0x38], [], [0x62]] false, .print 'x'].foldlM
        (Stamped.perform asciiWidth) q.stamped = some t ∧ Resolves s t ∧
      s.hyperlinks.length ≤ maxHyperlinks ∧ s.compactFreedMark ≤ s.freedRows := by
  have hnew : Yields (Screen.new ⟨2, 3⟩ 1) (ScreenFits False ⟨2, 3⟩ 1) :=
    yields_screenNew (by decide) (by decide) (by decide) 1
  obtain ⟨screen, hscreen, hfits⟩ := hnew
  have hp₀ : Parser.new asciiTokenizer 2 3 1 = some ⟨(), false, screen⟩ := by
    unfold Parser.new
    rw [hscreen]
    rfl
  have hcalls : ∀ call ∈ [Call.process [0x61], .setSize 2 2], call.Admissible := by
    simp [Call.Admissible, maxPaneRows, maxPaneCols]
  have hstart : ∃ size, ScreenFits False size 1 (Parser.mk () false screen).screen := ⟨_, hfits⟩
  obtain ⟨p, hp, size, hkept⟩ := yields_foldlM_along _
    (fun p call hI hcall => yields_call widthLaw_ascii (le_refl 1) hI call hcall False.elim) _
    hstart (along_of_forall (Call.run asciiTokenizer asciiWidth) hcalls)
  obtain ⟨⟨s, callbacks⟩, hs, -⟩ := yields_performAll widthLaw_ascii hkept
    [.oscDispatch [[0x38], [], [0x62]] false, .print 'x'] False.elim
  exact ⟨_, p, s, callbacks, hp₀, hp, hs, hyperlinks_resolve asciiTokenizer asciiWidth hp₀ _ hp _ hs⟩

end Tymux.Analysis.Vt
