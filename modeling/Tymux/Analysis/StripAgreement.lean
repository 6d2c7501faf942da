import Tymux.Analysis.Scanning
import Tymux.Analysis.Vte
import Mathlib.Data.List.Chain
import Mathlib.Data.List.TakeWhile

/-!
# The scanner strips what the emulator answers

The loop of the scanner against the walk: byte by byte in a sequence (`scanByte_spec`), and over
what it skips in the ground state, where no query ends (`Quiet`). Whatever the chunks, the
stripped output and the held bytes are the output with the answered queries cut out.
-/

set_option autoImplicit false

namespace Tymux.Analysis

open Tymux.Model.Vt Tymux.Model.TerminalQuery Tymux.Analysis.Vt Tymux.Lib

/-! ## The walk over many bytes -/

/-- The number of queries cut out. -/
def Cut.queries (c : Cut) : ℕ := c.pieces.countP fun piece =>
  match piece with
  | .text _ => false
  | .query _ _ _ _ => true

/-- No query ends in the bytes, when they come after `u`. -/
def Quiet {σ : Type} (tok : Tokenizer σ) : List UInt8 → List UInt8 → Prop
  | _, [] => True
  | u, b :: bs =>
    (∀ a ∈ (tok.advance (tok.after u) b).2, isQuery a = false) ∧ Quiet tok (u ++ [b]) bs

/-- The bytes that come after `u` take the cut to `c'`, each observed as the tokenizer reports
it. -/
def CutsTo {σ : Type} (tok : Tokenizer σ) (daemon : Bool) :
    List UInt8 → Cut → List UInt8 → Cut → Prop
  | _, c, [], c' => c' = c
  | u, c, b :: bs, c' => ∃ executed replies, Observed tok u b executed replies ∧
      CutsTo tok daemon (u ++ [b]) (c.step daemon b executed replies) bs c'

section

variable {σ : Type} {tok : Tokenizer σ} {width : Char → Option ℕ} {colors : Colors}
  {size : Size} {cap : ℕ} {u : List UInt8} {w : Walk σ}

theorem chunk_cons (daemon : Bool) (w : Walk σ) (b : UInt8) (bs : List UInt8) :
    w.chunk tok width colors daemon (b :: bs) =
      (w.step tok width colors daemon b).bind fun w' => w'.chunk tok width colors daemon bs :=
  List.foldlM_cons

theorem chunk_append (daemon : Bool) (w : Walk σ) (bs cs : List UInt8) :
    w.chunk tok width colors daemon (bs ++ cs) =
      (w.chunk tok width colors daemon bs).bind fun w' => w'.chunk tok width colors daemon cs :=
  List.foldlM_append

theorem pairFree_getLast {u : List UInt8} {b : UInt8} {rest : List UInt8}
    (h : List.IsChain PairFree (u ++ b :: rest)) : ∀ a, u.getLast? = some a → PairFree a b := by
  intro a ha
  obtain ⟨-, -, hlink⟩ := List.isChain_append.mp h
  exact hlink a ha b rfl

/-- A byte without a reply is appended. -/
theorem Cut.step_quiet (c : Cut) (daemon : Bool) (b : UInt8) (executed : List UInt8) :
    (∀ f : Piece → List UInt8, (∀ x, f (.text x) = x) →
      (c.step daemon b executed []).pieces.flatMap f ++ (c.step daemon b executed []).opened =
        c.pieces.flatMap f ++ c.opened ++ [b]) ∧
      (c.step daemon b executed []).queries = c.queries := by
  unfold Cut.step
  rw [if_pos rfl]
  split
  · constructor
    · intro f hf
      simp only [List.flatMap_append, List.flatMap_singleton, hf]
    · simp [Cut.queries]
  · constructor
    · intro f hf
      simp only [List.append_assoc]
    · rfl

theorem cutsTo_append {daemon : Bool} {c c' : Cut} (bs cs : List UInt8) :
    CutsTo tok daemon u c (bs ++ cs) c' ↔
      ∃ mid, CutsTo tok daemon u c bs mid ∧ CutsTo tok daemon (u ++ bs) mid cs c' := by
  induction bs generalizing u c with
  | nil => simp [CutsTo]
  | cons b bs ih =>
      simp only [List.cons_append, CutsTo, ih]
      constructor
      · rintro ⟨executed, replies, hobs, mid, hmid, hrest⟩
        refine ⟨mid, ⟨executed, replies, hobs, hmid⟩, ?_⟩
        rw [List.append_cons]
        exact hrest
      · rintro ⟨mid, ⟨executed, replies, hobs, hmid⟩, hrest⟩
        rw [List.append_cons] at hrest
        exact ⟨executed, replies, hobs, mid, hmid, hrest⟩

/-- INTERNAL: Over bytes in which no query ends the bytes are only appended. -/
theorem cutsTo_quiet {daemon : Bool} {c c' : Cut} {bs : List UInt8} (hquiet : Quiet tok u bs)
    (h : CutsTo tok daemon u c bs c') :
    (∀ f : Piece → List UInt8, (∀ x, f (.text x) = x) →
      c'.pieces.flatMap f ++ c'.opened = c.pieces.flatMap f ++ c.opened ++ bs) ∧
      c'.queries = c.queries := by
  induction bs generalizing u c with
  | nil =>
      have hsame : c' = c := h
      rw [hsame]
      exact ⟨fun f _ => (List.append_nil _).symm, rfl⟩
  | cons b bs ih =>
      obtain ⟨executed, replies, hobs, hrest⟩ := h
      have hreplies : replies = [] := hobs.replies.mpr hquiet.1
      subst hreplies
      obtain ⟨hviews, hcount⟩ := c.step_quiet daemon b executed
      obtain ⟨hviews', hcount'⟩ := ih hquiet.2 hrest
      refine ⟨fun f hf => ?_, hcount'.trans hcount⟩
      rw [hviews' f hf, hviews f hf, ← List.append_cons]

variable (colors) in
/-- INTERNAL: The walk gets over the bytes, and cuts what the tokenizer reports. -/
theorem walk_cuts (hlaw : Lawful tok) (hwidth : WidthLaw width) (daemon : Bool)
    (hwalked : Walked tok size cap u w) {bs : List UInt8}
    (hchain : List.IsChain PairFree (u ++ bs)) :
    ∃ w', w.chunk tok width colors daemon bs = some w' ∧ Walked tok size cap (u ++ bs) w' ∧
      CutsTo tok daemon u w.cut bs w'.cut := by
  induction bs generalizing u w with
  | nil =>
      refine ⟨w, rfl, ?_, rfl⟩
      rw [List.append_nil]
      exact hwalked
  | cons b bs ih =>
      obtain ⟨p, executed, replies, hobs, hstep, hnext⟩ :=
        walk_step colors hlaw hwidth hwalked (pairFree_getLast hchain) daemon
      rw [List.append_cons] at hchain ⊢
      obtain ⟨w', hchunk, hwalked', hcuts⟩ :=
        ih (hnext (w.cut.step daemon b executed replies)) hchain
      refine ⟨w', ?_, hwalked', executed, replies, hobs, hcuts⟩
      rw [chunk_cons, hstep]
      exact hchunk

/-! ## What the scanner skips -/

theorem quiet_append {bs cs : List UInt8} (h : Quiet tok u bs) (h' : Quiet tok (u ++ bs) cs) :
    Quiet tok u (bs ++ cs) := by
  induction bs generalizing u with
  | nil => simpa using h'
  | cons b bs ih =>
      refine ⟨h.1, ih h.2 ?_⟩
      rw [List.append_assoc]
      exact h'

/-- Text without an ESC leaves the phase calm. -/
theorem quiet_text (hlaw : Lawful tok) (hcalm : phaseOf u = .calm) {bs : List UInt8}
    (hbs : ∀ b ∈ bs, b ≠ 0x1b) : Quiet tok u bs ∧ phaseOf (u ++ bs) = .calm := by
  induction bs generalizing u with
  | nil =>
      rw [List.append_nil]
      exact ⟨trivial, hcalm⟩
  | cons b bs ih =>
      rw [List.forall_mem_cons] at hbs
      have hallowed := hlaw.allowed u b
      rw [hcalm] at hallowed
      have hnext : phaseOf (u ++ [b]) = .calm := by
        rw [phaseOf_append, hcalm, Phase.next_calm hbs.1]
      obtain ⟨hquiet, hphase⟩ := ih hnext hbs.2
      refine ⟨⟨fun a ha => not_isQuery_of_not_dispatches (hallowed a ha), hquiet⟩, ?_⟩
      rw [List.append_cons]
      exact hphase

/-- The parameters of a CSI. -/
theorem quiet_params (hlaw : Lawful tok) (hcsi : phaseOf u = .csi) {bs : List UInt8}
    (hbs : ∀ b ∈ bs, 0x20 ≤ b ∧ b ≤ 0x3f) : Quiet tok u bs ∧ phaseOf (u ++ bs) = .csi := by
  induction bs generalizing u with
  | nil =>
      rw [List.append_nil]
      exact ⟨trivial, hcsi⟩
  | cons b bs ih =>
      rw [List.forall_mem_cons] at hbs
      obtain ⟨⟨hge, hle⟩, hrest⟩ := hbs
      rw [UInt8.le_iff_toNat_le] at hge hle
      have hge' : 32 ≤ b.toNat := hge
      have hle' : b.toNat ≤ 63 := hle
      have hne : b ≠ 0x1b := by
        rintro rfl
        exact absurd hge' (by decide)
      have habort : ¬ Aborts b := by
        rintro (rfl | rfl)
        · exact absurd hge' (by decide)
        · exact absurd hge' (by decide)
      have hfinal : ¬ CsiFinal b := by
        rintro ⟨hlow, -⟩
        rw [UInt8.le_iff_toNat_le] at hlow
        have hlow' : 64 ≤ b.toNat := hlow
        omega
      have hlt : ¬ b < 0x20 := by
        rw [UInt8.lt_iff_toNat_lt]
        exact not_lt.mpr hge'
      have hallowed := hlaw.allowed u b
      rw [hcsi] at hallowed
      unfold Allowed at hallowed
      dsimp only at hallowed
      rw [if_neg hfinal, if_neg habort, if_neg fun hc => hlt hc.1] at hallowed
      have hnext : phaseOf (u ++ [b]) = .csi := by
        rw [phaseOf_append, hcsi]
        unfold Phase.next
        rw [if_neg hne, if_neg habort]
        exact if_neg hfinal
      obtain ⟨hquiet, hphase⟩ := ih hnext hrest
      refine ⟨⟨?_, hquiet⟩, ?_⟩
      · rw [hallowed]
        exact fun a ha => absurd ha List.not_mem_nil
      · rw [List.append_cons]
        exact hphase

theorem toNat_ofNat_byte (b : UInt8) : (Char.ofNat b.toNat).toNat = b.toNat := by
  have hvalid : b.toNat.isValidChar := by
    have hlt := b.toNat_lt
    exact Or.inl (by omega)
  unfold Char.ofNat
  rw [dif_pos hvalid]
  rfl

/-- A CSI that is a query ends in one of the five bytes. -/
theorem mayBeQueryFinal_of_isQuery {params : List (List ℕ)} {inter : List UInt8} {b : UInt8}
    (h : isQuery (.csiDispatch params inter (Char.ofNat b.toNat)) = true) :
    mayBeQueryFinal b = true := by
  have hbyte : ∀ (c : Char) (k : UInt8), Char.ofNat b.toNat = c → c.toNat = k.toNat → b = k := by
    intro c k hc hk
    rw [← UInt8.toNat_inj, ← hk, ← hc, toNat_ofNat_byte]
  unfold isQuery at h
  dsimp only at h
  split at h
  · rename_i fin hfin
    have hcases := classifyCsi_cases h
    rw [ofNat_byteOfChar hfin] at hcases
    have hfive : Char.ofNat b.toNat = 'c' ∨ Char.ofNat b.toNat = 'n' ∨ Char.ofNat b.toNat = 'q' ∨
        Char.ofNat b.toNat = 'p' ∨ Char.ofNat b.toNat = 't' := by
      tauto
    unfold mayBeQueryFinal
    rcases hfive with hc | hc | hc | hc | hc
    · rw [hbyte 'c' 0x63 hc rfl]
      rfl
    · rw [hbyte 'n' 0x6e hc rfl]
      rfl
    · rw [hbyte 'q' 0x71 hc rfl]
      rfl
    · rw [hbyte 'p' 0x70 hc rfl]
      rfl
    · rw [hbyte 't' 0x74 hc rfl]
      rfl
  · cases h

/-- What `completeOtherCsi` accepts. -/
theorem completeOtherCsi_cases {s : List UInt8} {n : ℕ} (h : completeOtherCsi s = some n) :
    ∃ params fin rest, s = 0x1b :: 0x5b :: (params ++ fin :: rest) ∧ n = params.length + 3 ∧
      (∀ b ∈ params, 0x20 ≤ b ∧ b ≤ 0x3f) ∧ CsiFinal fin ∧ mayBeQueryFinal fin = false := by
  unfold completeOtherCsi at h
  split at h
  · rename_i rest
    dsimp only at h
    split at h
    · cases h
    · rename_i fin hfin
      split at h
      · rename_i hcond
        rw [Bool.not_eq_true'] at hcond
        -- the final byte is the first that is no parameter
        have hsplit := List.takeWhile_append_dropWhile (p := fun b : UInt8 => 0x20 ≤ b ∧ b ≤ 0x3f)
          (l := rest)
        have hget : ∀ k : ℕ, rest[k]? = ((rest.takeWhile fun b => 0x20 ≤ b ∧ b ≤ 0x3f) ++
            rest.dropWhile fun b => 0x20 ≤ b ∧ b ≤ 0x3f)[k]? := by
          intro k
          rw [hsplit]
        have hhead : (rest.dropWhile fun b => 0x20 ≤ b ∧ b ≤ 0x3f)[0]? = some fin := by
          rw [hget, List.getElem?_append_right (Nat.le_refl _), Nat.sub_self] at hfin
          exact hfin
        obtain ⟨tail, htail⟩ : ∃ tail, (rest.dropWhile fun b => 0x20 ≤ b ∧ b ≤ 0x3f) = fin :: tail := by
          cases hdrop : rest.dropWhile fun b => 0x20 ≤ b ∧ b ≤ 0x3f with
          | nil =>
              rw [hdrop] at hhead
              cases hhead
          | cons x tail =>
              rw [hdrop] at hhead
              cases hhead
              exact ⟨tail, rfl⟩
        refine ⟨rest.takeWhile fun b => 0x20 ≤ b ∧ b ≤ 0x3f, fin, tail, ?_,
          (Option.some_inj.mp h).symm, ?_, ⟨hcond.1, hcond.2.1⟩, hcond.2.2⟩
        · rw [← htail, hsplit]
        · intro b hb
          simpa using List.mem_takeWhile_imp hb
      · cases h
  · cases h

/-- INTERNAL: A CSI that is skipped is no query, and leaves the phase calm. -/
theorem quiet_otherCsi (hlaw : Lawful tok) (hcalm : phaseOf u = .calm) {s : List UInt8} {n : ℕ}
    (h : completeOtherCsi s = some n) :
    Quiet tok u (s.take n) ∧ phaseOf (u ++ s.take n) = .calm ∧ 0 < n ∧ n ≤ s.length := by
  obtain ⟨params, fin, rest, rfl, rfl, hparams, hfinal, hno⟩ := completeOtherCsi_cases h
  have htake : (0x1b :: 0x5b :: (params ++ fin :: rest)).take (params.length + 3) =
      [0x1b, 0x5b] ++ (params ++ [fin]) := by
    simp [List.take_append]
  have hesc := hlaw.allowed u 0x1b
  rw [hcalm] at hesc
  have hescape : phaseOf (u ++ [0x1b]) = .escape := by
    rw [phaseOf_append, Phase.next_esc]
  have hbracket : (tok.advance (tok.after (u ++ [0x1b])) 0x5b).2 = [] := by
    have hallowed := hlaw.allowed (u ++ [0x1b]) 0x5b
    rw [hescape] at hallowed
    exact hallowed
  have hcsi : phaseOf (u ++ [0x1b, 0x5b]) = .csi := by
    rw [List.append_cons, phaseOf_append, hescape]
    rfl
  obtain ⟨hquiet, hphase⟩ := quiet_params hlaw hcsi hparams
  have hne : fin ≠ 0x1b := by
    rintro rfl
    exact absurd hfinal (by decide)
  have habort : ¬ Aborts fin := by
    rintro (rfl | rfl)
    · exact absurd hfinal (by decide)
    · exact absurd hfinal (by decide)
  have hend := hlaw.allowed (u ++ [0x1b, 0x5b] ++ params) fin
  rw [hphase] at hend
  unfold Allowed at hend
  dsimp only at hend
  rw [if_pos hfinal] at hend
  have hlast : Quiet tok (u ++ [0x1b, 0x5b] ++ params) [fin] := by
    refine ⟨?_, trivial⟩
    rcases hend with hnil | ⟨ps, inter, hacts⟩
    · rw [hnil]
      exact fun a ha => absurd ha List.not_mem_nil
    · rw [hacts]
      intro a ha
      rw [List.mem_singleton.mp ha]
      cases hquery : isQuery (.csiDispatch ps inter (Char.ofNat fin.toNat)) with
      | false => rfl
      | true =>
          rw [mayBeQueryFinal_of_isQuery hquery] at hno
          cases hno
  rw [htake]
  refine ⟨?_, ?_, Nat.succ_pos _, by simp⟩
  · apply quiet_append
    · refine ⟨fun a ha => not_isQuery_of_not_dispatches (hesc a ha), ?_, trivial⟩
      rw [hbracket]
      exact fun a ha => absurd ha List.not_mem_nil
    · exact quiet_append hquiet hlast
  · rw [← List.append_assoc, ← List.append_assoc, phaseOf_append, hphase]
    unfold Phase.next
    rw [if_neg hne, if_neg habort]
    exact if_pos hfinal

theorem findEsc_eq (s : List UInt8) : findEsc s = s.findIdx? (· = 0x1b) := by
  conv_rhs => rw [← List.take_append_drop 24 s, List.findIdx?_append]
  unfold findEsc
  cases hfind : (s.take 24).findIdx? (· = 0x1b) with
  | some p => rfl
  | none =>
      cases htail : (s.drop 24).findIdx? (· = 0x1b) with
      | none => rfl
      | some p =>
          -- there is a byte after the first 24
          have hlen : 24 ≤ s.length := by
            by_contra hlt
            rw [List.drop_eq_nil_of_le (by omega)] at htail
            cases htail
          simp [Nat.min_eq_left hlen]

end

/-! ## What is given out -/

/-- The first `k` bytes of the buffer, with the queries in them or without. -/
def shown (keep : Bool) (buf : List UInt8) (removals : List Removal) (k : ℕ) : List UInt8 :=
  if keep then buf.take k else cutAt buf removals k

/-- A view of the pieces in which the queries of a chunk are kept, or leave their controls. -/
structure Renders (daemon keep : Bool) (f : Piece → List UInt8) : Prop where
  text : ∀ x, f (.text x) = x
  query : ∀ x controls replies, f (.query x controls replies daemon) = if keep then x else controls

theorem renders_raw (daemon : Bool) : Renders daemon true Piece.raw :=
  ⟨fun _ => rfl, fun _ _ _ => rfl⟩

theorem renders_stripped (daemon : Bool) : Renders daemon false Piece.stripped :=
  ⟨fun _ => rfl, fun _ _ _ => rfl⟩

theorem renders_payload (daemon : Bool) : Renders daemon (!daemon) Piece.payload := by
  refine ⟨fun _ => rfl, fun x controls replies => ?_⟩
  cases daemon with
  | true => rfl
  | false => rfl

/-- INTERNAL: What was given out before this buffer and what it has up to `i` are the pieces, and
the bytes after the last ESC. -/
def Shown (f : Piece → List UInt8) (keep : Bool) (before buf : List UInt8) (i : ℕ)
    (removals : List Removal) (cut : Cut) : Prop :=
  before ++ shown keep buf removals i = cut.pieces.flatMap f ++ cut.opened

section

variable {σ : Type} {tok : Tokenizer σ} {buf : List UInt8} {i : ℕ} {q : σ} {t : Tracker}
  {u : List UInt8} {cut : Cut} {b : UInt8}

theorem shown_add (keep : Bool) {removals : List Removal} {k j : ℕ} (h : Before k removals)
    (hle : k ≤ j) :
    shown keep buf removals j = shown keep buf removals k ++ (buf.take j).drop k := by
  cases keep with
  | false => exact cutAt_add buf h hle
  | true =>
      have htake := List.take_append_drop k (buf.take j)
      rw [List.take_take, Nat.min_eq_left hle] at htake
      exact htake.symm

theorem shown_succ (keep : Bool) {removals : List Removal} (h : Before i removals)
    (hbyte : buf[i]? = some b) :
    shown keep buf removals (i + 1) = shown keep buf removals i ++ [b] := by
  rw [shown_add keep h (Nat.le_succ i), drop_take_succ hbyte (Nat.le_refl i),
    List.drop_eq_nil_of_le, List.nil_append]
  rw [List.length_take]
  omega

/-- A removed range is shown as it was, or as its controls. -/
theorem shown_remove (keep : Bool) {removals : List Removal} {s stop : ℕ} (h : Before s removals)
    (hle : s ≤ stop) (controls : List UInt8) :
    shown keep buf (removals ++ [⟨s, stop, controls⟩]) stop =
      shown keep buf removals s ++ if keep then (buf.take stop).drop s else controls := by
  cases keep with
  | false => exact cutAt_remove buf h hle controls
  | true =>
      show shown true buf removals stop = _
      exact shown_add true h hle

/-- INTERNAL: A byte keeps what is shown. -/
theorem shown_step (h : TrackInv tok buf i q t u cut) (hbyte : buf[i]? = some b) {t' : Tracker}
    {replies : List (List UInt8)} (hcut : CutAlike i b t t' u cut replies) (daemon : Bool)
    (executed : List UInt8) {f : Piece → List UInt8} {keep : Bool} (hf : Renders daemon keep f)
    {before : List UInt8} (hshown : Shown f keep before buf i t.removals cut) :
    Shown f keep before buf (i + 1) t'.removals (cut.step daemon b executed replies) := by
  unfold Shown at hshown ⊢
  rcases hcut with ⟨rfl, hsame⟩ | ⟨hreplies, hopen, s, hs, hremoved⟩
  · rw [(cut.step_quiet daemon b executed).1 f hf.text, hsame, shown_succ keep h.removals hbyte,
      ← List.append_assoc, hshown]
  · obtain ⟨s', hs', -, hopened, -⟩ := h.opened hopen
    rw [hs] at hs'
    cases hs'
    obtain ⟨hlt, hbefore⟩ := h.start s hs
    -- what came before the query
    have hpieces : before ++ shown keep buf t.removals s = cut.pieces.flatMap f := by
      rw [shown_add keep hbefore hlt.le, ← List.append_assoc, hopened] at hshown
      exact List.append_cancel_right hshown
    unfold Cut.step
    rw [if_neg hreplies]
    split
    · rename_i hends
      rw [if_pos hends] at hremoved
      have hlast : Before i t'.removals := by
        rw [hremoved]
        intro r hr
        rcases List.mem_append.mp hr with hold | hnew
        · exact h.removals r hold
        · rw [List.mem_singleton.mp hnew]
          exact ⟨hlt.le, Nat.le_refl i⟩
      rw [shown_succ keep hlast hbyte, hremoved, shown_remove keep hbefore hlt.le]
      simp only [List.flatMap_append, List.flatMap_singleton, hf.query, ← List.append_assoc,
        hpieces, hopened]
    · rename_i hends
      rw [if_neg hends] at hremoved
      rw [hremoved, shown_remove keep hbefore (hlt.le.trans (Nat.le_succ i)),
        drop_take_succ hbyte hlt.le]
      simp only [List.flatMap_append, List.flatMap_singleton, hf.query, ← List.append_assoc,
        hpieces, hopened, List.append_nil]

theorem queries_step (daemon : Bool) (executed : List UInt8) {t' : Tracker}
    {replies : List (List UInt8)} (hcut : CutAlike i b t t' u cut replies) :
    (cut.step daemon b executed replies).queries + t.removals.length =
      cut.queries + t'.removals.length := by
  rcases hcut with ⟨rfl, hsame⟩ | ⟨hreplies, -, s, -, hremoved⟩
  · rw [(cut.step_quiet daemon b executed).2, hsame]
  · have hone : (cut.step daemon b executed replies).queries = cut.queries + 1 := by
      unfold Cut.step
      rw [if_neg hreplies]
      split
      · simp [Cut.queries]
      · simp [Cut.queries]
    rw [hone, hremoved, List.length_append, List.length_singleton]
    omega

end

/-! ## The loop -/

/-- INTERNAL: From position `i` with the tracker `t` and the cut `c`, the scanner has come to `i'`
and what it has read to `u'`. -/
structure CutAdvanced {σ : Type} (tok : Tokenizer σ) (buf : List UInt8) (daemon : Bool) (i : ℕ)
    (t : Tracker) (c : Cut) (i' : ℕ) (q' : σ) (t' : Tracker) (u' : List UInt8) (c' : Cut) :
    Prop where
  track : TrackInv tok buf i' q' t' u' c'
  shown : ∀ f keep before, Renders daemon keep f →
    Shown f keep before buf i t.removals c → Shown f keep before buf i' t'.removals c'
  counted : c'.queries + t.removals.length = c.queries + t'.removals.length

section

variable {σ : Type} {tok : Tokenizer σ} {width : Char → Option ℕ} {colors : Colors}
  {size : Size} {cap : ℕ} {buf : List UInt8} {daemon : Bool} {i : ℕ} {q : σ} {t : Tracker}
  {u : List UInt8} {w : Walk σ} {c c' : Cut}

theorem CutAdvanced.trans {c'' : Cut} {i' i'' : ℕ} {q' q'' : σ} {t' t'' : Tracker}
    {u' u'' : List UInt8} (h : CutAdvanced tok buf daemon i t c i' q' t' u' c')
    (h' : CutAdvanced tok buf daemon i' t' c' i'' q'' t'' u'' c'') :
    CutAdvanced tok buf daemon i t c i'' q'' t'' u'' c'' where
  track := h'.track
  shown := fun f keep before hf hs => h'.shown f keep before hf (h.shown f keep before hf hs)
  counted := by
    have h1 := h.counted
    have h2 := h'.counted
    omega

/-- In the ground state the tracker can skip bytes after which no sequence is open. -/
theorem TrackInv.skip {cut : Cut} (h : TrackInv tok buf i q t u cut) (cut' : Cut)
    (hground : t.nonGround = false) {bs : List UInt8} (hcalm : phaseOf (u ++ bs) = .calm) :
    TrackInv tok buf (i + bs.length) q t (u ++ bs) cut' := by
  have hnone := h.closed hground
  constructor
  case closed => exact h.closed
  case grounded => exact fun _ => hcalm
  case synced =>
    intro htrue
    rw [hground] at htrue
    cases htrue
  case opened => exact fun hne => absurd hcalm hne
  case start =>
    intro s hs
    rw [hnone] at hs
    cases hs
  case leads =>
    intro s hs
    rw [hnone] at hs
    cases hs
  case removals => exact h.removals.mono (Nat.le_add_right i _)

/-- INTERNAL: The scanner in the ground state skips bytes in which no query ends. -/
theorem cutAdvanced_skip (h : TrackInv tok buf i q t u c) (hground : t.nonGround = false)
    {bs rest : List UInt8} (hbuf : buf.drop i = bs ++ rest) (hquiet : Quiet tok u bs)
    (hcalm : phaseOf (u ++ bs) = .calm) (hcuts : CutsTo tok daemon u c bs c') :
    CutAdvanced tok buf daemon i t c (i + bs.length) q t (u ++ bs) c' := by
  obtain ⟨hviews, hcount⟩ := cutsTo_quiet hquiet hcuts
  refine ⟨h.skip c' hground hcalm, ?_, ?_⟩
  · intro f keep before hf hshown
    unfold Shown at hshown ⊢
    have hbytes : (buf.take (i + bs.length)).drop i = bs := by
      rw [List.drop_take, hbuf, Nat.add_sub_cancel_left, List.take_left]
    rw [hviews f hf.text, shown_add keep h.removals (Nat.le_add_right i _), hbytes,
      ← List.append_assoc, hshown]
  · rw [hcount]

variable (daemon) in
/-- INTERNAL: One byte through the tokenizer. -/
theorem cutAdvanced_byte (hlaw : Lawful tok) (h : TrackInv tok buf i q t u c) {b : UInt8}
    (hbyte : buf[i]? = some b) (hreads : t.nonGround = true ∨ b = 0x1b) {executed : List UInt8}
    {replies : List (List UInt8)} (hobs : Observed tok u b executed replies) :
    CutAdvanced tok buf daemon i t c (i + 1) (scanByte tok buf q t i b).1
      (scanByte tok buf q t i b).2 (u ++ [b]) (c.step daemon b executed replies) := by
  obtain ⟨htrack, hcut⟩ := scanByte_spec hlaw h hbyte hreads daemon executed replies hobs
  refine ⟨htrack, ?_, queries_step daemon executed hcut⟩
  exact fun f keep before hf hshown => shown_step h hbyte hcut daemon executed hf hshown

/-- The text before the next ESC. -/
theorem findIdx?_esc {s : List UInt8} {p : ℕ} (h : s.findIdx? (· = 0x1b) = some p) :
    p < s.length ∧ (∀ b ∈ s.take p, b ≠ 0x1b) ∧ s[p]? = some 0x1b := by
  obtain ⟨hlt, hesc, hbefore⟩ := List.findIdx?_eq_some_iff_getElem.mp h
  refine ⟨hlt, ?_, ?_⟩
  · intro b hb
    obtain ⟨j, hj, rfl⟩ := List.mem_iff_getElem.mp hb
    rw [List.length_take] at hj
    have hne := hbefore j (by omega)
    rw [List.getElem_take]
    simpa using hne
  · rw [List.getElem?_eq_getElem hlt]
    exact congrArg some (of_decide_eq_true hesc)

/-- INTERNAL: The loop of the scanner reads the buffer to its end.
SRC: scanner.rs:190-228 -/
theorem scanLoop_spec (hlaw : Lawful tok) (fuel : ℕ) :
    ∀ {i : ℕ} {q : σ} {t : Tracker} {u : List UInt8} {c : Cut}, i ≤ buf.length →
      buf.length - i < fuel → TrackInv tok buf i q t u c →
      CutsTo tok daemon u c (buf.drop i) c' →
      CutAdvanced tok buf daemon i t c buf.length (scanLoop tok buf fuel q t i).1
        (scanLoop tok buf fuel q t i).2 (u ++ buf.drop i) c' := by
  induction fuel with
  | zero =>
      intro i q t u c _ hfuel
      omega
  | succ fuel ih =>
      intro i q t u c hi hfuel h hcuts
      unfold scanLoop
      cases hground : t.nonGround with
      | true =>
          rw [if_pos rfl]
          cases hbyte : buf[i]? with
          | none =>
              have hend : i = buf.length := by
                have hge := List.getElem?_eq_none_iff.mp hbyte
                omega
              have hnil : buf.drop i = [] := List.drop_eq_nil_of_le (by omega)
              rw [hnil] at hcuts ⊢
              have hsame : c' = c := hcuts
              rw [List.append_nil, ← hend, hsame]
              exact ⟨h, fun _ _ _ _ hs => hs, rfl⟩
          | some b =>
              obtain ⟨hlt, hget⟩ := List.getElem?_eq_some_iff.mp hbyte
              have hdrop : buf.drop i = b :: buf.drop (i + 1) := by
                rw [List.drop_eq_getElem_cons hlt, hget]
              rw [hdrop] at hcuts ⊢
              obtain ⟨executed, replies, hobs, hrest⟩ := hcuts
              have hadv := cutAdvanced_byte daemon hlaw h hbyte (Or.inl hground) hobs
              rw [List.append_cons]
              exact hadv.trans (ih (by omega) (by omega) hadv.track hrest)
      | false =>
          rw [if_neg Bool.false_ne_true, findEsc_eq]
          have hcalm := h.grounded hground
          cases hfind : (buf.drop i).findIdx? (· = 0x1b) with
          | none =>
              have htext : ∀ b ∈ buf.drop i, b ≠ 0x1b := by
                intro b hb
                have hno := List.findIdx?_eq_none_iff.mp hfind b hb
                simpa using hno
              obtain ⟨hquiet, hphase⟩ := quiet_text hlaw hcalm htext
              have hskip := cutAdvanced_skip h hground (List.append_nil (buf.drop i)).symm hquiet
                hphase hcuts
              have hlen : i + (buf.drop i).length = buf.length := by
                rw [List.length_drop]
                omega
              rw [hlen] at hskip
              exact hskip
          | some p =>
              obtain ⟨hp, htext, hesc⟩ := findIdx?_esc hfind
              rw [List.length_drop] at hp
              obtain ⟨hquiet, hphase⟩ := quiet_text hlaw hcalm htext
              have hsplit : buf.drop i = (buf.drop i).take p ++ buf.drop (i + p) := by
                rw [← List.drop_drop, List.take_append_drop]
              have hlen : ((buf.drop i).take p).length = p := by
                rw [List.length_take, List.length_drop]
                omega
              dsimp only
              cases hcsi : completeOtherCsi (buf.drop (i + p)) with
              | some n =>
                  obtain ⟨hquiet', hphase', hpos, hle⟩ := quiet_otherCsi hlaw hphase hcsi
                  rw [List.length_drop] at hle
                  have hbuf : buf.drop i = ((buf.drop i).take p ++ (buf.drop (i + p)).take n) ++
                      buf.drop (i + p + n) := by
                    rw [List.append_assoc, ← List.drop_drop (i := n), List.take_append_drop]
                    exact hsplit
                  have hskipped : i + ((buf.drop i).take p ++ (buf.drop (i + p)).take n).length =
                      i + p + n := by
                    rw [List.length_append, hlen, List.length_take, List.length_drop]
                    omega
                  rw [List.append_assoc] at hphase'
                  rw [hbuf, cutsTo_append] at hcuts
                  obtain ⟨mid, hmid, hrest⟩ := hcuts
                  have hadv := cutAdvanced_skip h hground hbuf (quiet_append hquiet hquiet')
                    hphase' hmid
                  rw [hskipped] at hadv
                  rw [hbuf, ← List.append_assoc]
                  exact hadv.trans (ih (by omega) (by omega) hadv.track hrest)
              | none =>
                  have hbyte : buf[i + p]? = some 0x1b := by
                    rw [← List.getElem?_drop]
                    exact hesc
                  have hdrop : buf.drop (i + p) = 0x1b :: buf.drop (i + p + 1) := by
                    obtain ⟨hlt, hget⟩ := List.getElem?_eq_some_iff.mp hbyte
                    rw [List.drop_eq_getElem_cons hlt, hget]
                  rw [hsplit, cutsTo_append] at hcuts
                  obtain ⟨mid, hmid, hrest⟩ := hcuts
                  have hadv := cutAdvanced_skip h hground hsplit hquiet hphase hmid
                  rw [hlen] at hadv
                  rw [hdrop] at hrest
                  obtain ⟨executed, replies, hobs, hlast⟩ := hrest
                  have hadv' := cutAdvanced_byte daemon hlaw hadv.track hbyte
                    (Or.inr rfl) hobs
                  rw [hsplit, ← List.append_assoc, hdrop, List.append_cons]
                  exact hadv.trans (hadv'.trans (ih (by omega) (by omega) hadv'.track hlast))

/-! ## A chunk -/

/-- A chunk as it was read, or without the queries. -/
def viewOf (keep : Bool) (s : Scanned) : List UInt8 :=
  if keep then s.raw else s.stripped

/-- The scanner holds what is open of `u`. -/
def Tracks (tok : Tokenizer σ) (scanner : QueryScanner σ) (u : List UInt8) (c : Cut) : Prop :=
  TrackInv tok scanner.held scanner.held.length scanner.parser
    { scanner.tracker with
      removals := []
      seqStart := if 0 < scanner.held.length then some 0 else none } u c

/-- INTERNAL: The scanner between two chunks, after `u`. -/
structure Between (tok : Tokenizer σ) (size : Size) (cap : ℕ) (scanner : QueryScanner σ)
    (u : List UInt8) (w : Walk σ) : Prop where
  walked : Walked tok size cap u w
  track : TrackInv tok scanner.held scanner.held.length scanner.parser
    { scanner.tracker with
      removals := []
      seqStart := if 0 < scanner.held.length then some 0 else none } u w.cut

/-- No open sequence is longer than the scanner holds. -/
def Short (u : List UInt8) : Prop := phaseOf u ≠ .calm → sinceEsc u ≤ maxHeld

theorem short_of_length {stream : List UInt8} (h : stream.length < maxHeld) :
    ∀ v, v <+: stream → Short v := by
  intro v hv _
  have hle := hv.length_le
  have htake := (List.takeWhile_prefix (l := v.reverse) fun b => b ≠ 0x1b).length_le
  rw [List.length_reverse] at htake
  unfold sinceEsc
  omega

/-- Where the held bytes begin. -/
def holdFrom (t : Tracker) (buf : List UInt8) : ℕ :=
  (t.seqStart.filter fun s => buf.length - s ≤ maxHeld).getD buf.length

theorem finish_fst (q : σ) (t : Tracker) (buf : List UInt8) :
    (QueryScanner.finish q t buf).1 =
      ⟨buf.take (holdFrom t buf), if t.removals.isEmpty then none
        else some (cutRemovals (buf.take (holdFrom t buf)) t.removals)⟩ := by
  unfold QueryScanner.finish
  dsimp only
  split
  · rfl
  · split
    · rfl
    · rfl

theorem removed_finish (q : σ) (t : Tracker) (buf : List UInt8) :
    (QueryScanner.finish q t buf).1.removed = none ↔ t.removals = [] := by
  rw [finish_fst]
  dsimp only
  split
  · rename_i hempty
    exact iff_of_true rfl (List.isEmpty_iff.mp hempty)
  · rename_i hsome
    exact iff_of_false (Option.some_ne_none _) fun hnil => hsome (List.isEmpty_iff.mpr hnil)

theorem viewOf_finish (keep : Bool) (q : σ) (t : Tracker) (buf : List UInt8) :
    viewOf keep (QueryScanner.finish q t buf).1 = shown keep buf t.removals (holdFrom t buf) := by
  rw [finish_fst]
  unfold viewOf shown
  cases keep with
  | true => rfl
  | false =>
      cases hremovals : t.removals with
      | nil => rfl
      | cons r rs => rfl

/-- The held bytes are tracked as the end of the buffer was. -/
theorem TrackInv.hold {cut : Cut} (h : TrackInv tok buf buf.length q t u cut) {s : ℕ}
    (hs : t.seqStart = some s) :
    TrackInv tok (buf.drop s) (buf.drop s).length q { t with removals := [], seqStart := some 0 } u
      cut := by
  obtain ⟨hlt, -⟩ := h.start s hs
  have hground : t.nonGround = true := by
    cases hground : t.nonGround with
    | true => rfl
    | false =>
        rw [h.closed hground] at hs
        cases hs
  constructor
  case closed =>
    intro hfalse
    rw [show t.nonGround = false from hfalse] at hground
    cases hground
  case grounded => exact h.grounded
  case synced => exact h.synced
  case opened =>
    intro hphase
    obtain ⟨s', hs', hsince, hopened, hcontrols⟩ := h.opened hphase
    rw [hs] at hs'
    cases hs'
    refine ⟨0, rfl, ?_, ?_, hcontrols⟩
    · rw [List.length_drop]
      omega
    · rw [hopened, List.take_length, List.take_length]
      rfl
  case start =>
    intro s' hs'
    cases hs'
    refine ⟨?_, fun r hr => absurd hr List.not_mem_nil⟩
    rw [List.length_drop]
    omega
  case leads =>
    intro s' hs'
    cases hs'
    obtain ⟨hone, hmore⟩ := h.leads s hs
    rw [List.length_drop]
    refine ⟨fun heq => hone (by omega), fun hgt hbracket => hmore (by omega) ?_⟩
    rw [List.getElem?_drop] at hbracket
    exact hbracket
  case removals => exact fun r hr => absurd hr List.not_mem_nil

/-- With nothing held no sequence is open. -/
theorem TrackInv.release {cut : Cut} (h : TrackInv tok buf i q t u cut)
    (hcalm : phaseOf u = .calm) {t' : Tracker} (hseq : t'.seqStart = none)
    (hground : t'.nonGround = t.nonGround) (hremovals : t'.removals = []) :
    TrackInv tok [] 0 q t' u cut := by
  constructor
  case closed => exact fun _ => hseq
  case grounded => exact fun _ => hcalm
  case synced =>
    rw [hground]
    exact h.synced
  case opened => exact fun hne => absurd hcalm hne
  case start =>
    intro s hs
    rw [hseq] at hs
    cases hs
  case leads =>
    intro s hs
    rw [hseq] at hs
    cases hs
  case removals =>
    rw [hremovals]
    exact fun r hr => absurd hr List.not_mem_nil

/-- More bytes behind the buffer. -/
theorem TrackInv.append {cut : Cut} (h : TrackInv tok buf buf.length q t u cut)
    (chunk : List UInt8) : TrackInv tok (buf ++ chunk) buf.length q t u cut := by
  constructor
  case closed => exact h.closed
  case grounded => exact h.grounded
  case synced => exact h.synced
  case opened =>
    intro hphase
    obtain ⟨s, hs, hsince, hopened, hcontrols⟩ := h.opened hphase
    refine ⟨s, hs, hsince, ?_, hcontrols⟩
    rw [hopened, List.take_left, List.take_length]
  case start => exact h.start
  case leads =>
    intro s hs
    obtain ⟨hone, hmore⟩ := h.leads s hs
    refine ⟨hone, fun hlt hbracket => hmore hlt ?_⟩
    rw [List.getElem?_append_left hlt] at hbracket
    exact hbracket
  case removals => exact h.removals

/-- An open sequence that is not too long is held back. -/
theorem finish_hold {s : ℕ} (q : σ) (hs : t.seqStart = some s) (hlt : s < buf.length)
    (hle : buf.length - s ≤ maxHeld) :
    holdFrom t buf = s ∧ (QueryScanner.finish q t buf).2 = ⟨q, t, buf.drop s⟩ := by
  have hfrom : holdFrom t buf = s := by
    unfold holdFrom
    rw [hs]
    simp only [Option.filter_some, hle, decide_true, if_true, Option.getD_some]
  refine ⟨hfrom, ?_⟩
  unfold QueryScanner.finish
  show (if holdFrom t buf < buf.length then _ else _ : Scanned × QueryScanner σ).2 = _
  rw [hfrom, if_pos hlt]
  show QueryScanner.mk q t (buf.drop (holdFrom t buf)) = _
  rw [hfrom]

/-- Otherwise everything is given out. -/
theorem finish_release (q : σ) (h : ¬ ∃ s, t.seqStart = some s ∧ buf.length - s ≤ maxHeld) :
    holdFrom t buf = buf.length ∧ ∃ t', (QueryScanner.finish q t buf).2 = ⟨q, t', []⟩ ∧
      t'.nonGround = t.nonGround := by
  have hfrom : holdFrom t buf = buf.length := by
    unfold holdFrom
    cases hs : t.seqStart with
    | none => rfl
    | some s =>
        have hgt : ¬ buf.length - s ≤ maxHeld := fun hle => h ⟨s, hs, hle⟩
        simp only [Option.filter_some, hgt, decide_false, Bool.false_eq_true, if_false,
          Option.getD_none]
  refine ⟨hfrom, ?_⟩
  unfold QueryScanner.finish
  show ∃ t', (if holdFrom t buf < buf.length then _ else _ : Scanned × QueryScanner σ).2 = _ ∧ _
  rw [hfrom, if_neg (lt_irrefl _)]
  split
  · exact ⟨_, rfl, rfl⟩
  · exact ⟨_, rfl, rfl⟩

/-- INTERNAL: The end of `feed`.
SRC: scanner.rs:152-187 -/
theorem finish_spec (h : TrackInv tok buf buf.length q t u c) (hshort : Short u) :
    Tracks tok (QueryScanner.finish q t buf).2 u c ∧
      ∀ keep, shown keep buf t.removals buf.length =
        viewOf keep (QueryScanner.finish q t buf).1 ++ (QueryScanner.finish q t buf).2.held := by
  by_cases hhold : ∃ s, t.seqStart = some s ∧ buf.length - s ≤ maxHeld
  · obtain ⟨s, hs, hle⟩ := hhold
    obtain ⟨hlt, hbefore⟩ := h.start s hs
    obtain ⟨hfrom, hsnd⟩ := finish_hold q hs hlt hle
    have hpos : 0 < (buf.drop s).length := by
      rw [List.length_drop]
      omega
    constructor
    · unfold Tracks
      rw [hsnd]
      dsimp only
      rw [if_pos hpos]
      exact h.hold hs
    · intro keep
      rw [viewOf_finish, hfrom, hsnd, shown_add keep hbefore hlt.le, List.take_length]
  · have hcalm : phaseOf u = .calm := by
      by_contra hphase
      obtain ⟨s, hs, hsince, -, -⟩ := h.opened hphase
      apply hhold
      refine ⟨s, hs, ?_⟩
      have hle := hshort hphase
      omega
    obtain ⟨hfrom, t', hsnd, hground⟩ := finish_release q hhold
    constructor
    · unfold Tracks
      rw [hsnd]
      exact h.release hcalm rfl hground rfl
    · intro keep
      rw [viewOf_finish, hfrom, hsnd, List.append_nil]

/-- INTERNAL: One chunk, whatever bytes are in it: what the scanner gives out with what it holds is
what the tokenizer's reports cut, and it removes something exactly when they cut in this chunk.
SRC: scanner.rs:132-188 -/
theorem feed_cuts (hlaw : Lawful tok) {scanner : QueryScanner σ} (h : Tracks tok scanner u c)
    {chunk : List UInt8} (hcuts : CutsTo tok daemon u c chunk c') (hshort : Short (u ++ chunk)) :
    Tracks tok (scanner.feed tok chunk).2 (u ++ chunk) c' ∧
      (∀ f keep before, Renders daemon keep f →
        before ++ scanner.held = c.pieces.flatMap f ++ c.opened →
        before ++ viewOf keep (scanner.feed tok chunk).1 ++ (scanner.feed tok chunk).2.held =
          c'.pieces.flatMap f ++ c'.opened) ∧
      ((scanner.feed tok chunk).1.removed = none ↔ c'.queries = c.queries) := by
  unfold QueryScanner.feed
  split
  · rename_i hfast
    simp only [Bool.and_eq_true, Bool.not_eq_true', List.isEmpty_iff] at hfast
    obtain ⟨⟨hheld, hground⟩, hesc⟩ := hfast
    have htext : ∀ b ∈ chunk, b ≠ 0x1b := by
      rintro b hb rfl
      rw [List.contains_iff_mem.mpr hb] at hesc
      cases hesc
    obtain ⟨hquiet, hphase⟩ := quiet_text hlaw (h.grounded hground) htext
    obtain ⟨hviews, hcount⟩ := cutsTo_quiet hquiet hcuts
    refine ⟨?_, ?_, ?_⟩
    · have hskip := TrackInv.skip h c' hground hphase
      unfold Tracks
      rw [hheld]
      exact hskip.release hphase rfl rfl rfl
    · intro f keep before hf hbefore
      have hview : viewOf keep ⟨chunk, none⟩ = chunk := by
        cases keep with
        | true => rfl
        | false => rfl
      rw [hview, hviews f hf.text, ← hbefore, hheld, List.append_nil, List.append_nil]
    · exact iff_of_true rfl hcount
  · dsimp only
    have hdrop : (scanner.held ++ chunk).drop scanner.held.length = chunk := List.drop_left
    have hadv := scanLoop_spec (i := scanner.held.length) hlaw
      ((scanner.held ++ chunk).length + 1) (by rw [List.length_append]; omega) (by omega)
      (TrackInv.append h chunk) (by rw [hdrop]; exact hcuts)
    rw [hdrop] at hadv
    obtain ⟨htracks, hview⟩ := finish_spec hadv.track hshort
    refine ⟨htracks, ?_, ?_⟩
    · intro f keep before hf hbefore
      have hstart : Shown f keep before (scanner.held ++ chunk) scanner.held.length [] c := by
        unfold Shown
        rw [← hbefore]
        cases keep with
        | true =>
            show before ++ (scanner.held ++ chunk).take _ = _
            rw [List.take_left]
        | false =>
            show before ++ (scanner.held ++ chunk).take _ = _
            rw [List.take_left]
      have hend := hadv.shown f keep before hf hstart
      unfold Shown at hend
      rw [hview keep, ← List.append_assoc] at hend
      exact hend
    · have hcount := hadv.counted
      rw [List.length_nil, Nat.add_zero] at hcount
      refine (removed_finish _ _ _).trans (List.length_eq_zero_iff.symm.trans ?_)
      rw [hcount]
      exact Nat.add_eq_left.symm

variable (colors) in
/-- INTERNAL: One chunk: the scanner stays beside the walk, what it gives out with what it holds is
what the walk has cut, and it removes something exactly when the walk cuts in this chunk.
SRC: scanner.rs:132-188 -/
theorem feed_spec (hlaw : Lawful tok) (hwidth : WidthLaw width) (daemon : Bool)
    {scanner : QueryScanner σ} (h : Between tok size cap scanner u w) {chunk : List UInt8}
    (hchain : List.IsChain PairFree (u ++ chunk)) (hshort : Short (u ++ chunk)) :
    ∃ w', w.chunk tok width colors daemon chunk = some w' ∧
      Between tok size cap (scanner.feed tok chunk).2 (u ++ chunk) w' ∧
      (∀ f keep before, Renders daemon keep f →
        before ++ scanner.held = w.cut.pieces.flatMap f ++ w.cut.opened →
        before ++ viewOf keep (scanner.feed tok chunk).1 ++ (scanner.feed tok chunk).2.held =
          w'.cut.pieces.flatMap f ++ w'.cut.opened) ∧
      ((scanner.feed tok chunk).1.removed = none ↔ w'.cut.queries = w.cut.queries) := by
  obtain ⟨w', hchunk, hwalked, hcuts⟩ := walk_cuts colors hlaw hwidth daemon h.walked hchain
  obtain ⟨htracks, hview, hremoved⟩ := feed_cuts hlaw h.track hcuts hshort
  exact ⟨w', hchunk, ⟨hwalked, htracks⟩, hview, hremoved⟩

end

/-! ## Nothing is lost -/

section

variable {σ : Type} {tok : Tokenizer σ}

/-- INTERNAL: wherever the open sequence begins, the buffer is given out up to there and held from
there on.
SRC: scanner.rs:152-187 -/
theorem finish_passthrough (q : σ) (t : Tracker) (buf : List UInt8) :
    (QueryScanner.finish q t buf).1.raw ++ (QueryScanner.finish q t buf).2.held = buf := by
  have hheld : (QueryScanner.finish q t buf).2.held = buf.drop (holdFrom t buf) := by
    unfold QueryScanner.finish
    dsimp only
    by_cases hholds : holdFrom t buf < buf.length
    · unfold holdFrom at hholds ⊢
      rw [if_pos hholds]
    · have hnil : buf.drop (holdFrom t buf) = [] :=
        List.drop_eq_nil_of_le (Nat.le_of_not_lt hholds)
      rw [hnil]
      unfold holdFrom at hholds
      rw [if_neg hholds]
      split
      · rfl
      · rfl
  rw [finish_fst, hheld]
  exact List.take_append_drop ..

theorem feed_passthrough (s : QueryScanner σ) (chunk : List UInt8) :
    (s.feed tok chunk).1.raw ++ (s.feed tok chunk).2.held = s.held ++ chunk := by
  unfold QueryScanner.feed
  split
  · rename_i hfast
    simp only [Bool.and_eq_true, List.isEmpty_iff] at hfast
    rw [hfast.1.1]
    exact List.append_nil chunk
  · exact finish_passthrough _ _ _

theorem feedAll_passthrough (s : QueryScanner σ) (chunks : List (List UInt8)) :
    (s.feedAll tok chunks).1.flatMap Scanned.raw ++ (s.feedAll tok chunks).2.held =
      s.held ++ chunks.flatten := by
  induction chunks generalizing s with
  | nil => exact (List.append_nil s.held).symm
  | cons chunk chunks ih =>
      have hfed : (s.feed tok chunk).1.raw ++ (s.feed tok chunk).2.held = s.held ++ chunk :=
        feed_passthrough s chunk
      have hrest := ih (s.feed tok chunk).2
      let given := ((s.feed tok chunk).2.feedAll tok chunks).1.flatMap Scanned.raw
      let held := ((s.feed tok chunk).2.feedAll tok chunks).2.held
      calc ((s.feed tok chunk).1.raw ++ given) ++ held
          = (s.feed tok chunk).1.raw ++ ((s.feed tok chunk).2.held ++ chunks.flatten) := by
            rw [List.append_assoc, hrest]
        _ = s.held ++ (chunk ++ chunks.flatten) := by
            rw [← List.append_assoc, hfed, List.append_assoc]

variable (tok) in
/-- INTERNAL: what a scanner has given out, followed by what it holds, is what it was fed.
SRC: scanner.rs:120-188 -/
theorem scanner_passthrough (chunks : List (List UInt8)) :
    ((QueryScanner.default tok).feedAll tok chunks).1.flatMap Scanned.raw ++
      ((QueryScanner.default tok).feedAll tok chunks).2.held = chunks.flatten :=
  feedAll_passthrough (QueryScanner.default tok) chunks

end

/-! ## The output in chunks -/

/-- The output after `u` is one for which the scanner and the emulator agree. -/
def Readable (u bytes : List UInt8) : Prop :=
  List.IsChain PairFree (u ++ bytes) ∧ ∀ v, v <+: bytes → Short (u ++ v)

section

variable {σ : Type} {tok : Tokenizer σ} {width : Char → Option ℕ} {colors : Colors}
  {size : Size} {cap : ℕ} {daemon : Bool} {u : List UInt8} {w : Walk σ}

theorem Readable.of_append {bytes more : List UInt8} (h : Readable u (bytes ++ more)) :
    Readable u bytes := by
  constructor
  · have hchain := h.1
    rw [← List.append_assoc] at hchain
    exact hchain.left_of_append
  · exact fun v hv => h.2 v (hv.trans (List.prefix_append _ _))

theorem Readable.last {bytes chunk : List UInt8} (h : Readable u (bytes ++ chunk)) :
    Readable (u ++ bytes) chunk := by
  constructor
  · rw [List.append_assoc]
    exact h.1
  · intro v hv
    rw [List.append_assoc]
    exact h.2 _ ((List.prefix_append_right_inj bytes).mpr hv)

/-- The walk collects the replies of the emulator, and those of them that the daemon offers. -/
theorem replies_step (c : Cut) (daemon : Bool) (b : UInt8) (executed : List UInt8)
    (replies : List (List UInt8)) :
    (c.step daemon b executed replies).pieces.flatMap Piece.replies =
        c.pieces.flatMap Piece.replies ++ replies ∧
      (c.step daemon b executed replies).pieces.flatMap Piece.offered =
        c.pieces.flatMap Piece.offered ++ if daemon then replies else [] := by
  unfold Cut.step
  split
  · rename_i hnil
    rw [hnil, ite_self, List.append_nil, List.append_nil]
    split
    · simp [Piece.replies, Piece.offered]
    · exact ⟨rfl, rfl⟩
  · split
    · simp [Piece.replies, Piece.offered]
    · simp [Piece.replies, Piece.offered]

/-- INTERNAL: The emulator of the walk is the one that processes the chunk as a whole.
SRC: parser.rs:50-76 -/
theorem processReplying_of_chunk {bytes : List UInt8} {w' : Walk σ}
    (h : w.chunk tok width colors daemon bytes = some w') :
    ∃ replies, processReplying tok width colors w.emulator bytes = some (w'.emulator, replies) ∧
      w'.cut.pieces.flatMap Piece.replies = w.cut.pieces.flatMap Piece.replies ++ replies ∧
      w'.cut.pieces.flatMap Piece.offered =
        w.cut.pieces.flatMap Piece.offered ++ if daemon then replies else [] := by
  induction bytes generalizing w with
  | nil =>
      have hw : w = w' := Option.some_inj.mp h
      rw [hw]
      refine ⟨[], ?_, (List.append_nil _).symm, ?_⟩
      · rcases w' with ⟨⟨parser, pending, screen⟩, cut⟩
        cases pending with
        | true => rfl
        | false => rfl
      · rw [ite_self, List.append_nil]
  | cons b bs ih =>
      rw [chunk_cons] at h
      obtain ⟨w1, hstep, hrest⟩ := Option.bind_eq_some_iff.mp h
      obtain ⟨replies, hprocess, hreplies, hoffered⟩ := ih hrest
      unfold Walk.step at hstep
      obtain ⟨r, hr, hw1⟩ := Option.bind_eq_some_iff.mp hstep
      cases hw1
      refine ⟨r.2 ++ replies, ?_, ?_, ?_⟩
      · rw [processReplying_cons, hr]
        show Option.map _ (processReplying tok width colors r.1 bs) = _
        rw [hprocess]
        rfl
      · rw [hreplies, (replies_step _ _ _ _ _).1, List.append_assoc]
      · rw [hoffered, (replies_step _ _ _ _ _).2, List.append_assoc]
        congr 1
        cases daemon with
        | true => rfl
        | false => rfl

/-- The walk loses no byte. -/
theorem raw_of_chunk {bytes : List UInt8} {w' : Walk σ}
    (h : w.chunk tok width colors daemon bytes = some w') :
    w'.cut.pieces.flatMap Piece.raw ++ w'.cut.opened =
      w.cut.pieces.flatMap Piece.raw ++ w.cut.opened ++ bytes := by
  induction bytes generalizing w with
  | nil =>
      have hw : w = w' := Option.some_inj.mp h
      rw [hw, List.append_nil]
  | cons b bs ih =>
      rw [chunk_cons] at h
      obtain ⟨w1, hstep, hrest⟩ := Option.bind_eq_some_iff.mp h
      unfold Walk.step at hstep
      obtain ⟨r, -, hw1⟩ := Option.bind_eq_some_iff.mp hstep
      cases hw1
      rw [ih hrest, List.append_cons _ b bs]
      congr 1
      dsimp only
      unfold Cut.step
      split
      · split
        · simp [Piece.raw]
        · simp
      · split
        · simp [Piece.raw]
        · simp [Piece.raw]

/-- The chunks one after the other, whatever bytes are in them. -/
theorem feedAll_cuts (hlaw : Lawful tok) {scanner : QueryScanner σ} {c c' : Cut}
    (h : Tracks tok scanner u c) (chunks : List (List UInt8))
    (hcuts : CutsTo tok daemon u c chunks.flatten c')
    (hshort : ∀ v, v <+: chunks.flatten → Short (u ++ v)) :
    Tracks tok (scanner.feedAll tok chunks).2 (u ++ chunks.flatten) c' ∧
      ∀ f keep before, Renders daemon keep f →
        before ++ scanner.held = c.pieces.flatMap f ++ c.opened →
        before ++ (scanner.feedAll tok chunks).1.flatMap (viewOf keep) ++
          (scanner.feedAll tok chunks).2.held = c'.pieces.flatMap f ++ c'.opened := by
  induction chunks generalizing scanner u c with
  | nil =>
      have hsame : c' = c := hcuts
      rw [hsame]
      refine ⟨?_, fun f keep before _ hbefore => ?_⟩
      · rw [List.flatten_nil, List.append_nil]
        exact h
      · rw [← hbefore]
        show before ++ [] ++ scanner.held = _
        rw [List.append_nil]
  | cons chunk chunks ih =>
      rw [List.flatten_cons, cutsTo_append] at hcuts
      obtain ⟨mid, hmid, hrest⟩ := hcuts
      obtain ⟨htracks, hview, -⟩ :=
        feed_cuts hlaw h hmid (hshort chunk (List.prefix_append _ _))
      have hshort' : ∀ v, v <+: chunks.flatten → Short (u ++ chunk ++ v) := by
        intro v hv
        rw [List.append_assoc]
        apply hshort
        rw [List.flatten_cons]
        exact (List.prefix_append_right_inj chunk).mpr hv
      obtain ⟨htracks', hview'⟩ := ih htracks hrest hshort'
      refine ⟨?_, ?_⟩
      · rw [List.flatten_cons, ← List.append_assoc]
        exact htracks'
      · intro f keep before hf hbefore
        have hend := hview' f keep _ hf (hview f keep before hf hbefore)
        rw [← hend]
        show before ++ (viewOf keep _ ++ _) ++ _ = _
        rw [← List.append_assoc]
        rfl

variable (colors) in
/-- The chunks one after the other. -/
theorem feedAll_spec (hlaw : Lawful tok) (hwidth : WidthLaw width) (daemon : Bool)
    {scanner : QueryScanner σ} (h : Between tok size cap scanner u w) (chunks : List (List UInt8))
    (hchain : List.IsChain PairFree (u ++ chunks.flatten))
    (hshort : ∀ v, v <+: chunks.flatten → Short (u ++ v)) :
    ∃ w', w.chunk tok width colors daemon chunks.flatten = some w' ∧
      Between tok size cap (scanner.feedAll tok chunks).2 (u ++ chunks.flatten) w' ∧
      ∀ f keep before, Renders daemon keep f →
        before ++ scanner.held = w.cut.pieces.flatMap f ++ w.cut.opened →
        before ++ (scanner.feedAll tok chunks).1.flatMap (viewOf keep) ++
          (scanner.feedAll tok chunks).2.held = w'.cut.pieces.flatMap f ++ w'.cut.opened := by
  obtain ⟨w', hchunk, hwalked, hcuts⟩ := walk_cuts colors hlaw hwidth daemon h.walked hchain
  obtain ⟨htracks, hview⟩ := feedAll_cuts hlaw h.track chunks hcuts hshort
  exact ⟨w', hchunk, ⟨hwalked, htracks⟩, hview⟩

/-- A fresh scanner after bytes that leave no sequence open. -/
theorem tracks_default (hcalm : phaseOf u = .calm) (c : Cut) :
    Tracks tok (QueryScanner.default tok) u c := by
  constructor
  case closed => exact fun _ => rfl
  case grounded => exact fun _ => hcalm
  case synced =>
    intro h
    cases h
  case opened => exact fun h => absurd hcalm h
  case start =>
    intro s hs
    cases hs
  case leads =>
    intro s hs
    cases hs
  case removals => exact fun r hr => absurd hr List.not_mem_nil

/-- A fresh scanner beside an emulator with no sequence open. -/
theorem between_default {p : Parser σ} (hwalked : Walked tok size cap u (Walk.new p))
    (hcalm : phaseOf u = .calm) :
    Between tok size cap (QueryScanner.default tok) u (Walk.new p) :=
  ⟨hwalked, tracks_default hcalm _⟩

variable (tok) in
/-- A fresh emulator. -/
theorem walked_new {rows cols : ℕ} (hrows : 1 ≤ rows) (hcols : 1 ≤ cols)
    (hle : cols ≤ Model.u16Max) (cap : ℕ) :
    ∃ p, Parser.new tok rows cols cap = some p ∧
      Walked tok ⟨rows, cols⟩ cap [] (Walk.new p) := by
  obtain ⟨screen, hscreen, hfits⟩ : Yields (Screen.new ⟨rows, cols⟩ cap)
      (ScreenFits False ⟨rows, cols⟩ cap) :=
    yields_screenNew hrows hcols hle cap
  refine ⟨⟨tok.start, false, screen⟩, ?_, ?_, hfits⟩
  · unfold Parser.new
    rw [hscreen]
    rfl
  · apply Or.inl
    refine ⟨rfl, rfl, ?_⟩
    rw [List.getLast?_nil]
    exact (Option.some_ne_none _).symm

end

theorem widthLaw_one : WidthLaw fun _ => some 1 :=
  ⟨fun _ => Nat.le_succ 1, fun _ _ => Nat.le_refl 1, fun _ _ => Nat.le_refl 1⟩

end Tymux.Analysis
