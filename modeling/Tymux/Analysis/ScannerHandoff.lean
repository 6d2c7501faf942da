import Tymux.Analysis.StripAgreement

/-!
# Handing the scanner over

What is handed over of a scanner is the bytes it holds, and the new daemon feeds them to a fresh
one. The old scanner has read much more than these bytes, but the ESC that they begin with made
its tokenizer forget the rest, and what its tracker knows about the open sequence is what reading
the held bytes alone tells (`Resumable`). From then on the two scanners cannot be told apart
(`Alike`).
-/

set_option autoImplicit false

namespace Tymux.Analysis

open Tymux.Model.Vt Tymux.Model.TerminalQuery

/-! ## The same sequence at another position -/

/-- `t` is `t'` with its open sequence `s` bytes further on. -/
structure Shifted (s : ℕ) (t t' : Tracker) : Prop where
  seqStart : t.seqStart = t'.seqStart.map (s + ·)
  nonGround : t.nonGround = t'.nonGround
  embeddedC0 : t.embeddedC0 = t'.embeddedC0
  byte : t.byte = t'.byte

section

variable {s : ℕ} {t t' : Tracker}

theorem Shifted.close (h : Shifted s t t') : Shifted s t.close t'.close :=
  ⟨rfl, rfl, rfl, h.byte⟩

theorem Shifted.isSome (h : Shifted s t t') : t.seqStart.isSome = t'.seqStart.isSome := by
  rw [h.seqStart, Option.isSome_map]

theorem Shifted.perform (h : Shifted s t t') (a : Action) :
    Shifted s (t.perform a) (t'.perform a) := by
  cases a with
  | print c => exact h.close
  | execute b =>
      show Shifted s (t.execute b) (t'.execute b)
      unfold Tracker.execute
      rw [h.isSome]
      split
      · exact ⟨h.seqStart, h.nonGround, congrArg (· ++ [b]) h.embeddedC0, h.byte⟩
      · exact h
  | csiDispatch params inter c =>
      have hclosed : ∀ t : Tracker, (t.csiDispatch params inter c).seqStart = none ∧
          (t.csiDispatch params inter c).nonGround = false ∧
          (t.csiDispatch params inter c).embeddedC0 = [] ∧
          (t.csiDispatch params inter c).byte = t.byte := by
        intro t
        unfold Tracker.csiDispatch
        split
        · split
          · exact ⟨rfl, rfl, rfl, rfl⟩
          · exact ⟨rfl, rfl, rfl, rfl⟩
        · exact ⟨rfl, rfl, rfl, rfl⟩
      obtain ⟨h1, h2, h3, h4⟩ := hclosed t
      obtain ⟨h1', h2', h3', h4'⟩ := hclosed t'
      constructor
      case seqStart =>
        show (t.csiDispatch params inter c).seqStart = _
        rw [h1]
        show none = ((t'.csiDispatch params inter c).seqStart).map _
        rw [h1']
        rfl
      case nonGround => exact h2.trans h2'.symm
      case embeddedC0 => exact h3.trans h3'.symm
      case byte => exact h4.trans (h.byte.trans h4'.symm)
  | oscDispatch params bel =>
      show Shifted s (t.oscDispatch params) (t'.oscDispatch params)
      unfold Tracker.oscDispatch
      dsimp only
      have hend : ∀ {t t' : Tracker}, Shifted s t t' →
          Shifted s (if t.byte = 0x07 then t.close else t)
            (if t'.byte = 0x07 then t'.close else t') := by
        intro t t' h
        rw [h.byte]
        split
        · exact h.close
        · exact h
      apply hend
      cases hseq : t'.seqStart with
      | none =>
          have hnone := h.seqStart
          rw [hseq] at hnone
          rw [hnone]
          exact h
      | some s' =>
          have hsome := h.seqStart
          rw [hseq] at hsome
          rw [hsome]
          dsimp only [Option.map_some]
          split
          · exact ⟨h.seqStart, h.nonGround, rfl, h.byte⟩
          · exact h
  | escDispatch inter b => exact h.close
  | hook => exact ⟨rfl, h.nonGround, h.embeddedC0, h.byte⟩
  | put b => exact h
  | unhook => exact h.close

theorem Shifted.foldl (h : Shifted s t t') (acts : List Action) :
    Shifted s (acts.foldl Tracker.perform t) (acts.foldl Tracker.perform t') := by
  induction acts generalizing t t' with
  | nil => exact h
  | cons a acts ih => exact ih (h.perform a)

theorem Shifted.afterByte (h : Shifted s t t') (buf : List UInt8) (i : ℕ) (b : UInt8) :
    Shifted s (t.afterByte buf (s + i) b) (t'.afterByte (buf.drop s) i b) := by
  unfold Tracker.afterByte
  split
  · exact ⟨rfl, rfl, rfl, h.byte⟩
  · split
    · exact h.close
    · split
      · cases hseq : t'.seqStart with
        | none =>
            have hnone := h.seqStart
            rw [hseq] at hnone
            rw [hnone]
            exact h
        | some s' =>
            have hsome := h.seqStart
            rw [hseq] at hsome
            rw [hsome]
            dsimp only [Option.map_some]
            have hiff : (s + s' + 1 < s + i ∧ buf[s + s' + 1]? = some 0x5b) ↔
                (s' + 1 < i ∧ (buf.drop s)[s' + 1]? = some 0x5b) := by
              rw [List.getElem?_drop, ← Nat.add_assoc]
              constructor
              · exact fun hc => ⟨by omega, hc.2⟩
              · exact fun hc => ⟨by omega, hc.2⟩
            by_cases hcond : s' + 1 < i ∧ (buf.drop s)[s' + 1]? = some 0x5b
            · rw [if_pos hcond, if_pos (hiff.mpr hcond)]
              exact h.close
            · rw [if_neg hcond, if_neg fun hc => hcond (hiff.mp hc)]
              exact h
      · exact h

theorem Shifted.advance {σ : Type} {tok : Tokenizer σ} (h : Shifted s t t') {q q' : σ}
    (hsync : tok.ObsEq q q') (buf : List UInt8) (i : ℕ) (b : UInt8) :
    tok.ObsEq (scanByte tok buf q t (s + i) b).1 (scanByte tok (buf.drop s) q' t' i b).1 ∧
      Shifted s (scanByte tok buf q t (s + i) b).2 (scanByte tok (buf.drop s) q' t' i b).2 := by
  refine ⟨hsync.advance b, ?_⟩
  have hset : Shifted s { t with index := s + i, byte := b } { t' with index := i, byte := b } :=
    ⟨h.seqStart, h.nonGround, h.embeddedC0, rfl⟩
  have hfold := (hset.foldl (tok.advance q b).2).afterByte buf i b
  unfold scanByte
  dsimp only
  rw [← hsync.actions b]
  exact hfold

end

/-! ## Reading byte by byte -/

/-- The first `n` bytes read by a fresh scanner without its fast paths. -/
def byteRun {σ : Type} (tok : Tokenizer σ) (buf : List UInt8) : ℕ → σ × Tracker
  | 0 => (tok.start, {})
  | n + 1 =>
    match buf[n]? with
    | some b => scanByte tok buf (byteRun tok buf n).1 (byteRun tok buf n).2 n b
    | none => byteRun tok buf n

section

variable {σ : Type} {tok : Tokenizer σ} {buf : List UInt8} {b : UInt8} {n : ℕ}

theorem byteRun_succ (hbyte : buf[n]? = some b) :
    byteRun tok buf (n + 1) =
      scanByte tok buf (byteRun tok buf n).1 (byteRun tok buf n).2 n b := by
  conv_lhs => unfold byteRun
  rw [hbyte]

theorem byteRun_fst (hn : n ≤ buf.length) :
    (byteRun tok buf n).1 = tok.after (buf.take n) := by
  induction n with
  | zero => rfl
  | succ n ih =>
      have hbyte := List.getElem?_eq_getElem hn
      rw [byteRun_succ hbyte, List.take_add_one, hbyte, Option.toList_some, tok.after_append,
        ← ih (Nat.le_of_succ_le hn)]
      rfl

/-- Bytes behind the position do not matter. -/
theorem scanByte_append (q : σ) (t : Tracker) {i : ℕ} (hi : i ≤ buf.length) (b : UInt8)
    (more : List UInt8) : scanByte tok (buf ++ more) q t i b = scanByte tok buf q t i b := by
  have hafter : ∀ t : Tracker, t.afterByte (buf ++ more) i b = t.afterByte buf i b := by
    intro t
    unfold Tracker.afterByte
    cases t.seqStart with
    | none => rfl
    | some s =>
        dsimp only
        by_cases hs : s + 1 < i
        · rw [List.getElem?_append_left (hs.trans_le hi)]
        · simp only [hs, false_and, if_false]
  unfold scanByte
  dsimp only
  rw [hafter]

theorem byteRun_append (hn : n ≤ buf.length) (more : List UInt8) :
    byteRun tok (buf ++ more) n = byteRun tok buf n := by
  induction n with
  | zero => rfl
  | succ n ih =>
      have hbyte := List.getElem?_eq_getElem hn
      have hmore : (buf ++ more)[n]? = some buf[n] := by
        rw [List.getElem?_append_left hn]
        exact hbyte
      rw [byteRun_succ hbyte, byteRun_succ hmore, ih (Nat.le_of_succ_le hn),
        scanByte_append _ _ (Nat.le_of_succ_le hn)]

theorem byte_foldl (t : Tracker) (acts : List Action) :
    (acts.foldl Tracker.perform t).byte = t.byte := by
  induction acts generalizing t with
  | nil => rfl
  | cons a acts ih =>
      rw [List.foldl_cons, ih]
      cases a with
      | execute b =>
          show (t.execute b).byte = t.byte
          unfold Tracker.execute
          split
          · rfl
          · rfl
      | csiDispatch params inter c =>
          show (t.csiDispatch params inter c).byte = t.byte
          unfold Tracker.csiDispatch
          split
          · split
            · rfl
            · rfl
          · rfl
      | oscDispatch params bel =>
          show (t.oscDispatch params).byte = t.byte
          cases hs : t.seqStart with
          | none =>
              unfold Tracker.oscDispatch
              rw [hs]
              dsimp only
              split
              · rfl
              · rfl
          | some s =>
              rw [oscDispatch_open hs params bel]
              split_ifs
              · rfl
              · rfl
              · rfl
              · rfl
      | print c => rfl
      | escDispatch inter b => rfl
      | hook => rfl
      | put b => rfl
      | unhook => rfl

/-- An action keeps the open sequence or ends it. -/
theorem seqStart_foldl (t : Tracker) (acts : List Action) :
    (acts.foldl Tracker.perform t).seqStart = t.seqStart ∨
      (acts.foldl Tracker.perform t).seqStart = none := by
  induction acts generalizing t with
  | nil => exact Or.inl rfl
  | cons a acts ih =>
      have hstep : (t.perform a).seqStart = t.seqStart ∨ (t.perform a).seqStart = none := by
        by_cases hd : Dispatches a
        · cases a with
          | csiDispatch params inter c =>
              apply Or.inr
              show (t.csiDispatch params inter c).seqStart = none
              unfold Tracker.csiDispatch
              split
              · split
                · rfl
                · rfl
              · rfl
          | oscDispatch params bel =>
              show (t.oscDispatch params).seqStart = _ ∨ (t.oscDispatch params).seqStart = none
              cases hs : t.seqStart with
              | none =>
                  apply Or.inr
                  unfold Tracker.oscDispatch
                  rw [hs]
                  dsimp only
                  split
                  · rfl
                  · exact hs
              | some s =>
                  rw [oscDispatch_open hs params bel]
                  split_ifs
                  · exact Or.inr rfl
                  · exact Or.inr rfl
                  · exact Or.inl hs
                  · exact Or.inl hs
          | print c => exact hd.elim
          | execute b => exact hd.elim
          | escDispatch inter b => exact hd.elim
          | hook => exact hd.elim
          | put b => exact hd.elim
          | unhook => exact hd.elim
        · exact (keeps_perform t hd).2
      rcases ih (t.perform a) with hsame | hnone
      · rw [List.foldl_cons, hsame]
        exact hstep
      · exact Or.inr hnone

theorem seqStart_scanByte {q : σ} {t : Tracker} {i s : ℕ} (hne : b ≠ 0x1b)
    (h : (scanByte tok buf q t i b).2.seqStart = some s) :
    t.seqStart = some s ∧ ¬ (s + 1 < i ∧ buf[s + 1]? = some 0x5b ∧ CsiFinal b) := by
  unfold scanByte at h
  dsimp only at h
  generalize hfold : (tok.advance q b).2.foldl Tracker.perform { t with index := i, byte := b } = t1
    at h
  have hkept : t1.seqStart = t.seqStart ∨ t1.seqStart = none := by
    rw [← hfold]
    exact seqStart_foldl { t with index := i, byte := b } _
  have hopen : t1.afterByte buf i b = t1 := by
    rcases afterByte_cases t1 buf i hne with heq | heq
    · exact heq
    · rw [heq] at h
      cases h
  rw [hopen] at h
  constructor
  · rcases hkept with hsame | hnone
    · rw [← hsame]
      exact h
    · rw [hnone] at h
      cases h
  · rintro ⟨hlt, hbracket, hfinal⟩
    have habort : ¬ Aborts b := by
      rintro (rfl | rfl)
      · exact absurd hfinal (by decide)
      · exact absurd hfinal (by decide)
    have hclose : t1.afterByte buf i b = t1.close := by
      unfold Aborts at habort
      unfold CsiFinal at hfinal
      unfold Tracker.afterByte
      rw [if_neg hne, if_neg habort, if_pos hfinal, h]
      exact if_pos ⟨hlt, hbracket⟩
    rw [hclose] at hopen
    rw [← hopen] at h
    cases h

theorem closed_scanByte {q : σ} {t : Tracker} (h : Closed t) (i : ℕ) (b : UInt8) :
    Closed (scanByte tok buf q t i b).2 := by
  have hfold : Closed ((tok.advance q b).2.foldl Tracker.perform { t with index := i, byte := b }) :=
    closed_foldl (t := { t with index := i, byte := b }) h _
  by_cases hesc : b = 0x1b
  · subst hesc
    intro hfalse
    cases hfalse
  · exact closed_afterByte hfold buf i hesc

/-! ## What the held bytes tell -/

/-- INTERNAL: What the scanner knows about the open sequence is what its bytes tell. -/
structure ToldBy (tok : Tokenizer σ) (buf : List UInt8) (i : ℕ) (q : σ) (t : Tracker) (s : ℕ) :
    Prop where
  before : s < i
  esc : buf[s]? = some 0x1b
  sync : tok.ObsEq q (byteRun tok (buf.drop s) (i - s)).1
  tracker : Shifted s t (byteRun tok (buf.drop s) (i - s)).2
  unfinished : buf[s + 1]? = some 0x5b → ∀ j b, s + 1 < j → j < i → buf[j]? = some b → ¬ CsiFinal b

/-- INTERNAL: The tracker is closed in the ground state, and an open sequence can be read again. -/
structure Resumable (tok : Tokenizer σ) (buf : List UInt8) (i : ℕ) (q : σ) (t : Tracker) :
    Prop where
  closed : Closed t
  told : ∀ s, t.seqStart = some s → ToldBy tok buf i q t s

variable {i : ℕ} {q : σ} {t : Tracker}

theorem Resumable.ofNone (h : t.seqStart = none) : Resumable tok buf i q t := by
  refine ⟨fun _ => h, fun s hs => ?_⟩
  rw [h] at hs
  cases hs

/-- The ESC makes the tokenizers alike. -/
theorem toldBy_esc (hlaw : Lawful tok) (hbyte : buf[i]? = some 0x1b) :
    ToldBy tok buf (i + 1) (scanByte tok buf q t i 0x1b).1 (scanByte tok buf q t i 0x1b).2 i := by
  have hhead : (buf.drop i)[0]? = some 0x1b := by
    rw [List.getElem?_drop]
    exact hbyte
  have hone : byteRun tok (buf.drop i) (i + 1 - i) = scanByte tok (buf.drop i) tok.start {} 0 0x1b := by
    rw [Nat.add_sub_cancel_left]
    exact byteRun_succ hhead
  constructor
  case before => exact Nat.lt_succ_self i
  case esc => exact hbyte
  case sync =>
    rw [hone]
    exact hlaw.esc q tok.start
  case tracker =>
    rw [hone]
    refine ⟨rfl, rfl, rfl, ?_⟩
    show (List.foldl Tracker.perform _ _).byte = (List.foldl Tracker.perform _ _).byte
    rw [byte_foldl, byte_foldl]
  case unfinished =>
    intro _ j b hlt hle
    omega

/-- INTERNAL: One byte. -/
theorem resumable_byte (hlaw : Lawful tok) (h : Resumable tok buf i q t) (hbyte : buf[i]? = some b) :
    Resumable tok buf (i + 1) (scanByte tok buf q t i b).1 (scanByte tok buf q t i b).2 := by
  refine ⟨closed_scanByte h.closed i b, fun s hs => ?_⟩
  by_cases hesc : b = 0x1b
  · subst hesc
    cases hs
    exact toldBy_esc hlaw hbyte
  · obtain ⟨hopen, hnot⟩ := seqStart_scanByte hesc hs
    have hold := h.told s hopen
    have hlt := hold.before
    have hnext : (buf.drop s)[i - s]? = some b := by
      rw [List.getElem?_drop, Nat.add_sub_cancel' hlt.le]
      exact hbyte
    have hrun : byteRun tok (buf.drop s) (i + 1 - s) =
        scanByte tok (buf.drop s) (byteRun tok (buf.drop s) (i - s)).1
          (byteRun tok (buf.drop s) (i - s)).2 (i - s) b := by
      rw [Nat.sub_add_comm hlt.le]
      exact byteRun_succ hnext
    obtain ⟨hsync, htracker⟩ := hold.tracker.advance hold.sync buf (i - s) b
    rw [Nat.add_sub_cancel' hlt.le] at hsync htracker
    constructor
    case before => exact hlt.trans (Nat.lt_succ_self i)
    case esc => exact hold.esc
    case sync =>
      rw [hrun]
      exact hsync
    case tracker =>
      rw [hrun]
      exact htracker
    case unfinished =>
      intro hbracket j c hj hle hc
      rcases Nat.lt_succ_iff_lt_or_eq.mp hle with hbefore | rfl
      · exact hold.unfinished hbracket j c hj hbefore hc
      · rw [hbyte] at hc
        cases hc
        exact fun hfinal => hnot ⟨hj, hbracket, hfinal⟩

/-- INTERNAL: The loop.
SRC: scanner.rs:190-228 -/
theorem resumable_scanLoop (hlaw : Lawful tok) (fuel : ℕ) :
    ∀ {i : ℕ} {q : σ} {t : Tracker}, i ≤ buf.length → buf.length - i < fuel →
      Resumable tok buf i q t →
      Resumable tok buf buf.length (scanLoop tok buf fuel q t i).1
        (scanLoop tok buf fuel q t i).2 := by
  induction fuel with
  | zero =>
      intro i q t _ hfuel
      omega
  | succ fuel ih =>
      intro i q t hi hfuel h
      unfold scanLoop
      cases hground : t.nonGround with
      | true =>
          rw [if_pos rfl]
          cases hbyte : buf[i]? with
          | none =>
              have hend : i = buf.length := by
                have hge := List.getElem?_eq_none_iff.mp hbyte
                omega
              rw [← hend]
              exact h
          | some b =>
              have hlt := (List.getElem?_eq_some_iff.mp hbyte).1
              exact ih (by omega) (by omega) (resumable_byte hlaw h hbyte)
      | false =>
          have hnone := h.closed hground
          rw [if_neg Bool.false_ne_true, findEsc_eq]
          cases hfind : (buf.drop i).findIdx? (· = 0x1b) with
          | none => exact Resumable.ofNone hnone
          | some p =>
              obtain ⟨hp, -, hesc⟩ := findIdx?_esc hfind
              rw [List.length_drop] at hp
              rw [List.getElem?_drop] at hesc
              dsimp only
              cases hcsi : completeOtherCsi (buf.drop (i + p)) with
              | some n =>
                  obtain ⟨params, fin, rest, hbuf, rfl, -, -, -⟩ := completeOtherCsi_cases hcsi
                  have hlen := congrArg List.length hbuf
                  simp only [List.length_drop, List.length_cons, List.length_append] at hlen
                  exact ih (by omega) (by omega) (Resumable.ofNone hnone)
              | none =>
                  exact ih (by omega) (by omega) (resumable_byte hlaw (Resumable.ofNone hnone) hesc)

/-! ## Reachable scanners -/

/-- The scanners that the operations give.
SRC: scanner.rs:120-188 -/
inductive Reachable (tok : Tokenizer σ) : QueryScanner σ → Prop
  | default : Reachable tok (QueryScanner.default tok)
  | feed {scanner : QueryScanner σ} (h : Reachable tok scanner) (chunk : List UInt8) :
      Reachable tok (scanner.feed tok chunk).2
  | takeHeld {scanner : QueryScanner σ} (h : Reachable tok scanner) :
      Reachable tok scanner.takeHeld.2

/-- INTERNAL: A scanner that holds bytes can be made again from them. -/
structure Holding (tok : Tokenizer σ) (scanner : QueryScanner σ) : Prop where
  grounded : scanner.tracker.nonGround = false → scanner.held = []
  short : scanner.held.length ≤ maxHeld
  told : scanner.held ≠ [] → ToldBy tok scanner.held scanner.held.length scanner.parser
    { scanner.tracker with removals := [], seqStart := some 0 } 0

theorem ToldBy.append {s : ℕ} (h : ToldBy tok buf buf.length q t s) (more : List UInt8) :
    ToldBy tok (buf ++ more) buf.length q t s := by
  have hdrop : (buf ++ more).drop s = buf.drop s ++ more :=
    List.drop_append_of_le_length h.before.le
  have hrun : byteRun tok ((buf ++ more).drop s) (buf.length - s) =
      byteRun tok (buf.drop s) (buf.length - s) := by
    rw [hdrop]
    apply byteRun_append
    rw [List.length_drop]
  constructor
  case before => exact h.before
  case esc =>
    rw [List.getElem?_append_left h.before]
    exact h.esc
  case sync =>
    rw [hrun]
    exact h.sync
  case tracker =>
    rw [hrun]
    exact h.tracker
  case unfinished =>
    intro hbracket j b hj hlt hb
    rw [List.getElem?_append_left hlt] at hb
    rw [List.getElem?_append_left (hj.trans hlt)] at hbracket
    exact h.unfinished hbracket j b hj hlt hb

theorem holding_finish (h : Resumable tok buf buf.length q t) :
    Holding tok (QueryScanner.finish q t buf).2 := by
  by_cases hhold : ∃ s, t.seqStart = some s ∧ buf.length - s ≤ maxHeld
  · obtain ⟨s, hs, hle⟩ := hhold
    have hold := h.told s hs
    have hlt := hold.before
    rw [(finish_hold q hs hlt hle).2]
    constructor
    case grounded =>
      intro hground
      have hnone := h.closed hground
      rw [hs] at hnone
      cases hnone
    case short =>
      rw [List.length_drop]
      exact hle
    case told =>
      intro _
      dsimp only
      have hzero : (byteRun tok (buf.drop s) (buf.length - s)).2.seqStart = some 0 := by
        have hmap := hold.tracker.seqStart
        rw [hs] at hmap
        obtain ⟨s', hs', hsum⟩ := Option.map_eq_some_iff.mp hmap.symm
        rw [hs']
        congr 1
        omega
      constructor
      case before =>
        rw [List.length_drop]
        omega
      case esc =>
        rw [List.getElem?_drop]
        exact hold.esc
      case sync =>
        rw [List.length_drop]
        exact hold.sync
      case tracker =>
        rw [List.length_drop]
        refine ⟨?_, hold.tracker.nonGround, hold.tracker.embeddedC0, hold.tracker.byte⟩
        show some 0 = ((byteRun tok (buf.drop s) (buf.length - s)).2.seqStart).map _
        rw [hzero]
        rfl
      case unfinished =>
        intro hbracket j b hj hlt' hb
        rw [List.getElem?_drop] at hbracket hb
        rw [List.length_drop] at hlt'
        exact hold.unfinished hbracket (s + j) b (by omega) (by omega) hb
  · obtain ⟨-, t', hsnd, -⟩ := finish_release q hhold
    rw [hsnd]
    exact ⟨fun _ => rfl, Nat.zero_le _, fun hne => absurd rfl hne⟩

theorem holding_feed (hlaw : Lawful tok) {scanner : QueryScanner σ} (h : Holding tok scanner)
    (chunk : List UInt8) : Holding tok (scanner.feed tok chunk).2 := by
  unfold QueryScanner.feed
  split
  · exact h
  · apply holding_finish
    apply resumable_scanLoop hlaw
    · rw [List.length_append]
      omega
    · omega
    · by_cases hheld : scanner.held = []
      · apply Resumable.ofNone
        rw [hheld]
        rfl
      · have hpos : 0 < scanner.held.length := List.length_pos_iff.mpr hheld
        rw [if_pos hpos]
        constructor
        case closed =>
          intro hground
          exact absurd (h.grounded hground) hheld
        case told =>
          intro s hs
          cases hs
          exact (h.told hheld).append chunk

/-- INTERNAL: So can every reachable one. -/
theorem Reachable.holding (hlaw : Lawful tok) {scanner : QueryScanner σ}
    (h : Reachable tok scanner) : Holding tok scanner := by
  induction h with
  | default => exact ⟨fun _ => rfl, Nat.zero_le _, fun hne => absurd rfl hne⟩
  | feed _ chunk ih => exact holding_feed hlaw ih chunk
  | takeHeld _ ih => exact ⟨fun _ => rfl, Nat.zero_le _, fun hne => absurd rfl hne⟩

/-! ## A fresh scanner -/

/-- A sequence that is open at the end of the bytes was open all the way. -/
theorem byteRun_open (hn : n ≤ buf.length)
    (h : (byteRun tok buf n).2.seqStart = some 0) {k : ℕ} (hpos : 0 < k) (hk : k ≤ n) :
    (byteRun tok buf k).2.seqStart = some 0 := by
  induction n with
  | zero => omega
  | succ n ih =>
      rcases Nat.eq_or_lt_of_le hk with rfl | hlt
      · exact h
      · have hbyte := List.getElem?_eq_getElem hn
        apply ih (Nat.le_of_succ_le hn) _ (Nat.le_of_lt_succ hlt)
        rw [byteRun_succ hbyte] at h
        by_cases hb : buf[n] = 0x1b
        · -- a second ESC would have moved the start
          rw [hb] at h
          have hzero : some n = some 0 := h
          have hn0 : n = 0 := Option.some_inj.mp hzero
          omega
        · exact (seqStart_scanByte hb h).1

theorem closed_byteRun (buf : List UInt8) (n : ℕ) : Closed (byteRun tok buf n).2 := by
  induction n with
  | zero => exact fun _ => rfl
  | succ n ih =>
      unfold byteRun
      split
      · exact closed_scanByte ih n _
      · exact ih

/-- A byte that is no ESC, CAN or SUB ends a CSI, or it is a BEL that ends an OSC, or nothing
ends. -/
theorem Allowed.cases {p : Phase} {acts : List Action} (h : Allowed p b acts) (hne : b ≠ 0x1b)
    (habort : ¬ Aborts b) :
    (∀ a ∈ acts, ¬ Dispatches a) ∨ (∃ params inter c, acts = [.csiDispatch params inter c]) ∨
      b = 0x07 ∧ ∃ params, acts = [.oscDispatch params true] := by
  have hnil : acts = [] → ∀ a ∈ acts, ¬ Dispatches a := by
    intro hacts
    rw [hacts]
    exact fun a ha => absurd ha List.not_mem_nil
  have hexecute : acts = [.execute b] → ∀ a ∈ acts, ¬ Dispatches a := by
    intro hacts
    rw [hacts]
    intro a ha
    rw [List.mem_singleton.mp ha]
    exact id
  cases p with
  | calm => exact Or.inl h
  | escape =>
      unfold Allowed at h
      dsimp only at h
      split at h
      · exact Or.inl (hnil h)
      · split at h
        · exact Or.inl (hexecute h)
        · exact Or.inl h
  | csi =>
      unfold Allowed at h
      dsimp only at h
      split at h
      · rcases h with hacts | ⟨params, inter, hacts⟩
        · exact Or.inl (hnil hacts)
        · exact Or.inr (Or.inl ⟨params, inter, _, hacts⟩)
      · split at h
        · exact Or.inl (hexecute h)
        · exact Or.inl (hnil h)
  | osc =>
      unfold Allowed at h
      dsimp only at h
      split at h
      · rename_i hbel
        exact Or.inr (Or.inr ⟨hbel, h⟩)
      · exact Or.inl (hnil h)

/-- While a sequence stays open nothing is removed. -/
theorem removals_scanByte (hlaw : Lawful tok) {u : List UInt8} {t : Tracker} {i s : ℕ}
    (hne : b ≠ 0x1b) (h : (scanByte tok buf (tok.after u) t i b).2.seqStart = some s) :
    (scanByte tok buf (tok.after u) t i b).2.removals = t.removals := by
  have hscan : (scanByte tok buf (tok.after u) t i b).2 =
      ((tok.advance (tok.after u) b).2.foldl Tracker.perform
        { t with index := i, byte := b }).afterByte buf i b := rfl
  rw [hscan] at h ⊢
  have habort : ¬ Aborts b := by
    intro habort
    rw [afterByte_of_aborts _ buf i habort] at h
    cases h
  -- a sequence that ended here would be closed
  have hopen : ∀ t1 : Tracker, t1.seqStart = none → (t1.afterByte buf i b).seqStart ≠ some s := by
    intro t1 hnone hsome
    rcases (keeps_afterByte t1 buf i hne).2 with hsame | hclosed
    · rw [hsame, hnone] at hsome
      cases hsome
    · rw [hclosed] at hsome
      cases hsome
  rcases (hlaw.allowed u b).cases hne habort with hquiet | ⟨params, inter, c, hacts⟩ | ⟨hbel, params, hacts⟩
  · rw [(keeps_afterByte _ buf i hne).1]
    exact (keeps_foldl { t with index := i, byte := b } hquiet).1
  · rw [hacts] at h
    refine absurd h (hopen _ ?_)
    show (Tracker.csiDispatch _ params inter c).seqStart = none
    unfold Tracker.csiDispatch
    split
    · split
      · rfl
      · rfl
    · rfl
  · rw [hacts] at h
    refine absurd h (hopen _ ?_)
    show (Tracker.oscDispatch _ params).seqStart = none
    cases hs : t.seqStart with
    | none =>
        unfold Tracker.oscDispatch
        dsimp only
        exact congrArg Tracker.seqStart (if_pos hbel)
    | some s' =>
        rw [oscDispatch_open rfl params true, if_pos hbel]
        split
        · rfl
        · rfl

theorem removals_byteRun (hlaw : Lawful tok) (hesc : buf[0]? = some 0x1b) (hn : n ≤ buf.length)
    (h : (byteRun tok buf n).2.seqStart = some 0) : (byteRun tok buf n).2.removals = [] := by
  induction n with
  | zero => rfl
  | succ n ih =>
      have hbyte := List.getElem?_eq_getElem hn
      have hfst : (byteRun tok buf n).1 = tok.after (buf.take n) :=
        byteRun_fst (Nat.le_of_succ_le hn)
      rcases Nat.eq_zero_or_pos n with rfl | hpos
      · rw [byteRun_succ hesc]
        exact (keeps_foldl ({ index := 0, byte := 0x1b } : Tracker) (hlaw.allowed [] 0x1b)).1
      · have hbefore := byteRun_open hn h hpos (Nat.le_succ n)
        rw [byteRun_succ hbyte] at h ⊢
        have hne : buf[n] ≠ 0x1b := by
          intro hb
          rw [hb] at h
          have hzero : n = 0 := Option.some_inj.mp h
          omega
        rw [hfst] at h ⊢
        rw [removals_scanByte hlaw hne h]
        exact ih (Nat.le_of_succ_le hn) hbefore

/-- Outside of the ground state the loop reads byte by byte. -/
theorem scanLoop_byteRun (fuel : ℕ) (hn : n ≤ buf.length) (hfuel : buf.length - n < fuel)
    (hopen : ∀ k, n ≤ k → k ≤ buf.length → (byteRun tok buf k).2.nonGround = true) :
    scanLoop tok buf fuel (byteRun tok buf n).1 (byteRun tok buf n).2 n =
      byteRun tok buf buf.length := by
  induction fuel generalizing n with
  | zero => omega
  | succ fuel ih =>
      unfold scanLoop
      rw [if_pos (hopen n (Nat.le_refl n) hn)]
      rcases Nat.eq_or_lt_of_le hn with rfl | hlt
      · rw [List.getElem?_eq_none (Nat.le_refl _)]
      · have hbyte := List.getElem?_eq_getElem hlt
        rw [hbyte]
        dsimp only
        rw [← byteRun_succ hbyte]
        exact ih hlt (by omega) fun k hk hk' => hopen k (by omega) hk'

/-- INTERNAL: A fresh scanner that is fed held bytes gives nothing out and holds them. -/
theorem feed_default (hlaw : Lawful tok) {h : List UInt8} (hesc : h[0]? = some 0x1b)
    (hshort : h.length ≤ maxHeld) (hopen : (byteRun tok h h.length).2.seqStart = some 0)
    (hunfinished : h[1]? = some 0x5b → ∀ j b, 1 < j → j < h.length → h[j]? = some b → ¬ CsiFinal b) :
    (QueryScanner.default tok).feed tok h =
      (⟨[], none⟩, ⟨(byteRun tok h h.length).1, (byteRun tok h h.length).2, h⟩) := by
  have hpos : 0 < h.length := (List.getElem?_eq_some_iff.mp hesc).1
  have hground : ∀ k, 1 ≤ k → k ≤ h.length → (byteRun tok h k).2.nonGround = true := by
    intro k hk hle
    cases hground : (byteRun tok h k).2.nonGround with
    | true => rfl
    | false =>
        have hnone := closed_byteRun h k hground
        rw [byteRun_open (Nat.le_refl _) hopen hk hle] at hnone
        cases hnone
  have hfind : h.findIdx? (· = 0x1b) = some 0 := by
    cases h with
    | nil => cases hesc
    | cons b rest =>
        rw [List.getElem?_cons_zero] at hesc
        cases hesc
        rfl
  have hcsi : completeOtherCsi h = none := by
    cases hcsi : completeOtherCsi h with
    | none => rfl
    | some m =>
        obtain ⟨params, fin, rest, rfl, -, -, hfinal, -⟩ := completeOtherCsi_cases hcsi
        refine absurd hfinal (hunfinished rfl (params.length + 2) fin (by omega) ?_ ?_)
        · simp
        · simp
  have hscan : scan tok tok.start {} h 0 = byteRun tok h h.length := by
    unfold scan scanLoop
    rw [if_neg Bool.false_ne_true, findEsc_eq, List.drop_zero, hfind]
    dsimp only
    rw [List.drop_zero, hcsi]
    dsimp only
    have hone : byteRun tok h 1 = scanByte tok h tok.start {} 0 0x1b := byteRun_succ hesc
    show scanLoop tok h h.length (scanByte tok h tok.start {} 0 0x1b).1
      (scanByte tok h tok.start {} 0 0x1b).2 1 = _
    rw [← hone]
    exact scanLoop_byteRun h.length hpos (by omega) hground
  have hcontains : h.contains 0x1b = true := by
    rw [List.contains_iff_mem]
    exact List.mem_of_getElem? hesc
  unfold QueryScanner.feed
  rw [hcontains]
  show QueryScanner.finish (scan tok tok.start {} h 0).1 (scan tok tok.start {} h 0).2 h = _
  rw [hscan]
  obtain ⟨hfrom, hsnd⟩ := finish_hold (byteRun tok h h.length).1 hopen hpos (by omega)
  refine Prod.ext ?_ ?_
  · rw [finish_fst, hfrom, removals_byteRun hlaw hesc (Nat.le_refl _) hopen]
    rfl
  · rw [hsnd]
    rfl

/-! ## The rest of the output -/

/-- INTERNAL: Two scanners that read the same from now on. -/
structure Alike (tok : Tokenizer σ) (scanner scanner' : QueryScanner σ) : Prop where
  held : scanner.held = scanner'.held
  nonGround : scanner.tracker.nonGround = scanner'.tracker.nonGround
  embeddedC0 : scanner.tracker.embeddedC0 = scanner'.tracker.embeddedC0
  sync : scanner.tracker.nonGround = true → tok.ObsEq scanner.parser scanner'.parser
  grounded : scanner.tracker.nonGround = false → scanner.held = []

/-- INTERNAL: The same inside of a chunk. -/
structure AlikeAt (tok : Tokenizer σ) (q q' : σ) (t t' : Tracker) : Prop where
  seqStart : t.seqStart = t'.seqStart
  nonGround : t.nonGround = t'.nonGround
  embeddedC0 : t.embeddedC0 = t'.embeddedC0
  removals : t.removals = t'.removals
  sync : t.nonGround = true → tok.ObsEq q q'
  closed : Closed t

variable {q' : σ} {t' : Tracker}

theorem alikeAt_byte (hlaw : Lawful tok) (h : AlikeAt tok q q' t t') (i : ℕ)
    (hreads : t.nonGround = true ∨ b = 0x1b) :
    AlikeAt tok (scanByte tok buf q t i b).1 (scanByte tok buf q' t' i b).1
      (scanByte tok buf q t i b).2 (scanByte tok buf q' t' i b).2 := by
  have hclosed : Closed (scanByte tok buf q t i b).2 := closed_scanByte h.closed i b
  cases hground : t.nonGround with
  | true =>
      have hsync := h.sync hground
      have htrackers : (scanByte tok buf q t i b).2 = (scanByte tok buf q' t' i b).2 := by
        have hset : { t with index := i, byte := b } = { t' with index := i, byte := b } := by
          rw [h.seqStart, h.nonGround, h.embeddedC0, h.removals]
        unfold scanByte
        dsimp only
        rw [hsync.actions b, hset]
      refine ⟨?_, ?_, ?_, ?_, fun _ => hsync.advance b, hclosed⟩
      · rw [htrackers]
      · rw [htrackers]
      · rw [htrackers]
      · rw [htrackers]
  | false =>
      have hesc : b = 0x1b := by
        rcases hreads with hopen | hesc
        · rw [hground] at hopen
          cases hopen
        · exact hesc
      subst hesc
      have hnone := h.closed hground
      have hkeeps := keeps_of_seqStart_none (t := { t with index := i, byte := 0x1b }) hnone
        (tok.advance q 0x1b).2
      have hkeeps' := keeps_of_seqStart_none (t := { t' with index := i, byte := 0x1b })
        (h.seqStart.symm.trans hnone) (tok.advance q' 0x1b).2
      refine ⟨rfl, rfl, rfl, ?_, fun _ => hlaw.esc q q', hclosed⟩
      exact hkeeps.1.trans (h.removals.trans hkeeps'.1.symm)

/-- INTERNAL: The loop. -/
theorem alikeAt_scanLoop (hlaw : Lawful tok) (fuel : ℕ) :
    ∀ {i : ℕ} {q q' : σ} {t t' : Tracker}, AlikeAt tok q q' t t' →
      AlikeAt tok (scanLoop tok buf fuel q t i).1 (scanLoop tok buf fuel q' t' i).1
        (scanLoop tok buf fuel q t i).2 (scanLoop tok buf fuel q' t' i).2 := by
  induction fuel with
  | zero =>
      intro i q q' t t' h
      exact h
  | succ fuel ih =>
      intro i q q' t t' h
      unfold scanLoop
      rw [← h.nonGround]
      cases hground : t.nonGround with
      | true =>
          rw [if_pos rfl, if_pos rfl]
          cases hbyte : buf[i]? with
          | none => exact h
          | some b => exact ih (alikeAt_byte hlaw h i (Or.inl hground))
      | false =>
          rw [if_neg Bool.false_ne_true, if_neg Bool.false_ne_true]
          cases findEsc (buf.drop i) with
          | none => exact h
          | some p =>
              dsimp only
              cases completeOtherCsi (buf.drop (i + p)) with
              | some m => exact ih h
              | none => exact ih (alikeAt_byte hlaw h (i + p) (Or.inr rfl))

theorem alike_finish (h : AlikeAt tok q q' t t') :
    (QueryScanner.finish q t buf).1 = (QueryScanner.finish q' t' buf).1 ∧
      Alike tok (QueryScanner.finish q t buf).2 (QueryScanner.finish q' t' buf).2 := by
  have hfrom : holdFrom t buf = holdFrom t' buf := by
    unfold holdFrom
    rw [h.seqStart]
  constructor
  · rw [finish_fst, finish_fst, hfrom, h.removals]
  · unfold QueryScanner.finish
    show Alike tok (if holdFrom t buf < buf.length then _ else _ : Scanned × QueryScanner σ).2
      (if holdFrom t' buf < buf.length then _ else _ : Scanned × QueryScanner σ).2
    rw [← hfrom, ← h.seqStart]
    by_cases hlt : holdFrom t buf < buf.length
    · rw [if_pos hlt, if_pos hlt]
      constructor
      case held => rfl
      case nonGround => exact h.nonGround
      case embeddedC0 => exact h.embeddedC0
      case sync => exact h.sync
      case grounded =>
        intro hground
        -- something is held, so a sequence is open
        have hnone := h.closed hground
        unfold holdFrom at hlt
        rw [hnone] at hlt
        exact absurd hlt (lt_irrefl _)
    · rw [if_neg hlt, if_neg hlt]
      split
      · exact ⟨rfl, h.nonGround, rfl, h.sync, fun _ => rfl⟩
      · exact ⟨rfl, h.nonGround, h.embeddedC0, h.sync, fun _ => rfl⟩

/-- INTERNAL: One chunk.
SRC: scanner.rs:132-188 -/
theorem alike_feed (hlaw : Lawful tok) {scanner scanner' : QueryScanner σ}
    (h : Alike tok scanner scanner') (chunk : List UInt8) :
    (scanner.feed tok chunk).1 = (scanner'.feed tok chunk).1 ∧
      Alike tok (scanner.feed tok chunk).2 (scanner'.feed tok chunk).2 := by
  unfold QueryScanner.feed
  rw [← h.held, ← h.nonGround]
  split
  · exact ⟨rfl, h⟩
  · apply alike_finish
    apply alikeAt_scanLoop hlaw
    refine ⟨rfl, h.nonGround, h.embeddedC0, rfl, h.sync, ?_⟩
    intro hground
    rw [h.grounded hground]
    rfl

theorem alike_feedAll (hlaw : Lawful tok) {scanner scanner' : QueryScanner σ}
    (h : Alike tok scanner scanner') (chunks : List (List UInt8)) :
    (scanner.feedAll tok chunks).1 = (scanner'.feedAll tok chunks).1 ∧
      (scanner.feedAll tok chunks).2.held = (scanner'.feedAll tok chunks).2.held := by
  induction chunks generalizing scanner scanner' with
  | nil => exact ⟨rfl, h.held⟩
  | cons chunk chunks ih =>
      obtain ⟨hsame, halike⟩ := alike_feed hlaw h chunk
      obtain ⟨hrest, hheld⟩ := ih halike
      refine ⟨?_, hheld⟩
      show (scanner.feed tok chunk).1 :: _ = (scanner'.feed tok chunk).1 :: _
      rw [hsame, hrest]

/-- A scanner that holds bytes is handed over by feeding them to a fresh one: this gives nothing
out, the fresh scanner holds the same bytes, and from then on both give out the same for all
chunks.
SRC: scanner.rs:113-257, pane.rs:516-524, pane/handoff.rs:56-86 -/
theorem handoff_bisimulation (hlaw : Lawful tok) {scanner : QueryScanner σ}
    (hreach : Reachable tok scanner) (hheld : scanner.held ≠ []) :
    let fresh := (QueryScanner.default tok).feed tok scanner.held
    fresh.1.raw = [] ∧ fresh.1.removed = none ∧ fresh.2.held = scanner.held ∧
      ∀ chunks, (fresh.2.feedAll tok chunks).1.map (fun s => (s.raw, s.stripped)) =
        (scanner.feedAll tok chunks).1.map (fun s => (s.raw, s.stripped)) := by
  have hholding := hreach.holding hlaw
  have htold := hholding.told hheld
  have hrun : byteRun tok (scanner.held.drop 0) (scanner.held.length - 0) =
      byteRun tok scanner.held scanner.held.length := rfl
  have hopen : (byteRun tok scanner.held scanner.held.length).2.seqStart = some 0 := by
    have hmap := htold.tracker.seqStart
    obtain ⟨s, hs, hsum⟩ := Option.map_eq_some_iff.mp hmap.symm
    rw [hrun] at hs
    rw [hs]
    congr 1
    omega
  have hfresh := feed_default hlaw htold.esc hholding.short hopen htold.unfinished
  dsimp only
  rw [hfresh]
  refine ⟨rfl, rfl, rfl, fun chunks => ?_⟩
  have halike : Alike tok scanner ⟨(byteRun tok scanner.held scanner.held.length).1,
      (byteRun tok scanner.held scanner.held.length).2, scanner.held⟩ :=
    ⟨rfl, htold.tracker.nonGround, htold.tracker.embeddedC0, fun _ => htold.sync,
      hholding.grounded⟩
  rw [(alike_feedAll hlaw halike chunks).1]

end

/-- A CSI that a chunk cuts after a parameter and a LF. -/
theorem handoff_bisimulation_cut :
    let scanner := ((QueryScanner.default vte).feed vte [0x61, 0x1b, 0x5b, 0x35, 0x0a]).2
    let fresh := (QueryScanner.default vte).feed vte scanner.held
    scanner.held = [0x1b, 0x5b, 0x35, 0x0a] ∧ fresh.2.held = scanner.held ∧
      ∀ chunks, (fresh.2.feedAll vte chunks).1.map (fun s => (s.raw, s.stripped)) =
        (scanner.feedAll vte chunks).1.map (fun s => (s.raw, s.stripped)) := by
  have hheld : ((QueryScanner.default vte).feed vte [0x61, 0x1b, 0x5b, 0x35, 0x0a]).2.held =
      [0x1b, 0x5b, 0x35, 0x0a] := by
    decide +kernel
  obtain ⟨-, -, hsame, hchunks⟩ :=
    handoff_bisimulation lawful_vte (Reachable.feed Reachable.default _)
      (show ((QueryScanner.default vte).feed vte [0x61, 0x1b, 0x5b, 0x35, 0x0a]).2.held ≠ [] by
        rw [hheld]
        exact List.cons_ne_nil _ _)
  exact ⟨hheld, hsame, hchunks⟩

end Tymux.Analysis
