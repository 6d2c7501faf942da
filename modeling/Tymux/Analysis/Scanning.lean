import Tymux.Analysis.QueryWalk
import Mathlib.Data.List.Induction

/-!
# The scanner beside the emulator

What the tracker of the scanner knows, against the bytes read so far: outside of the ground state
its tokenizer agrees with the emulator's, and whenever a CSI or an OSC is open it has the position
of the ESC and the controls executed since. So it removes a range exactly where the walk cuts a
query out (`scanByte_spec`), and what it gives out is what the walk has cut (`ViewInv`).
-/

set_option autoImplicit false

namespace Tymux.Analysis

open Tymux.Model.Vt Tymux.Model.TerminalQuery Tymux.Analysis.Vt Tymux.Lib

/-! ## Removed ranges -/

/-- The first `k` bytes without the removed ranges. -/
def cutAt (buf : List UInt8) (removals : List Removal) (k : ℕ) : List UInt8 :=
  cutRemovals (buf.take k) removals

/-- The ranges lie before `k`. -/
def Before (k : ℕ) (removals : List Removal) : Prop :=
  ∀ r ∈ removals, r.start ≤ k ∧ r.stop ≤ k

theorem Before.mono {k j : ℕ} {removals : List Removal} (h : Before k removals) (hle : k ≤ j) :
    Before j removals :=
  fun r hr => ⟨(h r hr).1.trans hle, (h r hr).2.trans hle⟩

/-- The ranges already copied, and where the copy goes on. -/
def cutFold (emit : List UInt8) (removals : List Removal) : List UInt8 × ℕ :=
  removals.foldl
    (fun acc r => (acc.1 ++ (emit.take r.start).drop acc.2 ++ r.controls, r.stop)) ([], 0)

theorem cutRemovals_eq (emit : List UInt8) (removals : List Removal) :
    cutRemovals emit removals =
      (cutFold emit removals).1 ++ emit.drop (cutFold emit removals).2 := rfl

/-- The fold only looks at the bytes before `k`, and ends before it. -/
theorem cutFold_take (buf : List UInt8) {k : ℕ} {removals : List Removal} (h : Before k removals) :
    cutFold (buf.take k) removals = cutFold buf removals ∧ (cutFold buf removals).2 ≤ k := by
  induction removals using List.reverseRecOn with
  | nil => exact ⟨rfl, Nat.zero_le _⟩
  | append_singleton removals r ih =>
      obtain ⟨heq, -⟩ := ih fun r' hr' => h r' (List.mem_append_left _ hr')
      obtain ⟨hstart, hstop⟩ := h r (List.mem_append_right _ (List.mem_singleton_self r))
      unfold cutFold at heq ⊢
      rw [List.foldl_append, List.foldl_append, heq]
      refine ⟨?_, hstop⟩
      simp only [List.foldl_cons, List.foldl_nil, List.take_take, Nat.min_eq_left hstart]

/-- INTERNAL: Past the removed ranges the bytes are copied. -/
theorem cutAt_add (buf : List UInt8) {k j : ℕ} {removals : List Removal} (h : Before k removals)
    (hle : k ≤ j) : cutAt buf removals j = cutAt buf removals k ++ (buf.take j).drop k := by
  obtain ⟨hk, hat⟩ := cutFold_take buf h
  obtain ⟨hj, -⟩ := cutFold_take buf (h.mono hle)
  unfold cutAt
  rw [cutRemovals_eq, cutRemovals_eq, hk, hj, List.append_assoc]
  congr 1
  have hsplit : buf.take j = buf.take k ++ (buf.take j).drop k := by
    have htake := List.take_append_drop k (buf.take j)
    rw [List.take_take, Nat.min_eq_left hle] at htake
    exact htake.symm
  by_cases hlen : (cutFold buf removals).2 ≤ (buf.take k).length
  · calc (buf.take j).drop (cutFold buf removals).2
        = (buf.take k ++ (buf.take j).drop k).drop (cutFold buf removals).2 := by rw [← hsplit]
      _ = (buf.take k).drop (cutFold buf removals).2 ++ (buf.take j).drop k :=
        List.drop_append_of_le_length hlen
  · -- the buffer ends before `k`
    rw [List.length_take] at hlen
    have hshort : buf.length < (cutFold buf removals).2 := by omega
    rw [List.drop_eq_nil_of_le, List.drop_eq_nil_of_le, List.drop_eq_nil_of_le, List.nil_append]
    · rw [List.length_take]
      omega
    · rw [List.length_take]
      omega
    · rw [List.length_take]
      omega

/-- INTERNAL: A new range at the end is replaced by its controls. -/
theorem cutAt_remove (buf : List UInt8) {s stop : ℕ} {removals : List Removal}
    (h : Before s removals) (hle : s ≤ stop) (controls : List UInt8) :
    cutAt buf (removals ++ [⟨s, stop, controls⟩]) stop = cutAt buf removals s ++ controls := by
  obtain ⟨hs, -⟩ := cutFold_take buf h
  obtain ⟨hstop, -⟩ := cutFold_take buf (h.mono hle)
  unfold cutAt
  rw [cutRemovals_eq, cutRemovals_eq, hs]
  have hfold : cutFold (buf.take stop) (removals ++ [⟨s, stop, controls⟩]) =
      ((cutFold buf removals).1 ++ (buf.take s).drop (cutFold buf removals).2 ++ controls, stop) := by
    unfold cutFold at hstop ⊢
    rw [List.foldl_append, hstop]
    simp only [List.foldl_cons, List.foldl_nil, List.take_take, Nat.min_eq_left hle]
  have hnil : (buf.take stop).drop stop = [] := by
    apply List.drop_eq_nil_of_le
    rw [List.length_take]
    omega
  rw [hfold]
  dsimp only
  rw [hnil, List.append_nil]

/-! ## The tracker -/

/-- The tracker in the ground state has no open sequence. -/
def Closed (t : Tracker) : Prop := t.nonGround = false → t.seqStart = none

theorem closed_close (t : Tracker) : Closed t.close := fun _ => rfl

theorem closed_perform {t : Tracker} (h : Closed t) (a : Action) : Closed (t.perform a) := by
  cases a with
  | print c => exact closed_close t
  | execute b =>
      show Closed (t.execute b)
      unfold Tracker.execute
      split
      · exact h
      · exact h
  | csiDispatch params inter c =>
      show Closed (t.csiDispatch params inter c)
      unfold Tracker.csiDispatch
      split
      · split
        · exact closed_close _
        · exact closed_close _
      · exact closed_close _
  | oscDispatch params bel =>
      show Closed (t.oscDispatch params)
      have hend : ∀ t' : Tracker, Closed t' →
          Closed (if t'.byte = 0x07 then t'.close else t') := by
        intro t' ht'
        split
        · exact closed_close t'
        · exact ht'
      unfold Tracker.oscDispatch
      dsimp only
      apply hend
      split
      · split
        · exact h
        · exact h
      · exact h
  | escDispatch inter b => exact closed_close t
  | hook => exact fun _ => rfl
  | put b => exact h
  | unhook => exact closed_close t

theorem closed_foldl {t : Tracker} (h : Closed t) (acts : List Action) :
    Closed (acts.foldl Tracker.perform t) := by
  induction acts generalizing t with
  | nil => exact h
  | cons a acts ih => exact ih (closed_perform h a)

/-- What an action outside of the ends of a CSI or an OSC does to the tracker. -/
def Keeps (t t' : Tracker) : Prop :=
  t'.removals = t.removals ∧ (t'.seqStart = t.seqStart ∨ t'.seqStart = none)

theorem Keeps.trans {t t' t'' : Tracker} (h : Keeps t t') (h' : Keeps t' t'') : Keeps t t'' := by
  refine ⟨h'.1.trans h.1, ?_⟩
  rcases h'.2 with hsame | hnone
  · rw [hsame]
    exact h.2
  · exact Or.inr hnone

theorem keeps_perform (t : Tracker) {a : Action} (h : ¬ Dispatches a) : Keeps t (t.perform a) := by
  cases a with
  | csiDispatch params inter c => exact absurd trivial h
  | oscDispatch params bel => exact absurd trivial h
  | print c => exact ⟨rfl, Or.inr rfl⟩
  | execute b =>
      show Keeps t (t.execute b)
      unfold Tracker.execute
      split
      · exact ⟨rfl, Or.inl rfl⟩
      · exact ⟨rfl, Or.inl rfl⟩
  | escDispatch inter b => exact ⟨rfl, Or.inr rfl⟩
  | hook => exact ⟨rfl, Or.inr rfl⟩
  | put b => exact ⟨rfl, Or.inl rfl⟩
  | unhook => exact ⟨rfl, Or.inr rfl⟩

theorem keeps_foldl (t : Tracker) {acts : List Action} (h : ∀ a ∈ acts, ¬ Dispatches a) :
    Keeps t (acts.foldl Tracker.perform t) := by
  induction acts generalizing t with
  | nil => exact ⟨rfl, Or.inl rfl⟩
  | cons a acts ih =>
      rw [List.forall_mem_cons] at h
      exact (keeps_perform t h.1).trans (ih _ h.2)

/-- Without an open sequence nothing is removed. -/
theorem keeps_of_seqStart_none {t : Tracker} (h : t.seqStart = none) (acts : List Action) :
    Keeps t (acts.foldl Tracker.perform t) := by
  induction acts generalizing t with
  | nil => exact ⟨rfl, Or.inl rfl⟩
  | cons a acts ih =>
      have hstep : Keeps t (t.perform a) := by
        by_cases hd : Dispatches a
        · cases a with
          | csiDispatch params inter c =>
              show Keeps t (t.csiDispatch params inter c)
              unfold Tracker.csiDispatch
              rw [h]
              exact ⟨rfl, Or.inr rfl⟩
          | oscDispatch params bel =>
              show Keeps t (t.oscDispatch params)
              unfold Tracker.oscDispatch
              rw [h]
              dsimp only
              split
              · exact ⟨rfl, Or.inr rfl⟩
              · exact ⟨rfl, Or.inl rfl⟩
          | print c => exact hd.elim
          | execute b => exact hd.elim
          | escDispatch inter b => exact hd.elim
          | hook => exact hd.elim
          | put b => exact hd.elim
          | unhook => exact hd.elim
        · exact keeps_perform t hd
      have hnone : (t.perform a).seqStart = none := by
        rcases hstep.2 with hsame | hnone
        · rw [hsame, h]
        · exact hnone
      exact hstep.trans (ih hnone)

/-- After a byte that is no ESC the tracker may have been closed, and nothing else. -/
theorem afterByte_cases (t : Tracker) (buf : List UInt8) (i : ℕ) {b : UInt8} (hb : b ≠ 0x1b) :
    t.afterByte buf i b = t ∨ t.afterByte buf i b = t.close := by
  unfold Tracker.afterByte
  rw [if_neg hb]
  split
  · exact Or.inr rfl
  · split
    · split
      · split
        · exact Or.inr rfl
        · exact Or.inl rfl
      · exact Or.inl rfl
    · exact Or.inl rfl

theorem keeps_afterByte (t : Tracker) (buf : List UInt8) (i : ℕ) {b : UInt8} (hb : b ≠ 0x1b) :
    Keeps t (t.afterByte buf i b) := by
  rcases afterByte_cases t buf i hb with heq | heq
  · rw [heq]
    exact ⟨rfl, Or.inl rfl⟩
  · rw [heq]
    exact ⟨rfl, Or.inr rfl⟩

theorem closed_afterByte {t : Tracker} (h : Closed t) (buf : List UInt8) (i : ℕ) {b : UInt8}
    (hb : b ≠ 0x1b) : Closed (t.afterByte buf i b) := by
  rcases afterByte_cases t buf i hb with heq | heq
  · rw [heq]
    exact h
  · rw [heq]
    exact closed_close t

theorem afterByte_of_aborts (t : Tracker) (buf : List UInt8) (i : ℕ) {b : UInt8} (hb : Aborts b) :
    t.afterByte buf i b = t.close := by
  have hne : b ≠ 0x1b := by
    obtain rfl | rfl := hb
    · decide
    · decide
  unfold Tracker.afterByte
  rw [if_neg hne]
  exact if_pos hb

/-- A byte that cannot end a CSI leaves the tracker as it is. -/
theorem afterByte_of_not_final (t : Tracker) (buf : List UInt8) (i : ℕ) {b : UInt8}
    (hne : b ≠ 0x1b) (habort : ¬ Aborts b) (hfinal : ¬ CsiFinal b) : t.afterByte buf i b = t := by
  unfold Aborts at habort
  unfold CsiFinal at hfinal
  unfold Tracker.afterByte
  rw [if_neg hne, if_neg habort, if_neg hfinal]

/-- So does one in a sequence that is no CSI. -/
theorem afterByte_of_not_csi {t : Tracker} {buf : List UInt8} {i s : ℕ} {b : UInt8}
    (hne : b ≠ 0x1b) (habort : ¬ Aborts b) (hs : t.seqStart = some s)
    (hlead : ¬ (s + 1 < i ∧ buf[s + 1]? = some 0x5b)) : t.afterByte buf i b = t := by
  unfold Aborts at habort
  unfold Tracker.afterByte
  rw [if_neg hne, if_neg habort, hs]
  dsimp only
  rw [if_neg hlead, ite_self]

/-- The end of a CSI: a query is removed, and the sequence is closed. -/
theorem csiDispatch_open {t : Tracker} {s : ℕ} (hs : t.seqStart = some s)
    (params : List (List ℕ)) (inter : List UInt8) (c : Char) :
    t.csiDispatch params inter c =
      if isQuery (.csiDispatch params inter c) then (t.remove s (t.index + 1)).close
      else t.close := by
  unfold Tracker.csiDispatch isQuery
  rw [hs]
  obtain hc | ⟨fin, hc⟩ := Option.eq_none_or_eq_some (byteOfChar c)
  · simp [hc]
  · simp [hc]

/-- The end of an OSC: a query is removed, and a BEL closes the sequence. -/
theorem oscDispatch_open {t : Tracker} {s : ℕ} (hs : t.seqStart = some s)
    (params : List (List UInt8)) (bel : Bool) :
    t.oscDispatch params =
      if t.byte = 0x07 then
        if isQuery (.oscDispatch params bel) then (t.remove s (t.index + 1)).close else t.close
      else if isQuery (.oscDispatch params bel) then t.remove s t.index else t := by
  unfold Tracker.oscDispatch isQuery
  rw [hs]
  dsimp only
  by_cases hbyte : t.byte = 0x07
  · by_cases hquery : (oscQuery params).isSome
    · simp [hbyte, hquery, Tracker.remove]
    · simp [hbyte, hquery]
  · by_cases hquery : (oscQuery params).isSome
    · simp [hbyte, hquery, Tracker.remove]
    · simp [hbyte, hquery]

/-! ## The invariant -/

/-- INTERNAL: The tracker and its tokenizer `q` at position `i` of the buffer, where `u` has been
read in all and `cut` is what the walk makes of it. -/
structure TrackInv {σ : Type} (tok : Tokenizer σ) (buf : List UInt8) (i : ℕ) (q : σ) (t : Tracker)
    (u : List UInt8) (cut : Cut) : Prop where
  closed : Closed t
  grounded : t.nonGround = false → phaseOf u = .calm
  synced : t.nonGround = true → tok.ObsEq (tok.after u) q
  opened : phaseOf u ≠ .calm → ∃ s, t.seqStart = some s ∧ s + sinceEsc u = i ∧
    cut.opened = (buf.take i).drop s ∧ t.embeddedC0 = cut.controls
  start : ∀ s, t.seqStart = some s → s < i ∧ Before s t.removals
  leads : ∀ s, t.seqStart = some s → (i = s + 1 → phaseOf u = .escape) ∧
    (s + 1 < i → buf[s + 1]? = some 0x5b → phaseOf u = .csi ∨ phaseOf u = .calm)
  removals : Before i t.removals

/-- What a byte did to the removed ranges: nothing, or the walk cut a query out and so did the
tracker. -/
def CutAlike (i : ℕ) (b : UInt8) (t t' : Tracker) (u : List UInt8) (cut : Cut)
    (replies : List (List UInt8)) : Prop :=
  (replies = [] ∧ t'.removals = t.removals) ∨
    replies ≠ [] ∧ phaseOf u ≠ .calm ∧ ∃ s, t.seqStart = some s ∧
      t'.removals = t.removals ++
        [⟨s, if b = 0x1b ∨ Aborts b then i else i + 1, cut.controls⟩]

section

variable {σ : Type} {tok : Tokenizer σ} {buf : List UInt8} {i : ℕ} {q : σ} {t : Tracker}
  {u : List UInt8} {cut : Cut} {b : UInt8}

/-- The byte at `i` extends what was opened. -/
theorem drop_take_succ (hbyte : buf[i]? = some b) {s : ℕ} (hs : s ≤ i) :
    (buf.take (i + 1)).drop s = (buf.take i).drop s ++ [b] := by
  have hlen : i < buf.length := (List.getElem?_eq_some_iff.mp hbyte).1
  rw [List.take_add_one, hbyte, Option.toList_some, List.drop_append_of_le_length]
  rw [List.length_take]
  omega

/-- After an ESC. -/
theorem TrackInv.ofEsc (hlaw : Lawful tok) {t' : Tracker} {replies : List (List UInt8)}
    (daemon : Bool) (executed : List UInt8) (hbyte : buf[i]? = some 0x1b)
    (hremovals : Before i t'.removals) :
    TrackInv tok buf (i + 1) (tok.advance q 0x1b).1 (t'.afterByte buf i 0x1b) (u ++ [0x1b])
      (cut.step daemon 0x1b executed replies) := by
  have hphase : phaseOf (u ++ [0x1b]) = .escape := by
    rw [phaseOf_append, Phase.next_esc]
  have hopened : (cut.step daemon 0x1b executed replies).opened = [0x1b] ∧
      (cut.step daemon 0x1b executed replies).controls = [] := by
    unfold Cut.step
    split
    · exact ⟨rfl, rfl⟩
    · exact ⟨rfl, rfl⟩
  constructor
  case closed =>
    intro h
    cases h
  case grounded =>
    intro h
    cases h
  case synced =>
    intro _
    rw [tok.after_append]
    exact hlaw.esc _ _
  case opened =>
    intro _
    refine ⟨i, rfl, by rw [sinceEsc_esc], ?_, hopened.2.symm⟩
    rw [hopened.1, drop_take_succ hbyte (Nat.le_refl i), List.drop_eq_nil_of_le]
    · rfl
    · rw [List.length_take]
      omega
  case start =>
    intro s hs
    cases hs
    exact ⟨Nat.lt_succ_self i, hremovals⟩
  case leads =>
    intro s hs
    cases hs
    exact ⟨fun _ => hphase, fun hlt => absurd hlt (Nat.lt_irrefl _)⟩
  case removals => exact hremovals.mono (Nat.le_succ i)

/-- After a byte that leaves no sequence open. -/
theorem TrackInv.ofCalm (h : TrackInv tok buf i q t u cut) (hsync : tok.ObsEq (tok.after u) q)
    {t' : Tracker} (cut' : Cut) (hphase : phaseOf (u ++ [b]) = .calm) (hclosed : Closed t')
    (hstart : ∀ s, t'.seqStart = some s → t.seqStart = some s ∧ t'.removals = t.removals)
    (hremovals : Before (i + 1) t'.removals) :
    TrackInv tok buf (i + 1) (tok.advance q b).1 t' (u ++ [b]) cut' := by
  constructor
  case closed => exact hclosed
  case grounded => exact fun _ => hphase
  case synced =>
    intro _
    rw [tok.after_append]
    exact hsync.advance b
  case opened => exact fun hne => absurd hphase hne
  case start =>
    intro s hs
    obtain ⟨hold, hsame⟩ := hstart s hs
    obtain ⟨hlt, hbefore⟩ := h.start s hold
    rw [hsame]
    exact ⟨hlt.trans (Nat.lt_succ_self i), hbefore⟩
  case leads =>
    intro s hs
    obtain ⟨hold, -⟩ := hstart s hs
    have hlt := (h.start s hold).1
    exact ⟨fun heq => by omega, fun _ _ => Or.inr hphase⟩
  case removals => exact hremovals

/-- After a byte inside of an open sequence, which executes the controls `new`. -/
theorem TrackInv.ofOpen (h : TrackInv tok buf i q t u cut) (hsync : tok.ObsEq (tok.after u) q)
    (hbyte : buf[i]? = some b) {t' : Tracker} (new : List UInt8) (hne : b ≠ 0x1b)
    (hphase : phaseOf u ≠ .calm)
    (hlead : phaseOf (u ++ [b]) = .csi ∨ phaseOf u = .escape ∧ b ≠ 0x5b ∨ phaseOf u = .osc)
    (hsame : (t'.seqStart, t'.nonGround, t'.removals) = (t.seqStart, t.nonGround, t.removals))
    (hembedded : t'.embeddedC0 = t.embeddedC0 ++ new) :
    TrackInv tok buf (i + 1) (tok.advance q b).1 t' (u ++ [b])
      ⟨cut.pieces, cut.opened ++ [b], cut.controls ++ new⟩ := by
  simp only [Prod.mk.injEq] at hsame
  obtain ⟨hseq, hground, hremovals⟩ := hsame
  constructor
  case closed =>
    unfold Closed
    rw [hground, hseq]
    exact h.closed
  case grounded =>
    rw [hground]
    exact fun hfalse => absurd (h.grounded hfalse) hphase
  case synced =>
    intro _
    rw [tok.after_append]
    exact hsync.advance b
  case opened =>
    intro _
    obtain ⟨s, hs, hsince, hopened, hcontrols⟩ := h.opened hphase
    refine ⟨s, hseq.trans hs, ?_, ?_, ?_⟩
    · rw [sinceEsc_append u hne, ← hsince]
      rfl
    · dsimp only
      rw [drop_take_succ hbyte (h.start s hs).1.le, hopened]
    · rw [hembedded, hcontrols]
  case start =>
    intro s hs
    rw [hseq] at hs
    obtain ⟨hlt, hbefore⟩ := h.start s hs
    rw [hremovals]
    exact ⟨hlt.trans (Nat.lt_succ_self i), hbefore⟩
  case leads =>
    intro s hs
    rw [hseq] at hs
    have hlt := (h.start s hs).1
    refine ⟨fun heq => by omega, fun _ hbracket => ?_⟩
    rcases hlead with hcsi | ⟨hescape, hne⟩ | hosc
    · exact Or.inl hcsi
    · -- the byte after the ESC is this one or a control before it
      by_cases heq : s + 1 = i
      · rw [heq, hbyte] at hbracket
        exact absurd (Option.some_inj.mp hbracket) hne
      · have hcontra := (h.leads s hs).2 (by omega) hbracket
        rw [hescape] at hcontra
        rcases hcontra with hc | hc
        · cases hc
        · cases hc
    · by_cases heq : i = s + 1
      · rw [(h.leads s hs).1 heq] at hosc
        cases hosc
      · have hcontra := (h.leads s hs).2 (by omega) hbracket
        rw [hosc] at hcontra
        rcases hcontra with hc | hc
        · cases hc
        · cases hc
  case removals =>
    rw [hremovals]
    exact h.removals.mono (Nat.le_succ i)

/-! ## One byte -/

/-- INTERNAL: The byte `b` at `i` is taken alike by the scanner and by the walk. -/
def Follows (tok : Tokenizer σ) (buf : List UInt8) (i : ℕ) (q : σ) (t : Tracker) (u : List UInt8)
    (cut : Cut) (b : UInt8) : Prop :=
  ∀ daemon executed replies, Observed tok u b executed replies →
    TrackInv tok buf (i + 1) (scanByte tok buf q t i b).1 (scanByte tok buf q t i b).2 (u ++ [b])
        (cut.step daemon b executed replies) ∧
      CutAlike i b t (scanByte tok buf q t i b).2 u cut replies

theorem Observed.quiet {executed : List UInt8} {replies : List (List UInt8)}
    (h : Observed tok u b executed replies)
    (hacts : ∀ a ∈ (tok.advance (tok.after u) b).2, ¬ Dispatches a) : replies = [] :=
  h.replies.mpr fun a ha => not_isQuery_of_not_dispatches (hacts a ha)

/-- An ESC at which nothing ends. -/
theorem follows_esc (hlaw : Lawful tok) (h : TrackInv tok buf i q t u cut)
    (hbyte : buf[i]? = some 0x1b)
    (hquiet : ∀ a ∈ (tok.advance (tok.after u) 0x1b).2, ¬ Dispatches a)
    (hkeeps : Keeps t ((tok.advance q 0x1b).2.foldl Tracker.perform
      { t with index := i, byte := 0x1b })) :
    Follows tok buf i q t u cut 0x1b := by
  intro daemon executed replies hobs
  have hremovals := hkeeps.1
  constructor
  · apply TrackInv.ofEsc hlaw daemon executed hbyte
    rw [hremovals]
    exact h.removals
  · exact Or.inl ⟨hobs.quiet hquiet, hremovals⟩

/-- A byte that ends no CSI and no OSC, after which none is open. -/
theorem follows_calm (h : TrackInv tok buf i q t u cut) (hsync : tok.ObsEq (tok.after u) q)
    (hne : b ≠ 0x1b) (hphase : phaseOf (u ++ [b]) = .calm)
    (hquiet : ∀ a ∈ (tok.advance (tok.after u) b).2, ¬ Dispatches a) :
    Follows tok buf i q t u cut b := by
  intro daemon executed replies hobs
  have hacts : ∀ a ∈ (tok.advance q b).2, ¬ Dispatches a := by
    rw [← hsync.actions b]
    exact hquiet
  have hkeeps : Keeps t (scanByte tok buf q t i b).2 :=
    Keeps.trans (keeps_foldl { t with index := i, byte := b } hacts) (keeps_afterByte _ buf i hne)
  constructor
  · apply h.ofCalm hsync _ hphase
    · apply closed_afterByte _ buf i hne
      apply closed_foldl
      exact h.closed
    · intro s hs
      rcases hkeeps.2 with hsame | hnone
      · exact ⟨hsame ▸ hs, hkeeps.1⟩
      · rw [hnone] at hs
        cases hs
    · rw [hkeeps.1]
      exact h.removals.mono (Nat.le_succ i)
  · exact Or.inl ⟨hobs.quiet hquiet, hkeeps.1⟩

/-- A byte inside of an open sequence at which the tokenizer reports nothing. -/
theorem follows_open (h : TrackInv tok buf i q t u cut) (hsync : tok.ObsEq (tok.after u) q)
    (hbyte : buf[i]? = some b) (hne : b ≠ 0x1b) (hphase : phaseOf u ≠ .calm)
    (hlead : phaseOf (u ++ [b]) = .csi ∨ phaseOf u = .escape ∧ b ≠ 0x5b ∨ phaseOf u = .osc)
    (hnil : (tok.advance (tok.after u) b).2 = [])
    (hafter : Tracker.afterByte { t with index := i, byte := b } buf i b =
      { t with index := i, byte := b }) :
    Follows tok buf i q t u cut b := by
  intro daemon executed replies hobs
  have hreplies : replies = [] := by
    apply hobs.quiet
    rw [hnil]
    exact fun a ha => absurd ha List.not_mem_nil
  have hexecuted : executed = [] := by
    rw [hobs.executed hphase, hnil]
    rfl
  have hscan : scanByte tok buf q t i b =
      ((tok.advance q b).1, { t with index := i, byte := b }) := by
    unfold scanByte
    dsimp only
    rw [← hsync.actions b, hnil]
    exact Prod.ext rfl hafter
  have hcut : cut.step daemon b executed replies =
      ⟨cut.pieces, cut.opened ++ [b], cut.controls ++ []⟩ := by
    unfold Cut.step
    rw [if_pos hreplies, if_neg hne, hexecuted]
  rw [hscan, hcut]
  constructor
  · apply h.ofOpen hsync hbyte [] hne hphase hlead
    · rfl
    · exact (List.append_nil _).symm
  · exact Or.inl ⟨hreplies, rfl⟩

/-- A control inside of an open sequence. -/
theorem follows_execute (h : TrackInv tok buf i q t u cut) (hsync : tok.ObsEq (tok.after u) q)
    (hbyte : buf[i]? = some b) (hne : b ≠ 0x1b) (habort : ¬ Aborts b) (hlt : b < 0x20)
    (hphase : phaseOf u ≠ .calm)
    (hlead : phaseOf (u ++ [b]) = .csi ∨ phaseOf u = .escape ∧ b ≠ 0x5b ∨ phaseOf u = .osc)
    (hacts : (tok.advance (tok.after u) b).2 = [.execute b]) :
    Follows tok buf i q t u cut b := by
  intro daemon executed replies hobs
  obtain ⟨s, hs, -, -⟩ := h.opened hphase
  have hreplies : replies = [] := by
    apply hobs.quiet
    rw [hacts]
    exact fun a ha => by
      rw [List.mem_singleton.mp ha]
      exact id
  have hexecuted : executed = [b] := by
    rw [hobs.executed hphase, hacts]
    show List.filterMap control [.execute b] = [b]
    unfold Aborts at habort
    simp [control, habort]
  have hfinal : ¬ CsiFinal b := by
    rintro ⟨hle, -⟩
    rw [UInt8.le_iff_toNat_le] at hle
    rw [UInt8.lt_iff_toNat_lt] at hlt
    have h1 : (0x40 : UInt8).toNat = 64 := rfl
    have h2 : (0x20 : UInt8).toNat = 32 := rfl
    omega
  have hscan : (scanByte tok buf q t i b).2 =
      { t with index := i, byte := b, embeddedC0 := t.embeddedC0 ++ [b] } := by
    unfold scanByte
    dsimp only
    rw [← hsync.actions b, hacts]
    dsimp only [List.foldl_cons, List.foldl_nil]
    rw [afterByte_of_not_final _ buf i hne habort hfinal]
    show Tracker.execute _ b = _
    unfold Aborts at habort
    push Not at habort
    unfold Tracker.execute
    rw [if_pos]
    exact ⟨by rw [hs]; rfl, habort.1, habort.2⟩
  have hcut : cut.step daemon b executed replies =
      ⟨cut.pieces, cut.opened ++ [b], cut.controls ++ [b]⟩ := by
    unfold Cut.step
    rw [if_pos hreplies, if_neg hne, hexecuted]
  rw [hscan, hcut]
  constructor
  · apply h.ofOpen hsync hbyte [b] hne hphase hlead
    · rfl
    · rfl
  · exact Or.inl ⟨hreplies, rfl⟩

/-- A byte that ends a CSI or an OSC, and closes the tracker. -/
theorem follows_end (h : TrackInv tok buf i q t u cut) (hsync : tok.ObsEq (tok.after u) q)
    (hphase : phaseOf (u ++ [b]) = .calm) (hopen : phaseOf u ≠ .calm) (query : Bool)
    (hquery : (∀ a ∈ (tok.advance (tok.after u) b).2, isQuery a = false) ↔ query = false)
    (hseq : (scanByte tok buf q t i b).2.seqStart = none)
    (hremovals : ∀ s, t.seqStart = some s → (scanByte tok buf q t i b).2.removals =
      if query then t.removals ++ [⟨s, if b = 0x1b ∨ Aborts b then i else i + 1, t.embeddedC0⟩]
      else t.removals) :
    Follows tok buf i q t u cut b := by
  intro daemon executed replies hobs
  obtain ⟨s, hs, -, -, hembedded⟩ := h.opened hopen
  have hlt := (h.start s hs).1
  have hremoved := hremovals s hs
  have hbefore : Before (i + 1) (scanByte tok buf q t i b).2.removals := by
    rw [hremoved]
    split
    · intro r hr
      rcases List.mem_append.mp hr with hold | hnew
      · exact h.removals.mono (Nat.le_succ i) r hold
      · rw [List.mem_singleton.mp hnew]
        refine ⟨hlt.le.trans (Nat.le_succ i), ?_⟩
        dsimp only
        split
        · exact Nat.le_succ i
        · exact Nat.le_refl _
    · exact h.removals.mono (Nat.le_succ i)
  constructor
  · apply h.ofCalm hsync _ hphase (fun _ => hseq) _ hbefore
    intro s' hs'
    rw [hseq] at hs'
    cases hs'
  · cases query with
    | false =>
        apply Or.inl
        exact ⟨hobs.replies.mpr (hquery.mpr rfl), hremoved⟩
    | true =>
        apply Or.inr
        refine ⟨fun hnil => ?_, hopen, s, hs, ?_⟩
        · have hfalse := hquery.mp (hobs.replies.mp hnil)
          cases hfalse
        · rw [hremoved, hembedded]
          rfl

/-- The final byte of a CSI. -/
theorem follows_csiFinal (hlaw : Lawful tok) (h : TrackInv tok buf i q t u cut)
    (hsync : tok.ObsEq (tok.after u) q) (hphase : phaseOf u = .csi) (hfinal : CsiFinal b) :
    Follows tok buf i q t u cut b := by
  have hopen : phaseOf u ≠ .calm := by
    rw [hphase]
    exact Phase.noConfusion
  obtain ⟨s, hs, -, -⟩ := h.opened hopen
  have hne : b ≠ 0x1b := by
    rintro rfl
    exact absurd hfinal (by decide)
  have habort : ¬ Aborts b := by
    rintro (rfl | rfl)
    · exact absurd hfinal (by decide)
    · exact absurd hfinal (by decide)
  have hnext : phaseOf (u ++ [b]) = .calm := by
    rw [phaseOf_append, hphase]
    unfold Phase.next
    rw [if_neg hne, if_neg habort]
    exact if_pos hfinal
  have hallowed := hlaw.allowed u b
  rw [hphase] at hallowed
  unfold Allowed at hallowed
  dsimp only at hallowed
  rw [if_pos hfinal] at hallowed
  rcases hallowed with hnil | ⟨params, inter, hacts⟩
  · apply follows_calm h hsync hne hnext
    rw [hnil]
    exact fun a ha => absurd ha List.not_mem_nil
  · have hscan : (scanByte tok buf q t i b).2 =
        Tracker.afterByte (Tracker.csiDispatch { t with index := i, byte := b } params inter
          (Char.ofNat b.toNat)) buf i b := by
      unfold scanByte
      dsimp only
      rw [← hsync.actions b, hacts]
      rfl
    rw [csiDispatch_open (show Tracker.seqStart { t with index := i, byte := b } = some s from hs)]
      at hscan
    have hkeeps := keeps_afterByte (if isQuery (.csiDispatch params inter (Char.ofNat b.toNat))
      then (Tracker.remove { t with index := i, byte := b } s (i + 1)).close
      else Tracker.close { t with index := i, byte := b }) buf i hne
    apply follows_end h hsync hnext hopen
      (isQuery (.csiDispatch params inter (Char.ofNat b.toNat)))
    · rw [hacts]
      simp only [List.mem_singleton, forall_eq]
    · rw [hscan]
      rcases hkeeps.2 with hsame | hnone
      · rw [hsame]
        split
        · rfl
        · rfl
      · exact hnone
    · intro s' hs'
      rw [hs] at hs'
      cases hs'
      rw [hscan, hkeeps.1, if_neg (not_or.mpr ⟨hne, habort⟩)]
      split
      · rfl
      · rfl

/-- The tracker after the end of an OSC that no BEL ended: the sequence stays open for the byte
that ended it. -/
theorem oscDispatch_st {s : ℕ} (hs : t.seqStart = some s) (hbel : b ≠ 0x07)
    (params : List (List UInt8)) :
    Tracker.oscDispatch { t with index := i, byte := b } params =
      if isQuery (.oscDispatch params false) then
        Tracker.remove { t with index := i, byte := b } s i
      else { t with index := i, byte := b } := by
  rw [oscDispatch_open (show Tracker.seqStart { t with index := i, byte := b } = some s from hs)
    params false]
  exact if_neg hbel

/-- The BEL at the end of an OSC. -/
theorem follows_bel (hlaw : Lawful tok) (h : TrackInv tok buf i q t u cut)
    (hsync : tok.ObsEq (tok.after u) q) (hphase : phaseOf u = .osc) :
    Follows tok buf i q t u cut 0x07 := by
  have hopen : phaseOf u ≠ .calm := by
    rw [hphase]
    exact Phase.noConfusion
  obtain ⟨s, hs, -, -⟩ := h.opened hopen
  have hnext : phaseOf (u ++ [0x07]) = .calm := by
    rw [phaseOf_append, hphase]
    rfl
  have hallowed := hlaw.allowed u 0x07
  rw [hphase] at hallowed
  obtain ⟨params, hacts⟩ : ∃ params, (tok.advance (tok.after u) 0x07).2 =
    [.oscDispatch params true] := hallowed
  have hscan : (scanByte tok buf q t i 0x07).2 =
      Tracker.oscDispatch { t with index := i, byte := 0x07 } params := by
    unfold scanByte
    dsimp only
    rw [← hsync.actions, hacts]
    dsimp only [List.foldl_cons, List.foldl_nil, Tracker.perform]
    apply afterByte_of_not_final
    · decide
    · decide
    · decide
  rw [oscDispatch_open (show Tracker.seqStart { t with index := i, byte := 0x07 } = some s from hs)
    params true, if_pos rfl] at hscan
  apply follows_end h hsync hnext hopen (isQuery (.oscDispatch params true))
  · rw [hacts]
    simp only [List.mem_singleton, forall_eq]
  · rw [hscan]
    split
    · rfl
    · rfl
  · intro s' hs'
    rw [hs] at hs'
    cases hs'
    rw [hscan, if_neg (show ¬ ((0x07 : UInt8) = 0x1b ∨ Aborts 0x07) by decide)]
    split
    · rfl
    · rfl

/-- A CAN or SUB that ends an OSC. -/
theorem follows_oscAbort (hlaw : Lawful tok) (h : TrackInv tok buf i q t u cut)
    (hsync : tok.ObsEq (tok.after u) q) (hphase : phaseOf u = .osc) (habort : Aborts b) :
    Follows tok buf i q t u cut b := by
  have hopen : phaseOf u ≠ .calm := by
    rw [hphase]
    exact Phase.noConfusion
  obtain ⟨s, hs, -, -⟩ := h.opened hopen
  have hnext : phaseOf (u ++ [b]) = .calm := by
    rw [phaseOf_append, Phase.next_of_aborts _ habort]
  have hbel : b ≠ 0x07 := by
    obtain rfl | rfl := habort
    · decide
    · decide
  have hne : b ≠ 0x1b := by
    obtain rfl | rfl := habort
    · decide
    · decide
  have hallowed := hlaw.allowed u b
  rw [hphase] at hallowed
  unfold Allowed at hallowed
  dsimp only at hallowed
  rw [if_neg hbel, if_neg hne, if_pos habort] at hallowed
  obtain ⟨params, rest, hacts, hrest⟩ := hallowed
  have hscan : (scanByte tok buf q t i b).2 =
      (rest.foldl Tracker.perform
        (Tracker.oscDispatch { t with index := i, byte := b } params)).close := by
    unfold scanByte
    dsimp only
    rw [← hsync.actions b, hacts, afterByte_of_aborts _ buf i habort]
    rfl
  have hkeeps := (keeps_foldl (Tracker.oscDispatch { t with index := i, byte := b } params) hrest).1
  apply follows_end h hsync hnext hopen (isQuery (.oscDispatch params false))
  · rw [hacts]
    constructor
    · exact fun hall => hall _ List.mem_cons_self
    · intro hfalse a ha
      rcases List.mem_cons.mp ha with rfl | hmem
      · exact hfalse
      · exact not_isQuery_of_not_dispatches (hrest a hmem)
  · rw [hscan]
    rfl
  · intro s' hs'
    rw [hs] at hs'
    cases hs'
    rw [hscan, if_pos (Or.inr habort)]
    show (rest.foldl Tracker.perform _).removals = _
    rw [hkeeps, oscDispatch_st hs hbel]
    split
    · rfl
    · rfl

/-- An ESC that ends an OSC. -/
theorem follows_oscEsc (hlaw : Lawful tok) (h : TrackInv tok buf i q t u cut)
    (hsync : tok.ObsEq (tok.after u) q) (hbyte : buf[i]? = some 0x1b)
    (hphase : phaseOf u = .osc) : Follows tok buf i q t u cut 0x1b := by
  have hopen : phaseOf u ≠ .calm := by
    rw [hphase]
    exact Phase.noConfusion
  obtain ⟨s, hs, -, -, hembedded⟩ := h.opened hopen
  have hlt := (h.start s hs).1
  have hallowed := hlaw.allowed u 0x1b
  rw [hphase] at hallowed
  obtain ⟨params, hacts⟩ : ∃ params, (tok.advance (tok.after u) 0x1b).2 =
    [.oscDispatch params false] := hallowed
  have hscan : (scanByte tok buf q t i 0x1b).2 =
      Tracker.afterByte (Tracker.oscDispatch { t with index := i, byte := 0x1b } params)
        buf i 0x1b := by
    unfold scanByte
    dsimp only
    rw [← hsync.actions, hacts]
    rfl
  have hremovals : (Tracker.oscDispatch { t with index := i, byte := 0x1b } params).removals =
      if isQuery (.oscDispatch params false) then t.removals ++ [⟨s, i, t.embeddedC0⟩]
      else t.removals := by
    rw [oscDispatch_st hs (by decide)]
    split
    · rfl
    · rfl
  intro daemon executed replies hobs
  have hreplies : replies = [] ↔ isQuery (.oscDispatch params false) = false := by
    rw [hobs.replies, hacts]
    simp only [List.mem_singleton, forall_eq]
  constructor
  · rw [hscan]
    apply TrackInv.ofEsc hlaw daemon executed hbyte
    rw [hremovals]
    split
    · intro r hr
      rcases List.mem_append.mp hr with hold | hnew
      · exact h.removals r hold
      · rw [List.mem_singleton.mp hnew]
        exact ⟨hlt.le, Nat.le_refl i⟩
    · exact h.removals
  · rw [hscan]
    unfold CutAlike
    show (replies = [] ∧ Tracker.removals (Tracker.oscDispatch _ params) = t.removals) ∨
      replies ≠ [] ∧ _ ∧ ∃ s, _ ∧ Tracker.removals (Tracker.oscDispatch _ params) = _
    rw [hremovals]
    cases hquery : isQuery (.oscDispatch params false) with
    | false => exact Or.inl ⟨hreplies.mpr hquery, rfl⟩
    | true =>
        apply Or.inr
        refine ⟨fun hnil => ?_, hopen, s, hs, ?_⟩
        · rw [hreplies.mp hnil] at hquery
          cases hquery
        · rw [hembedded]
          rfl

/-- A byte after an ESC. -/
theorem follows_escape (hlaw : Lawful tok) (h : TrackInv tok buf i q t u cut)
    (hsync : tok.ObsEq (tok.after u) q) (hbyte : buf[i]? = some b) (hphase : phaseOf u = .escape) :
    Follows tok buf i q t u cut b := by
  have hopen : phaseOf u ≠ .calm := by
    rw [hphase]
    exact Phase.noConfusion
  obtain ⟨s, hs, -, -⟩ := h.opened hopen
  have hlead : ¬ (s + 1 < i ∧ buf[s + 1]? = some 0x5b) := by
    rintro ⟨hlt, hbracket⟩
    rcases (h.leads s hs).2 hlt hbracket with hp | hp
    · rw [hphase] at hp
      cases hp
    · exact hopen hp
  have hallowed := hlaw.allowed u b
  have hnext := phaseOf_append u b
  rw [hphase] at hallowed hnext
  unfold Allowed at hallowed
  unfold Phase.next at hnext
  dsimp only at hallowed hnext
  by_cases hesc : b = 0x1b
  · subst hesc
    have hnil : (tok.advance (tok.after u) 0x1b).2 = [] := hallowed
    apply follows_esc hlaw h hbyte
    · rw [hnil]
      exact fun a ha => absurd ha List.not_mem_nil
    · rw [← hsync.actions, hnil]
      exact ⟨rfl, Or.inl rfl⟩
  rw [if_neg hesc] at hnext
  by_cases habort : Aborts b
  · rw [if_pos habort] at hnext
    apply follows_calm h hsync hesc hnext
    obtain rfl | rfl := habort
    · exact hallowed
    · exact hallowed
  rw [if_neg habort] at hnext
  by_cases hopens : b = 0x5b ∨ b = 0x5d ∨ 0x7f ≤ b
  · rw [if_pos (Or.inr hopens)] at hallowed
    apply follows_open h hsync hbyte hesc hopen _ hallowed
      (afterByte_of_not_csi hesc habort hs hlead)
    by_cases hbracket : b = 0x5b
    · rw [if_pos hbracket] at hnext
      exact Or.inl hnext
    · exact Or.inr (Or.inl ⟨hphase, hbracket⟩)
  rw [if_neg (not_or.mpr ⟨hesc, hopens⟩)] at hallowed
  push Not at hopens
  rw [if_neg hopens.1, if_neg hopens.2.1] at hnext
  by_cases hlt : b < 0x20
  · rw [if_pos ⟨hlt, habort⟩] at hallowed
    exact follows_execute h hsync hbyte hesc habort hlt hopen (Or.inr (Or.inl ⟨hphase, hopens.1⟩))
      hallowed
  · rw [if_neg fun hc => hlt hc.1] at hallowed
    rw [if_neg] at hnext
    · exact follows_calm h hsync hesc hnext hallowed
    · rintro (hc | hc)
      · exact hlt hc
      · exact hopens.2.2 hc

/-- A byte in a CSI. -/
theorem follows_csi (hlaw : Lawful tok) (h : TrackInv tok buf i q t u cut)
    (hsync : tok.ObsEq (tok.after u) q) (hbyte : buf[i]? = some b) (hphase : phaseOf u = .csi) :
    Follows tok buf i q t u cut b := by
  by_cases hfinal : CsiFinal b
  · exact follows_csiFinal hlaw h hsync hphase hfinal
  have hopen : phaseOf u ≠ .calm := by
    rw [hphase]
    exact Phase.noConfusion
  have hallowed := hlaw.allowed u b
  have hnext := phaseOf_append u b
  rw [hphase] at hallowed hnext
  unfold Allowed at hallowed
  unfold Phase.next at hnext
  dsimp only at hallowed hnext
  rw [if_neg hfinal] at hallowed hnext
  by_cases hesc : b = 0x1b
  · subst hesc
    have hnil : (tok.advance (tok.after u) 0x1b).2 = [] := hallowed
    apply follows_esc hlaw h hbyte
    · rw [hnil]
      exact fun a ha => absurd ha List.not_mem_nil
    · rw [← hsync.actions, hnil]
      exact ⟨rfl, Or.inl rfl⟩
  rw [if_neg hesc] at hnext
  by_cases habort : Aborts b
  · rw [if_pos habort] at hnext hallowed
    exact follows_calm h hsync hesc hnext hallowed
  rw [if_neg habort] at hnext hallowed
  by_cases hlt : b < 0x20
  · rw [if_pos ⟨hlt, hesc⟩] at hallowed
    exact follows_execute h hsync hbyte hesc habort hlt hopen (Or.inl hnext) hallowed
  · rw [if_neg fun hc => hlt hc.1] at hallowed
    exact follows_open h hsync hbyte hesc hopen (Or.inl hnext) hallowed
      (afterByte_of_not_final _ buf i hesc habort hfinal)

/-- A byte in an OSC. -/
theorem follows_osc (hlaw : Lawful tok) (h : TrackInv tok buf i q t u cut)
    (hsync : tok.ObsEq (tok.after u) q) (hbyte : buf[i]? = some b) (hphase : phaseOf u = .osc) :
    Follows tok buf i q t u cut b := by
  by_cases hbel : b = 0x07
  · rw [hbel]
    exact follows_bel hlaw h hsync hphase
  by_cases hesc : b = 0x1b
  · subst hesc
    exact follows_oscEsc hlaw h hsync hbyte hphase
  by_cases habort : Aborts b
  · exact follows_oscAbort hlaw h hsync hphase habort
  have hopen : phaseOf u ≠ .calm := by
    rw [hphase]
    exact Phase.noConfusion
  obtain ⟨s, hs, -, -⟩ := h.opened hopen
  have hlead : ¬ (s + 1 < i ∧ buf[s + 1]? = some 0x5b) := by
    rintro ⟨hlt, hbracket⟩
    rcases (h.leads s hs).2 hlt hbracket with hp | hp
    · rw [hphase] at hp
      cases hp
    · exact hopen hp
  have hallowed := hlaw.allowed u b
  rw [hphase] at hallowed
  unfold Allowed at hallowed
  dsimp only at hallowed
  rw [if_neg hbel, if_neg hesc, if_neg habort] at hallowed
  exact follows_open h hsync hbyte hesc hopen (Or.inr (Or.inr hphase)) hallowed
    (afterByte_of_not_csi hesc habort hs hlead)

/-- INTERNAL: The scanner takes a byte as the walk does, and removes a range exactly where the walk
cuts a query out. In the ground state it only ever reads an ESC.
SRC: scanner.rs:190-228 -/
theorem scanByte_spec (hlaw : Lawful tok) (h : TrackInv tok buf i q t u cut)
    (hbyte : buf[i]? = some b) (hreads : t.nonGround = true ∨ b = 0x1b) :
    Follows tok buf i q t u cut b := by
  cases hground : t.nonGround with
  | false =>
      have hesc : b = 0x1b := by
        rcases hreads with hopen | hesc
        · rw [hground] at hopen
          cases hopen
        · exact hesc
      subst hesc
      have hallowed := hlaw.allowed u 0x1b
      rw [h.grounded hground] at hallowed
      apply follows_esc hlaw h hbyte hallowed
      exact keeps_of_seqStart_none (t := { t with index := i, byte := 0x1b }) (h.closed hground) _
  | true =>
      have hsync := h.synced hground
      cases hphase : phaseOf u with
      | calm =>
          have hallowed := hlaw.allowed u b
          rw [hphase] at hallowed
          by_cases hesc : b = 0x1b
          · subst hesc
            apply follows_esc hlaw h hbyte hallowed
            rw [← hsync.actions]
            exact keeps_foldl _ hallowed
          · apply follows_calm h hsync hesc _ hallowed
            rw [phaseOf_append, hphase, Phase.next_calm hesc]
      | escape => exact follows_escape hlaw h hsync hbyte hphase
      | csi => exact follows_csi hlaw h hsync hbyte hphase
      | osc => exact follows_osc hlaw h hsync hbyte hphase

end

end Tymux.Analysis
