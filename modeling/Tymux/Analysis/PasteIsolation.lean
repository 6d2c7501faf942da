import Tymux.Model.Input
import Tymux.Analysis.KeystrokeOrder
import Mathlib.Tactic.IntervalCases

/-!
# Paste isolation

The reference parse of a stream, `labelPastes`, marks the bytes between a `PASTE_START` that
occurs outside a paste and the next `PASTE_END`. The reassembler should keep exactly these
away from the key bindings. It recognises a `PASTE_START` only if its scanner is idle when the
marker begins: after a mismatch the scanner drops the whole partial match, the mismatching
byte included, so an `ESC` that ends a partial match does not begin a new one. The marker then
goes by unseen, and the bytes of the paste reach the bindings unless they happen to sit in
escape runs. `Recognized` says that no paste goes by unseen in that way, and a stream is
isolated under every configuration if and only if it holds (`paste_isolated_iff`).
-/

set_option autoImplicit false

namespace Tymux.Analysis

open Tymux.Model KeystrokeReassembler

/-! ## The reference parse -/

/-- The bytes of a stream, each with the flag that it is inside a paste. `skip` bytes of a
marker are still to be passed.
SRC: input.rs:5-6 -/
def labelPastes : Bool → ℕ → List UInt8 → List (UInt8 × Bool)
  | _, _, [] => []
  | inside, skip + 1, b :: s => (b, false) :: labelPastes inside skip s
  | false, 0, b :: s =>
    if pasteStart.isPrefixOf (b :: s) then (b, false) :: labelPastes true 5 s
    else (b, false) :: labelPastes false 0 s
  | true, 0, b :: s =>
    if pasteEnd.isPrefixOf (b :: s) then (b, false) :: labelPastes false 5 s
    else (b, true) :: labelPastes true 0 s

theorem labelPastes_skip (inside : Bool) (l s : List UInt8) :
    labelPastes inside l.length (l ++ s) = l.map (·, false) ++ labelPastes inside 0 s := by
  induction l with
  | nil => rfl
  | cons b l ih =>
      rw [List.length_cons, List.cons_append, labelPastes, ih]
      rfl

theorem labelPastes_start (s : List UInt8) :
    labelPastes false 0 (pasteStart ++ s) =
      pasteStart.map (·, false) ++ labelPastes true 0 s := by
  have hpre : pasteStart.isPrefixOf (pasteStart ++ s) = true := by simp
  have hskip := labelPastes_skip true [0x5b, 0x32, 0x30, 0x30, 0x7e] s
  rw [show pasteStart ++ s = 0x1b :: ([0x5b, 0x32, 0x30, 0x30, 0x7e] ++ s) from rfl] at hpre ⊢
  rw [labelPastes, if_pos hpre]
  exact congrArg _ hskip

theorem labelPastes_end (s : List UInt8) :
    labelPastes true 0 (pasteEnd ++ s) = pasteEnd.map (·, false) ++ labelPastes false 0 s := by
  have hpre : pasteEnd.isPrefixOf (pasteEnd ++ s) = true := by simp
  have hskip := labelPastes_skip false [0x5b, 0x32, 0x30, 0x31, 0x7e] s
  rw [show pasteEnd ++ s = 0x1b :: ([0x5b, 0x32, 0x30, 0x31, 0x7e] ++ s) from rfl] at hpre ⊢
  rw [labelPastes, if_pos hpre]
  exact congrArg _ hskip

/-! ## The scanner on its own -/

section Scan

variable {β : Type*} (val : β → UInt8)

/-- The scanner's part of `process_byte`.
SRC: input.rs:79-110 -/
def scanNext (scan : ScanState β) (b : β) : ScanState β :=
  match scan with
  | .normal => if val b = 0x1b then .matchingPasteStart [b] else .normal
  | .matchingPasteStart buf =>
    if (buf ++ [b]).map val = pasteStart then .inPaste []
    else if ((buf ++ [b]).map val).isPrefixOf pasteStart then .matchingPasteStart (buf ++ [b])
    else .normal
  | .inPaste buf =>
    if pasteEnd.isSuffixOf ((buf ++ [b]).map val) then .normal
    else if pasteEnd.length < (buf ++ [b]).length then
      .inPaste ((buf ++ [b]).drop ((buf ++ [b]).length - (pasteEnd.length - 1)))
    else .inPaste (buf ++ [b])

/-- The scanner hands the byte on to the key bindings. -/
def isKey (scan : ScanState β) (b : β) : Bool :=
  match scan with
  | .normal => val b ≠ 0x1b
  | _ => false

theorem scan_processByte (r : KeystrokeReassembler β) (b : β) :
    (r.processByte val b).1.scan = scanNext val r.scan b := by
  unfold processByte scanNext
  cases hs : r.scan with
  | normal =>
      dsimp only
      by_cases hb : val b = 0x1b
      · rw [if_pos hb, if_pos hb]
      · rw [if_neg hb, if_neg hb]
        have hkey := (processByte_key val hs hb).1
        simpa only [processByte, hs, hb, if_false] using hkey
  | matchingPasteStart buf =>
      dsimp only
      split_ifs <;> rfl
  | inPaste buf =>
      dsimp only
      split_ifs <;> rfl

theorem bindings_processByte (r : KeystrokeReassembler β) (b : β) :
    (r.processByte val b).1.bindings = r.bindings ∧ (r.processByte val b).1.leader = r.leader := by
  unfold processByte
  cases r.scan with
  | normal =>
      dsimp only
      unfold handleNormalByte
      cases r.armed with
      | none =>
          dsimp only
          split_ifs <;> exact ⟨rfl, rfl⟩
      | some armed =>
          dsimp only
          split_ifs
          · exact ⟨rfl, rfl⟩
          · exact ⟨rfl, rfl⟩
          · split <;> exact ⟨rfl, rfl⟩
  | matchingPasteStart buf =>
      dsimp only
      split_ifs <;> exact ⟨rfl, rfl⟩
  | inPaste buf =>
      dsimp only
      split_ifs <;> exact ⟨rfl, rfl⟩

/-- INTERNAL: the scanner only looks at the values of the bytes. -/
theorem scanNext_map {γ : Type*} (f : γ → β) (scan : ScanState γ) (b : γ) :
    scanNext val (scan.map f) (f b) = (scanNext (val ∘ f) scan b).map f := by
  unfold scanNext
  cases scan with
  | normal =>
      simp only [ScanState.map, Function.comp_apply]
      split_ifs <;> simp
  | matchingPasteStart buf =>
      have happ : buf.map f ++ [f b] = (buf ++ [b]).map f := by simp
      simp only [ScanState.map, happ, List.map_map]
      split_ifs <;> simp
  | inPaste buf =>
      have happ : buf.map f ++ [f b] = (buf ++ [b]).map f := by simp
      simp only [ScanState.map, happ, List.map_map, List.length_map, ← List.map_drop]
      split_ifs <;> simp

end Scan

/-- The scanner after some bytes. -/
def scanRun (scan : ScanState UInt8) (l : List UInt8) : ScanState UInt8 := l.foldl (scanNext id) scan

/-- Whether the reference parse is outside or inside a paste, and there whether the scanner
was idle when the marker began. -/
inductive PasteMode where
  | outside
  | inside (seen : Bool)
  deriving DecidableEq

/-- Every paste of the stream is seen by the scanner, or holds no byte that the scanner hands
on to the bindings. -/
def Recognized : PasteMode → ℕ → ScanState UInt8 → List UInt8 → Prop
  | _, _, _, [] => True
  | mode, skip + 1, scan, b :: s => Recognized mode skip (scanNext id scan b) s
  | .outside, 0, scan, b :: s =>
    if pasteStart.isPrefixOf (b :: s) then
      Recognized (.inside (scan = .normal)) 5 (scanNext id scan b) s
    else Recognized .outside 0 (scanNext id scan b) s
  | .inside seen, 0, scan, b :: s =>
    if pasteEnd.isPrefixOf (b :: s) then Recognized .outside 5 (scanNext id scan b) s
    else (seen = true ∨ isKey id scan b = false) ∧
      Recognized (.inside seen) 0 (scanNext id scan b) s

theorem recognized_skip (mode : PasteMode) (l s : List UInt8) (scan : ScanState UInt8) :
    Recognized mode l.length scan (l ++ s) ↔ Recognized mode 0 (scanRun scan l) s := by
  induction l generalizing scan with
  | nil => rfl
  | cons b l ih =>
      rw [List.length_cons, List.cons_append, Recognized, ih]
      rfl

theorem recognized_start (scan : ScanState UInt8) (s : List UInt8) :
    Recognized .outside 0 scan (pasteStart ++ s) ↔
      Recognized (.inside (scan = .normal)) 0 (scanRun scan pasteStart) s := by
  have hpre : pasteStart.isPrefixOf (pasteStart ++ s) = true := by simp
  rw [show pasteStart ++ s = 0x1b :: ([0x5b, 0x32, 0x30, 0x30, 0x7e] ++ s) from rfl] at hpre ⊢
  rw [Recognized, if_pos hpre]
  exact recognized_skip _ [0x5b, 0x32, 0x30, 0x30, 0x7e] s _

theorem recognized_end (seen : Bool) (scan : ScanState UInt8) (s : List UInt8) :
    Recognized (.inside seen) 0 scan (pasteEnd ++ s) ↔
      Recognized .outside 0 (scanRun scan pasteEnd) s := by
  have hpre : pasteEnd.isPrefixOf (pasteEnd ++ s) = true := by simp
  rw [show pasteEnd ++ s = 0x1b :: ([0x5b, 0x32, 0x30, 0x31, 0x7e] ++ s) from rfl] at hpre ⊢
  rw [Recognized, if_pos hpre]
  exact recognized_skip _ [0x5b, 0x32, 0x30, 0x31, 0x7e] s _

/-! ## Where the scanner can be -/

/-- A partial match of the start marker. -/
def PartialStart (buf : List UInt8) : Prop := buf ≠ [] ∧ buf <+: pasteStart ∧ buf ≠ pasteStart

/-- No end marker begins in `buf` and goes on into `s`. -/
def NoEnd (buf s : List UInt8) : Prop := ∀ t, t ≠ [] → t <:+ buf → ¬ pasteEnd <+: t ++ s

/-- Outside a paste the scanner is idle, or in a partial match that the stream does not
complete. -/
def OutsideOk (s : List UInt8) : ScanState UInt8 → Prop
  | .normal => True
  | .matchingPasteStart buf => PartialStart buf ∧ ¬ pasteStart <+: buf ++ s
  | .inPaste _ => False

/-- Inside a paste the scanner can be anywhere, but has not let an end marker begin. -/
def InsideOk (s : List UInt8) : ScanState UInt8 → Prop
  | .normal => True
  | .matchingPasteStart buf => PartialStart buf
  | .inPaste buf => NoEnd buf s

theorem partialStart_cases {buf : List UInt8} (h : PartialStart buf) :
    ∃ n, 1 ≤ n ∧ n ≤ 5 ∧ buf = pasteStart.take n := by
  obtain ⟨hne, hpre, hlt⟩ := h
  have heq : buf = pasteStart.take buf.length := List.prefix_iff_eq_take.mp hpre
  have hle : buf.length ≤ 6 := hpre.length_le
  have hpos : 0 < buf.length := List.length_pos_iff.mpr hne
  have hsix : buf.length ≠ 6 := by
    intro h6
    rw [h6] at heq
    exact hlt heq
  exact ⟨buf.length, hpos, by omega, heq⟩

theorem scanRun_start_of_normal : scanRun .normal pasteStart = .inPaste [] := by decide

/-- INTERNAL: a marker that begins in a partial match goes by unseen.
SRC: input.rs:93-97 -/
theorem scanRun_start_of_matching {buf : List UInt8} (h : PartialStart buf) :
    scanRun (.matchingPasteStart buf) pasteStart = .normal := by
  obtain ⟨n, h1, h5, rfl⟩ := partialStart_cases h
  interval_cases n <;> decide

theorem scanRun_end_of_normal : scanRun .normal pasteEnd = .normal := by decide

theorem scanRun_end_of_matching {buf : List UInt8} (h : PartialStart buf) :
    scanRun (.matchingPasteStart buf) pasteEnd = .normal := by
  obtain ⟨n, h1, h5, rfl⟩ := partialStart_cases h
  interval_cases n <;> decide

/-- INTERNAL: a byte other than the last of the end marker keeps the scanner in the paste, and
with it the last five bytes.
SRC: input.rs:98-108 -/
theorem inPaste_of_ne (buf : List UInt8) {b : UInt8} (hb : b ≠ 0x7e) :
    ∃ buf', scanNext id (.inPaste buf) b = .inPaste buf' ∧
      ∀ t, t.length ≤ 4 → t <:+ buf → t ++ [b] <:+ buf' := by
  have hend : ¬ pasteEnd.isSuffixOf ((buf ++ [b]).map id) = true := by
    rw [List.isSuffixOf_iff_suffix, List.map_id]
    intro hsuf
    have hlast := hsuf.getLast (by decide)
    rw [List.getLast_concat] at hlast
    exact hb hlast.symm
  have hkeep : ∀ t : List UInt8, t <:+ buf → t ++ [b] <:+ buf ++ [b] := by
    rintro t ⟨u, rfl⟩
    exact ⟨u, by simp⟩
  unfold scanNext
  dsimp only
  rw [if_neg hend]
  by_cases hlen : pasteEnd.length < (buf ++ [b]).length
  · rw [if_pos hlen]
    refine ⟨_, rfl, ?_⟩
    intro t ht hsuf
    apply List.suffix_of_suffix_length_le (hkeep t hsuf) (List.drop_suffix ..)
    have hsix : pasteEnd.length = 6 := rfl
    simp only [List.length_append, List.length_drop, List.length_singleton, hsix] at hlen ⊢
    omega
  · rw [if_neg hlen]
    exact ⟨_, rfl, fun t _ hsuf => hkeep t hsuf⟩

/-- INTERNAL: the end marker ends the paste.
SRC: input.rs:98-104 -/
theorem scanRun_end_of_inPaste (buf : List UInt8) : scanRun (.inPaste buf) pasteEnd = .normal := by
  obtain ⟨b₁, h₁, k₁⟩ := inPaste_of_ne buf (b := 0x1b) (by decide)
  obtain ⟨b₂, h₂, k₂⟩ := inPaste_of_ne b₁ (b := 0x5b) (by decide)
  obtain ⟨b₃, h₃, k₃⟩ := inPaste_of_ne b₂ (b := 0x32) (by decide)
  obtain ⟨b₄, h₄, k₄⟩ := inPaste_of_ne b₃ (b := 0x30) (by decide)
  obtain ⟨b₅, h₅, k₅⟩ := inPaste_of_ne b₄ (b := 0x31) (by decide)
  have s₁ := k₁ [] (by decide) (List.nil_suffix ..)
  have s₂ := k₂ _ (by decide) s₁
  have s₃ := k₃ _ (by decide) s₂
  have s₄ := k₄ _ (by decide) s₃
  have s₅ := k₅ _ (by decide) s₄
  have hfull : pasteEnd <:+ b₅ ++ [0x7e] := by
    obtain ⟨u, hu⟩ := s₅
    exact ⟨u, by rw [← hu]; simp [pasteEnd]⟩
  have hlast : scanNext id (.inPaste b₅) 0x7e = .normal := by
    unfold scanNext
    dsimp only
    rw [if_pos]
    rw [List.isSuffixOf_iff_suffix, List.map_id]
    exact hfull
  simp only [scanRun, pasteEnd, List.foldl_cons, List.foldl_nil, h₁, h₂, h₃, h₄, h₅, hlast]

theorem scanRun_end {s : List UInt8} {scan : ScanState UInt8} (h : InsideOk s scan) :
    scanRun scan pasteEnd = .normal := by
  cases scan with
  | normal => exact scanRun_end_of_normal
  | matchingPasteStart buf => exact scanRun_end_of_matching h
  | inPaste buf => exact scanRun_end_of_inPaste buf

/-- INTERNAL: inside a recognised paste, a byte that does not begin the end marker keeps the
scanner there.
SRC: input.rs:98-108 -/
theorem inPaste_content {buf s : List UInt8} {b : UInt8} (h : NoEnd buf (b :: s))
    (hb : ¬ pasteEnd <+: b :: s) :
    ∃ buf', scanNext id (.inPaste buf) b = .inPaste buf' ∧ NoEnd buf' s := by
  have hend : ¬ pasteEnd.isSuffixOf ((buf ++ [b]).map id) = true := by
    rw [List.isSuffixOf_iff_suffix, List.map_id]
    rintro ⟨u, hu⟩
    have hsplit : pasteEnd = [0x1b, 0x5b, 0x32, 0x30, 0x31] ++ [0x7e] := rfl
    rw [hsplit, ← List.append_assoc] at hu
    obtain ⟨hbuf, hlast⟩ := List.append_inj' hu rfl
    have hb7 : b = 0x7e := by simpa using hlast.symm
    apply h [0x1b, 0x5b, 0x32, 0x30, 0x31] (by decide) ⟨u, hbuf⟩
    rw [hb7]
    exact ⟨s, rfl⟩
  have hkeep : ∀ buf', buf' <:+ buf ++ [b] → NoEnd buf' s := by
    intro buf' hbuf' t ht hsuf hpre
    rcases List.suffix_concat_iff.mp (hsuf.trans hbuf') with rfl | ⟨t', rfl, ht'⟩
    · exact ht rfl
    · rw [List.append_assoc, List.singleton_append] at hpre
      cases t' with
      | nil => exact hb hpre
      | cons x xs => exact h (x :: xs) (by simp) ht' hpre
  unfold scanNext
  dsimp only
  rw [if_neg hend]
  split_ifs
  · exact ⟨_, rfl, hkeep _ (List.drop_suffix ..)⟩
  · exact ⟨_, rfl, hkeep _ (List.suffix_refl _)⟩

theorem partialStart_singleton : PartialStart [0x1b] := by
  refine ⟨by simp, ?_, by decide⟩
  exact ⟨[0x5b, 0x32, 0x30, 0x30, 0x7e], rfl⟩

/-- INTERNAL: one byte inside a paste. -/
theorem insideOk_step {s : List UInt8} {b : UInt8} {scan : ScanState UInt8}
    (h : InsideOk (b :: s) scan) (hb : ¬ pasteEnd <+: b :: s) :
    InsideOk s (scanNext id scan b) := by
  cases scan with
  | normal =>
      unfold scanNext
      dsimp only
      split_ifs with hesc
      · have hesc' : b = 0x1b := hesc
        rw [hesc']
        exact partialStart_singleton
      · trivial
  | matchingPasteStart buf =>
      unfold scanNext
      dsimp only
      split_ifs with hfull hpre
      · intro t ht hsuf
        exact absurd (List.suffix_nil.mp hsuf) ht
      · rw [List.isPrefixOf_iff_prefix, List.map_id] at hpre
        rw [List.map_id] at hfull
        exact ⟨by simp, hpre, hfull⟩
      · trivial
  | inPaste buf =>
      obtain ⟨buf', heq, hno⟩ := inPaste_content h hb
      rw [heq]
      exact hno

/-- INTERNAL: one byte outside a paste. -/
theorem outsideOk_step {s : List UInt8} {b : UInt8} {scan : ScanState UInt8}
    (h : OutsideOk (b :: s) scan) (hb : ¬ pasteStart <+: b :: s) :
    OutsideOk s (scanNext id scan b) := by
  cases scan with
  | normal =>
      unfold scanNext
      dsimp only
      split_ifs with hesc
      · have hesc' : b = 0x1b := hesc
        rw [hesc'] at hb ⊢
        exact ⟨partialStart_singleton, hb⟩
      · trivial
  | matchingPasteStart buf =>
      obtain ⟨-, hno⟩ := h
      have happ : buf ++ b :: s = buf ++ [b] ++ s := by simp
      rw [happ] at hno
      unfold scanNext
      dsimp only
      rw [List.map_id]
      split_ifs with hfull hpre
      · apply hno
        rw [hfull]
        exact List.prefix_append ..
      · rw [List.isPrefixOf_iff_prefix] at hpre
        exact ⟨⟨by simp, hpre, hfull⟩, hno⟩
      · trivial
  | inPaste buf => exact h.elim

/-! ## Isolation -/

section Isolation

variable {β : Type*} (val : β → UInt8)

/-- The bytes that arm a leader at a step, or make up an action that it fires. -/
def involved (r : KeystrokeReassembler β) (b : β) : List β :=
  (if r.armed.isNone && (r.processByte val b).1.armed.isSome then [b] else []) ++
  (if (r.processByte val b).2.any fun o => match o with | .action _ => true | .forward _ => false
    then armedBytes r ++ [b] else [])

/-- INTERNAL: a byte that the scanner keeps for itself involves nothing.
SRC: input.rs:79-110 -/
theorem involved_of_not_key {r : KeystrokeReassembler β} {b : β}
    (h : isKey val r.scan b = false) :
    involved val r b = [] ∧ (r.processByte val b).1.armed = r.armed := by
  have hscan : r.scan ≠ .normal ∨ val b = 0x1b := by
    cases hs : r.scan with
    | normal =>
        rw [hs] at h
        exact Or.inr (by simpa [isKey] using h)
    | _ => exact Or.inl (by simp)
  have harmed := (processByte_scan val hscan).1
  refine ⟨?_, harmed⟩
  have hout : ((r.processByte val b).2.any fun o =>
      match o with | .action _ => true | .forward _ => false) = false := by
    unfold processByte
    cases hs : r.scan with
    | normal =>
        have hb : val b = 0x1b := by
          rcases hscan with h' | h'
          · exact absurd hs h'
          · exact h'
        simp [hb]
    | matchingPasteStart buf =>
        dsimp only
        split_ifs <;> rfl
    | inPaste buf =>
        dsimp only
        split_ifs <;> rfl
  unfold involved
  rw [hout, harmed]
  cases r.armed <;> simp

/-- INTERNAL: a step involves, and leaves armed, only the armed bytes and the byte itself. -/
theorem involved_subset (r : KeystrokeReassembler β) (b : β) :
    involved val r b ⊆ armedBytes r ++ [b] ∧
      armedBytes (r.processByte val b).1 ⊆ armedBytes r ++ [b] := by
  constructor
  · unfold involved
    intro x hx
    rcases List.mem_append.mp hx with hx | hx
    · split_ifs at hx
      · exact List.mem_append_right _ hx
      · simp at hx
    · split_ifs at hx
      · exact hx
      · simp at hx
  · by_cases hkey : r.scan = .normal ∧ val b ≠ 0x1b
    · obtain ⟨-, -, ⟨-, heq⟩ | ⟨hnil, -⟩⟩ := processByte_key val hkey.1 hkey.2
      · rw [← heq]
        exact List.subset_append_right ..
      · simp [hnil]
    · have hnot : isKey val r.scan b = false := by
        unfold isKey
        cases hs : r.scan <;> simp_all
      unfold armedBytes
      rw [(involved_of_not_key val hnot).2]
      exact List.subset_append_left ..

end Isolation

/-- No byte of a paste arms a leader or contributes to an action. -/
def Isolated (r : KeystrokeReassembler (UInt8 × Bool)) : List (UInt8 × Bool) → Prop
  | [] => True
  | b :: l => (∀ x ∈ involved Prod.fst r b, x.2 = false) ∧
    Isolated (r.processByte Prod.fst b).1 l

instance decidableIsolated : ∀ (r : KeystrokeReassembler (UInt8 × Bool))
    (l : List (UInt8 × Bool)), Decidable (Isolated r l)
  | _, [] => isTrue trivial
  | r, b :: l =>
    haveI := decidableIsolated (r.processByte Prod.fst b).1 l
    inferInstanceAs (Decidable ((∀ x ∈ involved Prod.fst r b, x.2 = false) ∧ _))

/-- No byte of a paste is handed on to the bindings. -/
def KeysClear (scan : ScanState UInt8) : List (UInt8 × Bool) → Prop
  | [] => True
  | b :: l => (b.2 = true → isKey id scan b.1 = false) ∧ KeysClear (scanNext id scan b.1) l

theorem keysClear_append (scan : ScanState UInt8) (l : List UInt8) (l' : List (UInt8 × Bool)) :
    KeysClear scan (l.map (·, false) ++ l') ↔ KeysClear (scanRun scan l) l' := by
  induction l generalizing scan with
  | nil => rfl
  | cons b l ih => simp [KeysClear, ih, scanRun]

theorem isKey_map (scan : ScanState (UInt8 × Bool)) (b : UInt8 × Bool) :
    isKey id (scan.map Prod.fst) b.1 = isKey Prod.fst scan b := by
  cases scan <;> rfl

/-- INTERNAL: what never reaches the bindings is isolated. -/
theorem isolated_of_keysClear (l : List (UInt8 × Bool)) {r : KeystrokeReassembler (UInt8 × Bool)}
    (harmed : ∀ x ∈ armedBytes r, x.2 = false) (h : KeysClear (r.scan.map Prod.fst) l) :
    Isolated r l := by
  induction l generalizing r with
  | nil => trivial
  | cons b l ih =>
      obtain ⟨hkey, hrest⟩ := h
      rw [isKey_map] at hkey
      rw [scanNext_map id Prod.fst] at hrest
      change KeysClear ((scanNext Prod.fst r.scan b).map Prod.fst) l at hrest
      rw [← scan_processByte] at hrest
      by_cases hb : b.2 = true
      · obtain ⟨hnone, hsame⟩ := involved_of_not_key Prod.fst (hkey hb)
        refine ⟨by simp [hnone], ih ?_ hrest⟩
        unfold armedBytes at harmed ⊢
        rw [hsame]
        exact harmed
      · have hclean : ∀ x ∈ armedBytes r ++ [b], x.2 = false := by
          intro x hx
          rcases List.mem_append.mp hx with hx | hx
          · exact harmed x hx
          · rw [List.mem_singleton.mp hx]
            simpa using hb
        obtain ⟨hinv, harmed'⟩ := involved_subset Prod.fst r b
        exact ⟨fun x hx => hclean x (hinv hx), ih (fun x hx => hclean x (harmed' hx)) hrest⟩

/-- INTERNAL: if every paste is recognised, none of its bytes is handed on. The induction is on
the length of the stream, one marker or one byte at a time. -/
theorem keysClear_of_recognized (n : ℕ) : ∀ s : List UInt8, s.length ≤ n →
    (∀ scan, OutsideOk s scan → Recognized .outside 0 scan s →
      KeysClear scan (labelPastes false 0 s)) ∧
    (∀ seen scan, InsideOk s scan → (seen = true → ∃ buf, scan = .inPaste buf) →
      Recognized (.inside seen) 0 scan s → KeysClear scan (labelPastes true 0 s)) := by
  induction n with
  | zero =>
      intro s hs
      have hnil : s = [] := List.length_eq_zero_iff.mp (Nat.le_zero.mp hs)
      subst hnil
      exact ⟨fun _ _ _ => trivial, fun _ _ _ _ _ => trivial⟩
  | succ n ih =>
      intro s hs
      constructor
      · intro scan hok hrec
        by_cases hstart : pasteStart <+: s
        · obtain ⟨rest, rfl⟩ := hstart
          have hlen : rest.length ≤ n := by
            simp only [List.length_append, pasteStart, List.length_cons, List.length_nil] at hs
            omega
          rw [recognized_start] at hrec
          rw [labelPastes_start, keysClear_append]
          cases scan with
          | normal =>
              rw [scanRun_start_of_normal] at hrec ⊢
              refine (ih rest hlen).2 true _ ?_ (fun _ => ⟨[], rfl⟩) (by simpa using hrec)
              intro t ht hsuf
              exact absurd (List.suffix_nil.mp hsuf) ht
          | matchingPasteStart buf =>
              rw [scanRun_start_of_matching hok.1] at hrec ⊢
              exact (ih rest hlen).2 false _ trivial (by simp) (by simpa using hrec)
          | inPaste buf => exact hok.elim
        · cases s with
          | nil => trivial
          | cons b s =>
              have hpre : ¬ pasteStart.isPrefixOf (b :: s) = true := by
                rw [List.isPrefixOf_iff_prefix]
                exact hstart
              rw [Recognized, if_neg hpre] at hrec
              rw [labelPastes, if_neg hpre]
              refine ⟨by simp, ?_⟩
              exact (ih s (by simpa using hs)).1 _ (outsideOk_step hok hstart) hrec
      · intro seen scan hok hseen hrec
        by_cases hend : pasteEnd <+: s
        · obtain ⟨rest, rfl⟩ := hend
          have hlen : rest.length ≤ n := by
            simp only [List.length_append, pasteEnd, List.length_cons, List.length_nil] at hs
            omega
          rw [recognized_end, scanRun_end hok] at hrec
          rw [labelPastes_end, keysClear_append, scanRun_end hok]
          exact (ih rest hlen).1 .normal trivial hrec
        · cases s with
          | nil => trivial
          | cons b s =>
              have hpre : ¬ pasteEnd.isPrefixOf (b :: s) = true := by
                rw [List.isPrefixOf_iff_prefix]
                exact hend
              rw [Recognized, if_neg hpre] at hrec
              obtain ⟨hkey, hrec⟩ := hrec
              rw [labelPastes, if_neg hpre]
              have hnot : isKey id scan b = false := by
                rcases hkey with hkey | hkey
                · obtain ⟨buf, rfl⟩ := hseen hkey
                  rfl
                · exact hkey
              refine ⟨fun _ => hnot, ?_⟩
              refine (ih s (by simpa using hs)).2 seen _ (insideOk_step hok hend) ?_ hrec
              intro hs'
              obtain ⟨buf, rfl⟩ := hseen hs'
              obtain ⟨buf', heq, -⟩ := inPaste_content hok hend
              exact ⟨buf', heq⟩

/-! ## A configuration that an unseen paste reaches -/

/-- A configuration under which the byte `k` arms, right after a marker that went by as keys.
Its leader is a key that no byte produces. For most bytes a binding that begins with `k` is
enough; the last byte of the marker is `~` itself, so there the marker must be used up in
pairs. -/
def leakConfig (k : UInt8) : TymuxConfig where
  leader := "C-é"
  bindings :=
    if k = 0x7e then [⟨[classifyByte 0x32], .detach⟩, ⟨[classifyByte 0x30], .detach⟩,
      ⟨[classifyByte 0x7e], .detach⟩]
    else [⟨[classifyByte k], .detach⟩]

/-- The bytes that arm under `leakConfig k`. -/
def leakArms (k b : UInt8) : Bool :=
  if k = 0x7e then b = 0x32 || b = 0x30 || b = 0x7e else b = k

/-- The reassembler was made from `leakConfig k`. -/
def HasLeakConfig (k : UInt8) (r : KeystrokeReassembler (UInt8 × Bool)) : Prop :=
  r.bindings = (leakConfig k).bindings ∧ r.leader = ⟨'é', true⟩

theorem toNat_charOfNat {n : ℕ} (hn : n < 256) : (Char.ofNat n).toNat = n := by
  have hv : n.isValidChar := Or.inl (by omega)
  unfold Char.ofNat
  rw [dif_pos hv]
  rfl

theorem charOfNat_inj {m n : ℕ} (hm : m < 256) (hn : n < 256)
    (h : Char.ofNat m = Char.ofNat n) : m = n := by
  have heq := congrArg Char.toNat h
  rw [toNat_charOfNat hm, toNat_charOfNat hn] at heq
  exact heq

theorem classifyByte_inj {a b : UInt8} (h : classifyByte a = classifyByte b) : a = b := by
  have ha := a.toNat_lt
  have hb := b.toNat_lt
  apply UInt8.toNat_inj.mp
  unfold classifyByte at h
  split_ifs at h with h₁ h₂ h₂
  · have := charOfNat_inj (by omega) (by omega) (KeyEvent.mk.inj h).1
    omega
  · have := (KeyEvent.mk.inj h).2
    cases this
  · have := (KeyEvent.mk.inj h).2
    cases this
  · exact charOfNat_inj (by omega) (by omega) (KeyEvent.mk.inj h).1

theorem classifyByte_ne_leader (b : UInt8) : classifyByte b ≠ ⟨'é', true⟩ := by
  unfold classifyByte
  split_ifs with hc
  · intro h
    have heq : Char.ofNat (97 + b.toNat - 1) = Char.ofNat 233 := (KeyEvent.mk.inj h).1
    have := charOfNat_inj (by omega) (by omega) heq
    omega
  · intro h
    have := (KeyEvent.mk.inj h).2
    cases this

theorem arms_leakConfig {k : UInt8} {r : KeystrokeReassembler (UInt8 × Bool)}
    (h : HasLeakConfig k r) (b : UInt8) : r.arms (classifyByte b) = leakArms k b := by
  have hinj : ∀ x : UInt8, (classifyByte x = classifyByte b) = (b = x) := fun x =>
    propext ⟨fun heq => (classifyByte_inj heq).symm, fun heq => by rw [heq]⟩
  unfold arms leakArms
  rw [h.1, h.2]
  simp only [classifyByte_ne_leader, decide_false, Bool.false_or, leakConfig]
  split_ifs with hk
  · simp [hinj, Bool.or_assoc]
  · simp [hinj]

/-- INTERNAL: with bindings of one key, a key arms if it can and nothing is armed; otherwise
nothing is armed afterwards.
SRC: input.rs:112-157 -/
theorem key_step {k : UInt8} {r : KeystrokeReassembler (UInt8 × Bool)} (h : HasLeakConfig k r)
    (hs : r.scan = .normal) {b : UInt8 × Bool} (hb : b.1 ≠ 0x1b) :
    HasLeakConfig k (r.processByte Prod.fst b).1 ∧ (r.processByte Prod.fst b).1.scan = .normal ∧
      (r.processByte Prod.fst b).1.armed.isSome = (!r.armed.isSome && leakArms k b.1) := by
  obtain ⟨hbind, hlead⟩ := bindings_processByte Prod.fst r b
  refine ⟨⟨hbind.trans h.1, hlead.trans h.2⟩, (processByte_key Prod.fst hs hb).1, ?_⟩
  rw [← arms_leakConfig h b.1]
  unfold processByte
  simp only [hs, hb, if_false]
  unfold handleNormalByte
  cases ha : r.armed with
  | none =>
      dsimp only
      by_cases harms : r.arms (classifyByte b.1) = true
      · rw [if_pos harms]
        simp [harms]
      · rw [if_neg harms]
        simp [ha, harms]
  | some armed =>
      obtain ⟨bytes, armedKey⟩ := armed
      dsimp only
      split_ifs
      · simp
      · split <;> simp

/-- INTERNAL: a start marker that begins in a partial match goes through as keys, and leaves
nothing armed under `leakConfig k`.
SRC: input.rs:93-97 -/
theorem unseen_marker {k : UInt8} {r : KeystrokeReassembler (UInt8 × Bool)}
    (h : HasLeakConfig k r) {buf : List UInt8} (hpart : PartialStart buf)
    (hs : r.scan.map Prod.fst = .matchingPasteStart buf) :
    HasLeakConfig k (r.process Prod.fst (pasteStart.map (·, false))).1 ∧
      (r.process Prod.fst (pasteStart.map (·, false))).1.scan = .normal ∧
      (r.process Prod.fst (pasteStart.map (·, false))).1.armed = none := by
  have hnormal : ∀ {scan : ScanState (UInt8 × Bool)}, scan.map Prod.fst = .normal →
      scan = .normal := by
    intro scan hscan
    cases scan with
    | normal => rfl
    | _ => cases hscan
  have hesc : (r.processByte Prod.fst ((0x1b : UInt8), false)).1.scan = .normal := by
    apply hnormal
    rw [scan_processByte]
    have hmap := scanNext_map id Prod.fst r.scan ((0x1b : UInt8), false)
    rw [hs] at hmap
    change (scanNext (id ∘ Prod.fst) r.scan ((0x1b : UInt8), false)).map Prod.fst = _
    rw [← hmap]
    obtain ⟨n, h1, h5, rfl⟩ := partialStart_cases hpart
    interval_cases n <;> decide
  have hc₀ : HasLeakConfig k (r.processByte Prod.fst ((0x1b : UInt8), false)).1 := by
    obtain ⟨hbind, hlead⟩ := bindings_processByte Prod.fst r ((0x1b : UInt8), false)
    exact ⟨hbind.trans h.1, hlead.trans h.2⟩
  simp only [pasteStart, List.map_cons, List.map_nil, process]
  generalize (r.processByte Prod.fst ((0x1b : UInt8), false)).1 = r₀ at hesc hc₀ ⊢
  obtain ⟨hc₁, hs₁, ha₁⟩ := key_step hc₀ hesc (b := ((0x5b : UInt8), false)) (by decide)
  generalize (r₀.processByte Prod.fst ((0x5b : UInt8), false)).1 = r₁ at hc₁ hs₁ ha₁ ⊢
  obtain ⟨hc₂, hs₂, ha₂⟩ := key_step hc₁ hs₁ (b := ((0x32 : UInt8), false)) (by decide)
  generalize (r₁.processByte Prod.fst ((0x32 : UInt8), false)).1 = r₂ at hc₂ hs₂ ha₂ ⊢
  obtain ⟨hc₃, hs₃, ha₃⟩ := key_step hc₂ hs₂ (b := ((0x30 : UInt8), false)) (by decide)
  generalize (r₂.processByte Prod.fst ((0x30 : UInt8), false)).1 = r₃ at hc₃ hs₃ ha₃ ⊢
  obtain ⟨hc₄, hs₄, ha₄⟩ := key_step hc₃ hs₃ (b := ((0x30 : UInt8), false)) (by decide)
  generalize (r₃.processByte Prod.fst ((0x30 : UInt8), false)).1 = r₄ at hc₄ hs₄ ha₄ ⊢
  obtain ⟨hc₅, hs₅, ha₅⟩ := key_step hc₄ hs₄ (b := ((0x7e : UInt8), false)) (by decide)
  generalize (r₄.processByte Prod.fst ((0x7e : UInt8), false)).1 = r₅ at hc₅ hs₅ ha₅ ⊢
  refine ⟨hc₅, hs₅, ?_⟩
  rw [← Option.not_isSome_iff_eq_none, Bool.not_eq_true, ha₅, ha₄, ha₃, ha₂, ha₁]
  by_cases hk : k = 0x7e
  · simp [leakArms, hk]
  · have hk' : ¬ (0x7e : UInt8) = k := fun heq => hk heq.symm
    simp [leakArms, hk, hk']

theorem hasLeakConfig_process {k : UInt8} {r : KeystrokeReassembler (UInt8 × Bool)}
    (h : HasLeakConfig k r) (l : List (UInt8 × Bool)) :
    HasLeakConfig k (r.process Prod.fst l).1 := by
  induction l generalizing r with
  | nil => exact h
  | cons b l ih =>
      obtain ⟨hbind, hlead⟩ := bindings_processByte Prod.fst r b
      exact ih ⟨hbind.trans h.1, hlead.trans h.2⟩

theorem isolated_append {r : KeystrokeReassembler (UInt8 × Bool)} {l l' : List (UInt8 × Bool)}
    (h : Isolated r (l ++ l')) : Isolated (r.process Prod.fst l).1 l' := by
  induction l generalizing r with
  | nil => exact h
  | cons b l ih => exact ih h.2

theorem map_scan_processByte (r : KeystrokeReassembler (UInt8 × Bool)) (b : UInt8 × Bool) :
    (r.processByte Prod.fst b).1.scan.map Prod.fst = scanNext id (r.scan.map Prod.fst) b.1 := by
  rw [scan_processByte, scanNext_map id Prod.fst]
  rfl

theorem map_scan_process (r : KeystrokeReassembler (UInt8 × Bool)) (l : List UInt8) :
    (r.process Prod.fst (l.map (·, false))).1.scan.map Prod.fst =
      scanRun (r.scan.map Prod.fst) l := by
  induction l generalizing r with
  | nil => rfl
  | cons b l ih =>
      change ((r.processByte Prod.fst (b, false)).1.process Prod.fst _).1.scan.map _ = _
      rw [ih, map_scan_processByte]
      rfl

/-- INTERNAL: a byte of a paste that is handed on while nothing is armed arms under the
configuration made for it.
SRC: input.rs:117-130 -/
theorem not_isolated_of_key {r : KeystrokeReassembler (UInt8 × Bool)} {b : UInt8}
    {l : List (UInt8 × Bool)} (h : HasLeakConfig b r) (ha : r.armed = none)
    (hkey : isKey id (r.scan.map Prod.fst) b = true) : ¬ Isolated r ((b, true) :: l) := by
  have hs : r.scan = .normal := by
    cases hs : r.scan with
    | normal => rfl
    | _ =>
        rw [hs] at hkey
        cases hkey
  have hb : b ≠ 0x1b := by
    rw [hs] at hkey
    simpa [isKey, ScanState.map] using hkey
  obtain ⟨-, -, harmed⟩ := key_step h hs (b := (b, true)) hb
  have harms : leakArms b b = true := by
    unfold leakArms
    split_ifs with hk
    · simp [hk]
    · simp
  rintro ⟨hiso, -⟩
  have hmem : (b, true) ∈ involved Prod.fst r (b, true) := by
    unfold involved
    rw [harmed, ha]
    simp [harms]
  exact Bool.noConfusion (hiso _ hmem)

/-- INTERNAL: a paste that goes by unseen is not isolated under some configuration. The
induction is that of `keysClear_of_recognized`, and an unseen marker leaves nothing armed. -/
theorem leaks_of_not_recognized (n : ℕ) : ∀ s : List UInt8, s.length ≤ n →
    (∀ scan, OutsideOk s scan → ¬ Recognized .outside 0 scan s →
      ∃ k, ∀ r, HasLeakConfig k r → r.scan.map Prod.fst = scan →
        ¬ Isolated r (labelPastes false 0 s)) ∧
    (∀ seen scan, InsideOk s scan → (seen = true → ∃ buf, scan = .inPaste buf) →
      ¬ Recognized (.inside seen) 0 scan s →
      ∃ k, ∀ r, HasLeakConfig k r → r.scan.map Prod.fst = scan → (seen = false → r.armed = none) →
        ¬ Isolated r (labelPastes true 0 s)) := by
  induction n with
  | zero =>
      intro s hs
      have hnil : s = [] := List.length_eq_zero_iff.mp (Nat.le_zero.mp hs)
      subst hnil
      exact ⟨fun _ _ h => absurd trivial h, fun _ _ _ _ h => absurd trivial h⟩
  | succ n ih =>
      intro s hs
      constructor
      · intro scan hok hrec
        by_cases hstart : pasteStart <+: s
        · obtain ⟨rest, rfl⟩ := hstart
          have hlen : rest.length ≤ n := by
            simp only [List.length_append, pasteStart, List.length_cons, List.length_nil] at hs
            omega
          rw [recognized_start] at hrec
          rw [labelPastes_start]
          cases scan with
          | normal =>
              rw [scanRun_start_of_normal] at hrec
              have hno : InsideOk rest (.inPaste []) := by
                intro t ht hsuf
                exact absurd (List.suffix_nil.mp hsuf) ht
              obtain ⟨k, hk⟩ :=
                (ih rest hlen).2 true _ hno (fun _ => ⟨[], rfl⟩) (by simpa using hrec)
              refine ⟨k, ?_⟩
              intro r hr hscan hiso
              refine hk _ (hasLeakConfig_process hr _) ?_ (by simp) (isolated_append hiso)
              rw [map_scan_process, hscan, scanRun_start_of_normal]
          | matchingPasteStart buf =>
              rw [scanRun_start_of_matching hok.1] at hrec
              obtain ⟨k, hk⟩ :=
                (ih rest hlen).2 false .normal trivial (by simp) (by simpa using hrec)
              refine ⟨k, ?_⟩
              intro r hr hscan hiso
              obtain ⟨hr', hs', ha'⟩ := unseen_marker hr hok.1 hscan
              refine hk _ hr' ?_ (fun _ => ha') (isolated_append hiso)
              rw [hs']
              rfl
          | inPaste buf => exact hok.elim
        · cases s with
          | nil => exact absurd trivial hrec
          | cons b s =>
              have hpre : ¬ pasteStart.isPrefixOf (b :: s) = true := by
                rw [List.isPrefixOf_iff_prefix]
                exact hstart
              rw [Recognized, if_neg hpre] at hrec
              rw [labelPastes, if_neg hpre]
              obtain ⟨k, hk⟩ :=
                (ih s (by simpa using hs)).1 _ (outsideOk_step hok hstart) hrec
              refine ⟨k, ?_⟩
              intro r hr hscan hiso
              refine hk _ (hasLeakConfig_process hr [(b, false)]) ?_ hiso.2
              rw [process_singleton, map_scan_processByte, hscan]
      · intro seen scan hok hseen hrec
        by_cases hend : pasteEnd <+: s
        · obtain ⟨rest, rfl⟩ := hend
          have hlen : rest.length ≤ n := by
            simp only [List.length_append, pasteEnd, List.length_cons, List.length_nil] at hs
            omega
          rw [recognized_end, scanRun_end hok] at hrec
          obtain ⟨k, hk⟩ := (ih rest hlen).1 .normal trivial hrec
          refine ⟨k, ?_⟩
          intro r hr hscan _ hiso
          rw [labelPastes_end] at hiso
          refine hk _ (hasLeakConfig_process hr _) ?_ (isolated_append hiso)
          rw [map_scan_process, hscan, scanRun_end hok]
        · cases s with
          | nil => exact absurd trivial hrec
          | cons b s =>
              have hpre : ¬ pasteEnd.isPrefixOf (b :: s) = true := by
                rw [List.isPrefixOf_iff_prefix]
                exact hend
              rw [Recognized, if_neg hpre] at hrec
              rw [labelPastes, if_neg hpre]
              by_cases hkey : seen = false ∧ isKey id scan b = true
              · refine ⟨b, ?_⟩
                intro r hr hscan ha
                rw [← hscan] at hkey
                exact not_isolated_of_key hr (ha hkey.1) hkey.2
              · have hok' : seen = true ∨ isKey id scan b = false := by
                  cases seen with
                  | true => exact Or.inl rfl
                  | false => exact Or.inr (by simpa using hkey)
                have hnot : isKey id scan b = false := by
                  rcases hok' with hs' | hs'
                  · obtain ⟨buf, rfl⟩ := hseen hs'
                    rfl
                  · exact hs'
                have hstay : seen = true → ∃ buf, scanNext id scan b = .inPaste buf := by
                  intro hs'
                  obtain ⟨buf, rfl⟩ := hseen hs'
                  obtain ⟨buf', heq, -⟩ := inPaste_content hok hend
                  exact ⟨buf', heq⟩
                obtain ⟨k, hk⟩ := (ih s (by simpa using hs)).2 seen _ (insideOk_step hok hend) hstay
                  (fun h => hrec ⟨hok', h⟩)
                refine ⟨k, ?_⟩
                intro r hr hscan ha hiso
                have hnot' : isKey Prod.fst r.scan (b, true) = false := by
                  rw [← isKey_map, hscan]
                  exact hnot
                refine hk _ (hasLeakConfig_process hr [(b, true)]) ?_ ?_ hiso.2
                · rw [process_singleton, map_scan_processByte, hscan]
                · intro hs'
                  rw [process_singleton, (involved_of_not_key Prod.fst hnot').2]
                  exact ha hs'

/-! ## The characterisation -/

theorem hasLeakConfig_new (k : UInt8) : HasLeakConfig k (.new (leakConfig k)) := by
  have hlead : parseLeader "C-é" = ⟨'é', true⟩ := by decide
  refine ⟨rfl, ?_⟩
  simp only [new, leakConfig, hlead]

theorem labelPastes_map_fst (n : ℕ) : ∀ (inside : Bool) (skip : ℕ) (s : List UInt8),
    s.length ≤ n → (labelPastes inside skip s).map Prod.fst = s := by
  induction n with
  | zero =>
      intro inside skip s hs
      have hnil : s = [] := List.length_eq_zero_iff.mp (Nat.le_zero.mp hs)
      subst hnil
      simp [labelPastes]
  | succ n ih =>
      intro inside skip s hs
      cases s with
      | nil => simp [labelPastes]
      | cons b s =>
          have hs' : s.length ≤ n := by simpa using hs
          cases skip with
          | succ skip => simp [labelPastes, ih _ _ s hs']
          | zero =>
              cases inside with
              | false =>
                  rw [labelPastes]
                  split_ifs <;> simp [ih _ _ s hs']
              | true =>
                  rw [labelPastes]
                  split_ifs <;> simp [ih _ _ s hs']

/-- **Paste isolation.** However a stream is cut into reads, it is processed as the labelled
stream is. The bytes of its pastes stay away from the bindings under every configuration if
and only if each paste is recognised, or holds no byte that the scanner hands on.
SRC: input.rs:71-157 -/
theorem paste_isolated_iff (reads : List (List UInt8)) :
    (∀ config : TymuxConfig, ((new config).processReads id reads).2 =
      ((new config).process Prod.fst (labelPastes false 0 reads.flatten)).2.map
        (ReassembledOutput.map Prod.fst)) ∧
    ((∀ config : TymuxConfig, Isolated (.new config) (labelPastes false 0 reads.flatten)) ↔
      Recognized .outside 0 .normal reads.flatten) := by
  constructor
  · intro config
    have hmap := process_map Prod.fst id (.new config) (labelPastes false 0 reads.flatten)
    rw [labelPastes_map_fst _ _ _ _ le_rfl] at hmap
    rw [processReads_eq]
    exact congrArg Prod.snd hmap
  generalize reads.flatten = s
  constructor
  · intro hiso
    by_contra hrec
    obtain ⟨k, hk⟩ := (leaks_of_not_recognized s.length s le_rfl).1 .normal trivial hrec
    exact hk _ (hasLeakConfig_new k) rfl (hiso _)
  · intro hrec config
    apply isolated_of_keysClear
    · simp [armedBytes, new]
    · exact (keysClear_of_recognized s.length s le_rfl).1 .normal trivial hrec

/-- INTERNAL: an `ESC` key and then a paste of `C-b d`: the marker begins in the partial match
of the key, goes by unseen, and the pasted bytes detach the client.
SRC: input.rs:93-97 -/
theorem paste_fires_detach : ¬ Isolated (.new detachConfig)
    (labelPastes false 0 [0x1b, 0x1b, 0x5b, 0x32, 0x30, 0x30, 0x7e, 0x02, 0x64]) := by
  decide +kernel

end Tymux.Analysis
