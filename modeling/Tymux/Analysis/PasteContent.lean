import Tymux.Analysis.PasteIsolation

/-!
# The content of a paste

Inside a paste the scanner forwards the content as it comes and keeps back what may still turn
out to be the beginning of `PASTE_END`. `PasteHeld` says what it has done after some content
without an end marker: what it forwarded and what it holds make up the content in order, it
holds at most six bytes, and at least five once there are five. Only the last byte of the
marker can complete it, since no proper prefix of the marker is also a suffix of it, so the
five bytes held then are the rest of the marker and nothing else is cut off.
-/

set_option autoImplicit false

namespace Tymux.Analysis

open Tymux.Model KeystrokeReassembler

/-- Every output goes to the pty. -/
def AllForward (out : List (ReassembledOutput UInt8)) : Prop :=
  ∀ o ∈ out, ∃ bytes, o = .forward bytes

theorem allForward_append {out out' : List (ReassembledOutput UInt8)} (h : AllForward out)
    (h' : AllForward out') : AllForward (out ++ out') := by
  intro o ho
  rcases List.mem_append.mp ho with ho | ho
  · exact h o ho
  · exact h' o ho

theorem allForward_forward (bytes : List UInt8) : AllForward [.forward bytes] := by
  intro o ho
  exact ⟨bytes, List.mem_singleton.mp ho⟩

theorem allForward_nil : AllForward [] := fun _ ho => absurd ho List.not_mem_nil

/-- The outputs `out` and the bytes `held` make up `content`, and the scanner holds few bytes,
yet enough for the beginning of an end marker. -/
structure PasteHeld (out : List (ReassembledOutput UInt8)) (held content : List UInt8) : Prop where
  forwards : AllForward out
  makeUp : forwarded out ++ held = content
  atMost : held.length ≤ 6
  atLeast : min 5 content.length ≤ held.length

/-! ## Inside the paste -/

/-- INTERNAL: a byte that does not complete the end marker.
SRC: input.rs:105-110 -/
theorem processByte_inPaste {r : KeystrokeReassembler UInt8} {buf : List UInt8} {b : UInt8}
    (hs : r.scan = .inPaste buf) (hlen : buf.length ≤ 6) (hno : ¬ pasteEnd <:+ buf ++ [b]) :
    ∃ out held, r.processByte id b = ({ r with scan := .inPaste held }, out) ∧
      PasteHeld out held (buf ++ [b]) := by
  have hend : ¬ pasteEnd.isSuffixOf ((buf ++ [b]).map id) = true := by
    rw [List.isSuffixOf_iff_suffix, List.map_id]
    exact hno
  have hsix : pasteEnd.length = 6 := rfl
  unfold processByte
  simp only [hs]
  rw [if_neg hend]
  have hbuf : (buf ++ [b]).length ≤ 7 := by
    rw [List.length_append, List.length_singleton]
    omega
  by_cases hlong : pasteEnd.length < (buf ++ [b]).length
  · rw [if_pos hlong]
    refine ⟨_, _, rfl, allForward_forward _, ?_, ?_, ?_⟩
    · rw [forwarded_forward]
      exact List.take_append_drop ..
    · rw [List.length_drop]
      omega
    · rw [List.length_drop]
      omega
  · rw [if_neg hlong]
    exact ⟨_, _, rfl, allForward_nil, rfl, by omega, Nat.min_le_right ..⟩

/-- INTERNAL: content in which no end marker is completed. What the scanner gives up cannot
take part in a later marker, since it keeps a suffix of what it has read. -/
theorem process_inPaste {buf content : List UInt8}
    (hno : ∀ p, p ≠ [] → p <+: content → ¬ pasteEnd <:+ buf ++ p) (hlen : buf.length ≤ 6) :
    ∀ r : KeystrokeReassembler UInt8, r.scan = .inPaste buf →
      ∃ out held, r.process id content = ({ r with scan := .inPaste held }, out) ∧
        PasteHeld out held (buf ++ content) := by
  induction content generalizing buf with
  | nil =>
      intro r hs
      refine ⟨[], buf, ?_, allForward_nil, by simp, hlen, by simp⟩
      rw [process, ← hs]
  | cons b content ih =>
      intro r hs
      obtain ⟨out, held, hstep, hold⟩ := processByte_inPaste hs hlen
        (hno [b] (by simp) ⟨content, rfl⟩)
      have hsuffix : held <:+ buf ++ [b] := ⟨_, hold.makeUp⟩
      have hno' : ∀ p, p ≠ [] → p <+: content → ¬ pasteEnd <:+ held ++ p := by
        intro p _ hp hend
        apply hno (b :: p) (by simp) (List.cons_prefix_cons.mpr ⟨rfl, hp⟩)
        obtain ⟨front, hfront⟩ := hsuffix
        have hmore : held ++ p <:+ buf ++ b :: p := ⟨front, by
          rw [← List.append_assoc, hfront, List.append_assoc, List.singleton_append]⟩
        exact hend.trans hmore
      obtain ⟨out', held', hrun, hold'⟩ :=
        ih hno' hold.atMost { r with scan := .inPaste held } rfl
      refine ⟨out ++ out', held', ?_, allForward_append hold.forwards hold'.forwards, ?_,
        hold'.atMost, ?_⟩
      · rw [process, hstep]
        dsimp only
        rw [hrun]
      · rw [forwarded_append, List.append_assoc, hold'.makeUp, ← List.append_assoc, hold.makeUp,
          List.append_assoc, List.singleton_append]
      · have h := hold.atLeast
        have h' := hold'.atLeast
        simp only [List.length_append, List.length_cons, List.length_nil] at h h' ⊢
        omega

/-! ## The end marker -/

/-- INTERNAL: an end marker that ends inside the first five bytes of the final one already ends
inside the content. Its last byte would be one of these five, but only `~` ends a marker. -/
theorem not_suffix_of_prefix {content p : List UInt8} (hno : ¬ pasteEnd <:+: content)
    (hp : p <+: content ++ [0x1b, 0x5b, 0x32, 0x30, 0x31]) : ¬ pasteEnd <:+ p := by
  intro hend
  rcases List.prefix_or_prefix_of_prefix hp (List.prefix_append content _) with h | h
  · exact hno (hend.isInfix.trans h.isInfix)
  · obtain ⟨t, rfl⟩ := h
    have ht : t <+: [0x1b, 0x5b, 0x32, 0x30, 0x31] := (List.prefix_append_right_inj content).mp hp
    rcases List.eq_nil_or_concat' t with rfl | ⟨t', b, rfl⟩
    · rw [List.append_nil] at hend
      exact hno hend.isInfix
    · rw [← List.append_assoc] at hend
      have hlast := hend.getLast (by decide)
      rw [List.getLast_concat] at hlast
      have hb : b ∈ [0x1b, 0x5b, 0x32, 0x30, 0x31] := ht.subset (by simp)
      rw [← hlast] at hb
      revert hb
      decide

/-- INTERNAL: a marker that starts a paste.
SRC: input.rs:82-96 -/
theorem process_pasteStart {r : KeystrokeReassembler UInt8} (hs : r.scan = .normal) :
    r.process id pasteStart = ({ r with scan := .inPaste [] }, []) := by
  simp [process, processByte, hs, pasteStart]

/-- INTERNAL: the scanner holds no content while the start marker is being read. -/
theorem process_startPrefix {r : KeystrokeReassembler UInt8} (hs : r.scan = .normal)
    {l buf : List UInt8} (hl : l <+: pasteStart) (hbuf : (r.process id l).1.scan = .inPaste buf) :
    buf = [] := by
  have htake : l = pasteStart.take l.length := List.prefix_iff_eq_take.mp hl
  have hlen : l.length ≤ 6 := hl.length_le
  rw [htake] at hbuf
  generalize l.length = n at hlen hbuf
  interval_cases n <;> simp [process, processByte, hs, pasteStart] at hbuf
  exact hbuf

/-- INTERNAL: the last byte of the end marker closes the paste. The scanner holds the other
five then, so that what it forwards is the content it still held.
SRC: input.rs:98-104 -/
theorem processByte_close {r : KeystrokeReassembler UInt8} {buf content : List UInt8}
    {out : List (ReassembledOutput UInt8)} (hs : r.scan = .inPaste buf)
    (hold : PasteHeld out buf (content ++ [0x1b, 0x5b, 0x32, 0x30, 0x31])) :
    ∃ out', r.processByte id 0x7e = ({ r with scan := .normal }, out') ∧ AllForward out' ∧
      forwarded (out ++ out') = content := by
  have hfive : [0x1b, 0x5b, 0x32, 0x30, 0x31] <:+ buf := by
    have hwhole : [0x1b, 0x5b, 0x32, 0x30, 0x31] <:+
        content ++ [(0x1b : UInt8), 0x5b, 0x32, 0x30, 0x31] := List.suffix_append ..
    have hbuf : buf <:+ content ++ [0x1b, 0x5b, 0x32, 0x30, 0x31] := ⟨_, hold.makeUp⟩
    apply List.suffix_of_suffix_length_le hwhole hbuf
    have hleast := hold.atLeast
    simp only [List.length_append, List.length_cons, List.length_nil] at hleast ⊢
    omega
  obtain ⟨front, rfl⟩ := hfive
  have hsplit : (front ++ [0x1b, 0x5b, 0x32, 0x30, 0x31]) ++ [0x7e] = front ++ pasteEnd := by
    simp [pasteEnd]
  have hend : pasteEnd.isSuffixOf ((front ++ pasteEnd).map id) = true := by
    rw [List.isSuffixOf_iff_suffix, List.map_id]
    exact List.suffix_append ..
  have htake : (front ++ pasteEnd).take ((front ++ pasteEnd).length - pasteEnd.length) = front := by
    rw [List.length_append, Nat.add_sub_cancel, List.take_left]
  have hcontent : forwarded out ++ front = content := by
    have hmake := hold.makeUp
    rw [← List.append_assoc] at hmake
    exact List.append_cancel_right hmake
  unfold processByte
  simp only [hs, hsplit]
  rw [if_pos hend, htake]
  refine ⟨_, rfl, ?_, ?_⟩
  · split_ifs
    · exact allForward_nil
    · exact allForward_forward _
  · rw [forwarded_append, ← hcontent]
    congr 1
    cases front <;> simp

/-! ## A whole paste -/

/-- **Paste content.** A paste whose content holds no end marker, in any split into reads,
leaves the reassembler as it was and forwards the content unchanged, and after every byte the
scanner holds at most six bytes of it.
SRC: input.rs:79-115 -/
theorem paste_forwarded {r : KeystrokeReassembler UInt8} (hnormal : r.scan = .normal)
    {content : List UInt8} (hno : ¬ pasteEnd <:+: content) {reads : List (List UInt8)}
    (hreads : reads.flatten = pasteStart ++ content ++ pasteEnd) :
    (r.processReads id reads).1 = r ∧ AllForward (r.processReads id reads).2 ∧
      forwarded (r.processReads id reads).2 = content ∧
      ∀ l buf, l <+: reads.flatten → (r.process id l).1.scan = .inPaste buf → buf.length ≤ 6 := by
  have hinside : ∀ p, p <+: content ++ [0x1b, 0x5b, 0x32, 0x30, 0x31] → ∃ out held,
      r.process id (pasteStart ++ p) = ({ r with scan := .inPaste held }, out) ∧
        PasteHeld out held p := by
    intro p hp
    have hclear : ∀ q, q ≠ [] → q <+: p → ¬ pasteEnd <:+ [] ++ q :=
      fun q _ hq => not_suffix_of_prefix hno (hq.trans hp)
    obtain ⟨out, held, hrun, hold⟩ :=
      process_inPaste hclear (Nat.zero_le 6) { r with scan := .inPaste [] } rfl
    refine ⟨out, held, ?_, hold⟩
    rw [process_concat, process_pasteStart hnormal]
    dsimp only
    rw [hrun]
    rfl
  have hsplit : pasteStart ++ content ++ pasteEnd =
      (pasteStart ++ (content ++ [0x1b, 0x5b, 0x32, 0x30, 0x31])) ++ [0x7e] := by
    simp [pasteEnd]
  obtain ⟨out, held, hrun, hold⟩ := hinside _ (List.prefix_refl _)
  obtain ⟨out', hlast, hforward, hout⟩ := processByte_close
    (r := { r with scan := .inPaste held }) rfl hold
  have hall : r.process id (pasteStart ++ content ++ pasteEnd) =
      ({ r with scan := .normal }, out ++ out') := by
    rw [hsplit, process_concat, hrun, process_singleton, hlast]
  have hback : { r with scan := .normal } = r := by rw [← hnormal]
  rw [processReads_eq, hreads, hall, hback]
  refine ⟨rfl, allForward_append hold.forwards hforward, hout, ?_⟩
  intro l buf hl hbuf
  rw [hsplit] at hl
  rcases List.prefix_concat_iff.mp hl with rfl | hl
  · rw [← hsplit, hall] at hbuf
    cases hbuf
  rcases List.prefix_or_prefix_of_prefix hl (List.prefix_append pasteStart _) with h | h
  · rw [process_startPrefix hnormal h hbuf]
    exact Nat.zero_le 6
  · obtain ⟨p, rfl⟩ := h
    obtain ⟨out, held, hrun, hold⟩ := hinside p ((List.prefix_append_right_inj pasteStart).mp hl)
    rw [hrun] at hbuf
    cases hbuf
    exact hold.atMost

/-- INTERNAL: a paste with two near misses of the end marker, read in two parts that cut the
second one. -/
theorem paste_forwarded_near_misses :
    forwarded ((new detachConfig).processReads id
        [pasteStart ++ [0x1b, 0x5b, 0x32, 0x30, 0x31, 0x1b, 0x5b], [0x32, 0x7e] ++ pasteEnd]).2 =
      [0x1b, 0x5b, 0x32, 0x30, 0x31, 0x1b, 0x5b, 0x32, 0x7e] :=
  have hno : ¬ pasteEnd <:+: [0x1b, 0x5b, 0x32, 0x30, 0x31, 0x1b, 0x5b, 0x32, 0x7e] := by decide
  (paste_forwarded (r := new detachConfig) rfl hno rfl).2.2.1

end Tymux.Analysis
