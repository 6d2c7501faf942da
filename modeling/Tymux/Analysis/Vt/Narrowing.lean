import Tymux.Analysis.Vt.LineLengths
import Tymux.Lib.Overlay

/-!
# Rewrapping to a smaller width

`reflow_smaller` first computes where the line of a group breaks at the new width (`Broken`): not
inside of a wide character. Then it copies the line backwards into the rows of the group and the
rows added to it. The place it writes to is never before the place it reads from, so the group is
the overlay of the pieces over the rows as they were, at the position that both places stand for.
-/

set_option autoImplicit false

namespace Tymux.Analysis.Vt

open Tymux.Lib Tymux.Model Tymux.Model.Vt

/-! ## Line breaks -/

/-- The line broken into pieces: each fills a row, or all of it but one column. -/
inductive Broken (newCols : ℕ) : List Cell → List (List Cell) → Prop
  | nil : Broken newCols [] []
  | last {piece : List Cell} (hpaired : PairedCells piece) (hpos : 0 < piece.length)
      (hlen : piece.length < newCols) : Broken newCols piece [piece]
  | cons {piece rest : List Cell} {pieces : List (List Cell)} (hpaired : PairedCells piece)
      (hpos : 0 < piece.length) (hfull : newCols ≤ piece.length + 1) (hlen : piece.length ≤ newCols)
      (hrest : Broken newCols rest pieces) : Broken newCols (piece ++ rest) (piece :: pieces)

theorem Broken.flatten {newCols : ℕ} {line : List Cell} {pieces : List (List Cell)}
    (h : Broken newCols line pieces) : pieces.flatten = line := by
  induction h with
  | nil => rfl
  | last => rw [List.flatten_singleton]
  | cons _ _ _ _ _ ih => rw [List.flatten_cons, ih]

theorem Broken.piece {newCols : ℕ} {line : List Cell} {pieces : List (List Cell)}
    (h : Broken newCols line pieces) :
    ∀ piece ∈ pieces, PairedCells piece ∧ 0 < piece.length ∧ piece.length ≤ newCols := by
  induction h with
  | nil => exact fun piece hpiece => absurd hpiece List.not_mem_nil
  | last hpaired hpos hlen =>
      rw [List.forall_mem_singleton]
      exact ⟨hpaired, hpos, hlen.le⟩
  | cons hpaired hpos _ hlen _ ih =>
      rw [List.forall_mem_cons]
      exact ⟨⟨hpaired, hpos, hlen⟩, ih⟩

/-- Only the last piece can be shorter than a row by more than one column. -/
theorem Broken.full {newCols : ℕ} {line : List Cell} {pieces : List (List Cell)}
    (h : Broken newCols line pieces) {k : ℕ} {piece : List Cell} (hpiece : pieces[k]? = some piece)
    (hnext : k + 1 < pieces.length) : newCols ≤ piece.length + 1 := by
  induction h generalizing k with
  | nil => cases hpiece
  | last => 
      rw [List.length_singleton] at hnext
      omega
  | cons _ _ hfull _ _ ih =>
      cases k with
      | zero =>
          rw [List.getElem?_cons_zero, Option.some_inj] at hpiece
          rw [← hpiece]
          exact hfull
      | succ k =>
          rw [List.getElem?_cons_succ] at hpiece
          rw [List.length_cons] at hnext
          exact ih hpiece (by omega)

section

variable {oldCols newCols : ℕ} {group : List Row}

/-- Of a line that is paired, the pieces are. -/
theorem Sliced.broken {line : List Cell} {pieces : List (List Cell)}
    (h : Sliced newCols line pieces) (hpaired : PairedCells line) : Broken newCols line pieces := by
  induction h with
  | nil => exact .nil
  | last hpos hlen => exact .last hpaired hpos hlen
  | cons hpos hfull hlen hwhole hrest ih =>
      obtain ⟨hpiece, hleft⟩ :=
        hpaired.split_of_not_first fun c hc hfirst => hwhole c hc hfirst.half
      exact .cons hpiece hpos hfull hlen (ih hleft)

/-- SRC: reflow.rs:91-125 -/
theorem newLineLengths_spec (hnew : 2 ≤ newCols) (hlt : newCols < oldCols)
    (hgroup : ∀ row ∈ group, Padded oldCols oldCols row) :
    ∃ pieces, newLineLengths group oldCols newCols = some (pieces.map List.length) ∧
      Broken newCols (segments oldCols group).flatten pieces := by
  obtain ⟨pieces, hdest, hsliced⟩ :=
    newLineLengths_sliced hnew hlt fun row hrow => (hgroup row hrow).flagged
  refine ⟨pieces, hdest, hsliced.broken ?_⟩
  exact Paired.flatten (paired_segments (by omega) (le_refl _) hgroup)

/-! ## Copying backwards -/

/-- A group with the rows that were added to it, and the pieces of its line. -/
structure Respread (oldCols newCols : ℕ) (group extra : List Row) (pieces : List (List Cell)) :
    Prop where
  new_pos : 2 ≤ newCols
  new_lt : newCols < oldCols
  padded : ∀ row ∈ group, Padded oldCols oldCols row
  extra_len : ∀ row ∈ extra, row.cells.length = newCols
  broken : Broken newCols (segments oldCols group).flatten pieces

variable {extra : List Row} {pieces : List (List Cell)}

theorem Respread.segment (h : Respread oldCols newCols group extra pieces) {i : ℕ} {row : Row}
    (hrow : group[i]? = some row) :
    offset (segments oldCols group) (i + 1) =
      offset (segments oldCols group) i + lineLen oldCols group i := by
  have hpos : 1 ≤ oldCols := by
    have := h.new_lt
    omega
  rw [offset_succ (segments_getElem? hrow), length_segment (ruled_of_padded hpos h.padded) hrow]

/-- The line reaches a row before the last one of the old group no earlier than one of the new. -/
theorem Respread.offset_le (h : Respread oldCols newCols group extra pieces) {i : ℕ}
    (hi : i < group.length) : offset pieces i ≤ offset (segments oldCols group) i := by
  have hlt := h.new_lt
  induction i with
  | zero => exact Nat.zero_le _
  | succ i ih =>
      have hrow := List.getElem?_eq_getElem (Nat.lt_of_succ_lt hi)
      have hfull := le_lineLen (by omega) (le_refl _) h.padded hi
      have hbefore := ih (Nat.lt_of_succ_lt hi)
      rw [h.segment hrow]
      cases hpiece : pieces[i]? with
      | none =>
          have hle := List.getElem?_eq_none_iff.mp hpiece
          rw [offset_of_length_le hle] at hbefore
          rw [offset_of_length_le (hle.trans (Nat.le_succ i))]
          omega
      | some piece =>
          have hlen := (h.broken.piece piece (List.mem_of_getElem? hpiece)).2.2
          rw [offset_succ hpiece]
          omega

/-- The group when `p` cells of its line are left to copy. -/
def Unwound (group extra : List Row) (pieces : List (List Cell)) (g : List Row) (p : ℕ) : Prop :=
  g.map Row.cells = overlay ((group ++ extra).map Row.cells) pieces p

variable {g : List Row} {p : ℕ}

theorem Unwound.length (h : Unwound group extra pieces g p) :
    g.length = group.length + extra.length := by
  have hlen := congrArg List.length h
  rw [List.length_map, length_overlay, List.length_map, List.length_append] at hlen
  exact hlen

theorem Unwound.get (h : Unwound group extra pieces g p) {k : ℕ} {cells : List Cell}
    (hcells : (overlay ((group ++ extra).map Row.cells) pieces p)[k]? = some cells) :
    ∃ row, g[k]? = some row ∧ row.cells = cells := by
  rw [← h, List.getElem?_map] at hcells
  exact Option.map_eq_some_iff.mp hcells

theorem getElem?_cells {k : ℕ} (hk : k < group.length) :
    ((group ++ extra).map Row.cells)[k]? = some group[k].cells := by
  rw [List.getElem?_map, List.getElem?_append_left hk, List.getElem?_eq_getElem hk, Option.map_some]

/-- Every row has room for a piece. -/
theorem Respread.room (h : Respread oldCols newCols group extra pieces) {k : ℕ} {cells : List Cell}
    (hcells : ((group ++ extra).map Row.cells)[k]? = some cells) : newCols ≤ cells.length := by
  have hlt := h.new_lt
  rw [List.getElem?_map] at hcells
  obtain ⟨row, hrow, rfl⟩ := Option.map_eq_some_iff.mp hcells
  rcases List.mem_append.mp (List.mem_of_getElem? hrow) with hmem | hmem
  · rw [(h.padded row hmem).length]
    omega
  · rw [h.extra_len row hmem]

/-- The rows keep their length. -/
theorem Respread.row (h : Respread oldCols newCols group extra pieces)
    (hg : Unwound group extra pieces g p) {i : ℕ} (hi : i < group.length) :
    ∃ row, g[i]? = some row ∧ row.cells.length = oldCols := by
  have hlt := h.new_lt
  have hlen := (h.padded _ (List.getElem_mem hi)).length
  cases hpiece : pieces[i]? with
  | none =>
      obtain ⟨row, hget, hcells⟩ := hg.get (overlay_getElem?_of_none (getElem?_cells hi) hpiece)
      exact ⟨row, hget, by rw [hcells, hlen]⟩
  | some piece =>
      have hle := (h.broken.piece piece (List.mem_of_getElem? hpiece)).2.2
      obtain ⟨row, hget, hcells⟩ := hg.get (overlay_getElem? (getElem?_cells hi) hpiece)
      refine ⟨row, hget, ?_⟩
      rw [hcells, length_overlayRow (min_le_left _ _) (by omega), hlen]

/-- A part of a row is a part of the line, and so of a piece. -/
theorem Respread.line (h : Respread oldCols newCols group extra pieces)
    {i k srcCol destCol n : ℕ} {piece : List Cell} (hi : i < group.length)
    (hsrc : srcCol ≤ lineLen oldCols group i) (hpiece : pieces[k]? = some piece)
    (hdest : destCol ≤ piece.length)
    (hsame : offset (segments oldCols group) i + srcCol = offset pieces k + destCol)
    (hn : n ≤ srcCol) (hn' : n ≤ destCol) :
    (group[i].cells.drop (srcCol - n)).take n = (piece.drop (destCol - n)).take n := by
  have hlt := h.new_lt
  have hrow := List.getElem?_eq_getElem hi
  have hsegment : (segments oldCols group)[i]? =
      some (group[i].cells.take (lineLen oldCols group i)) := segments_getElem? hrow
  have hseg := length_segment (ruled_of_padded (by omega) h.padded) hrow
  have hwhole : ((segments oldCols group).flatten.drop
      (offset (segments oldCols group) i + (srcCol - n))).take n = _ :=
    take_drop_flatten hsegment (by rw [hseg]; omega)
  rw [List.drop_take, List.take_take, min_eq_left (by omega)] at hwhole
  rw [← take_drop_flatten hpiece (by omega), h.broken.flatten, ← hwhole]
  congr 2
  omega

/-- INTERNAL: What is read of row `i` is the part of the line before the position.
SRC: reflow.rs:298-312 -/
theorem Respread.taken (h : Respread oldCols newCols group extra pieces)
    (hg : Unwound group extra pieces g p) {i k srcCol destCol n : ℕ} {piece row : List Cell}
    (hi : i < group.length) (hsrc : srcCol ≤ lineLen oldCols group i)
    (hpsrc : p = offset (segments oldCols group) i + srcCol) (hpiece : pieces[k]? = some piece)
    (hdest : destCol ≤ piece.length) (hpdest : p = offset pieces k + destCol) (hn : n ≤ srcCol)
    (hn' : n ≤ destCol) (hrow : (g.map Row.cells)[i]? = some row) :
    (row.drop (srcCol - n)).take n = (piece.drop (destCol - n)).take n := by
  have hlt := h.new_lt
  have hlen := (h.padded _ (List.getElem_mem hi)).length
  have hline := h.line hi hsrc hpiece hdest (hpsrc.symm.trans hpdest) hn hn'
  rw [hg] at hrow
  rcases Nat.eq_zero_or_pos n with rfl | hpos
  · rw [List.take_zero, List.take_zero]
  rcases Nat.lt_or_ge i k with hik | hki
  · -- the row is before the one that is written to
    have hbefore : (overlay ((group ++ extra).map Row.cells) pieces p)[i]? = some group[i].cells := by
      refine overlay_getElem?_before (getElem?_cells hi) fun piece' hpiece' => ?_
      have hmono : offset pieces (i + 1) ≤ offset pieces k := offset_mono hik
      rw [← offset_succ hpiece']
      omega
    rw [hbefore, Option.some_inj] at hrow
    rw [← hrow, hline]
  · have hle := h.offset_le hi
    have heq : i = k := by
      by_contra hne
      have hmono : offset pieces (k + 1) ≤ offset pieces i := offset_mono (by omega)
      rw [offset_succ hpiece] at hmono
      omega
    subst heq
    have hpieceLen := (h.broken.piece piece (List.mem_of_getElem? hpiece)).2.2
    have hcol : min piece.length (p - offset pieces i) = destCol := by omega
    rw [overlay_getElem? (getElem?_cells hi) hpiece, hcol, Option.some_inj] at hrow
    rw [← hrow, take_drop_overlayRow _ _ (by omega) (by omega), hline]

/-- INTERNAL: One copy moves the position back.
SRC: reflow.rs:298-312 -/
theorem Respread.copy (h : Respread oldCols newCols group extra pieces)
    (hg : Unwound group extra pieces g p) {i k srcCol destCol n : ℕ} {piece : List Cell}
    (hi : i < group.length) (hsrc : srcCol ≤ lineLen oldCols group i)
    (hpsrc : p = offset (segments oldCols group) i + srcCol) (hpiece : pieces[k]? = some piece)
    (hk : k < group.length + extra.length)
    (hdest : destCol ≤ piece.length) (hpdest : p = offset pieces k + destCol) (hn : n ≤ srcCol)
    (hn' : n ≤ destCol) :
    ∃ g', copyCells g i (srcCol - n) k (destCol - n) n = some g' ∧
      Unwound group extra pieces g' (p - n) := by
  have hlt := h.new_lt
  have hline := lineLen_le (by omega) (le_refl _) h.padded hi
  obtain ⟨src, hsrcGet, hsrcLen⟩ := h.row hg hi
  have htaken : (src.cells.drop (srcCol - n)).take n = (piece.drop (destCol - n)).take n :=
    h.taken hg hi hsrc hpsrc hpiece hdest hpdest hn hn' (by rw [List.getElem?_map, hsrcGet]; rfl)
  have hkrow : k < ((group ++ extra).map Row.cells).length := by
    rw [List.length_map, List.length_append]
    exact hk
  have hcells := List.getElem?_eq_getElem hkrow
  have hroom := h.room hcells
  have hpieceLen := (h.broken.piece piece (List.mem_of_getElem? hpiece)).2.2
  obtain ⟨dst, hdstGet, hdstCells⟩ := hg.get (overlay_getElem? hcells hpiece)
  have hcol : min piece.length (p - offset pieces k) = destCol := by omega
  rw [hcol] at hdstCells
  have hdstLen : dst.cells.length = ((group ++ extra).map Row.cells)[k].length := by
    rw [hdstCells, length_overlayRow hdest (by omega)]
  have hmin : min (min n (oldCols - (srcCol - n))) (dst.cells.length - (destCol - n)) = n := by
    rw [hdstLen]
    omega
  refine ⟨g.set k { dst with cells := dst.cells.take (destCol - n) ++
    (piece.drop (destCol - n)).take n ++ dst.cells.drop (destCol - n + n) }, ?_, ?_⟩
  · unfold copyCells
    rw [hsrcGet, hdstGet]
    simp only [Option.bind_eq_bind, Option.bind_some, Option.pure_def]
    rw [hsrcLen, if_neg (by omega), hmin, htaken]
  · unfold Unwound at hg ⊢
    rw [List.map_set, hg]
    dsimp only
    rw [hdstCells, overlayRow_write hn' hdest (by omega)]
    exact overlay_set hcells hpiece hdest hn' hpdest

/-- The line ends with the last row of the group. -/
theorem Respread.total (h : Respread oldCols newCols group extra pieces) :
    pieces.flatten.length = offset (segments oldCols group) group.length := by
  rw [offset_of_length_le length_segments.le, h.broken.flatten]

/-- The first cell of a row stays what it was until something is copied to it. -/
theorem Respread.head (h : Respread oldCols newCols group extra pieces)
    (hg : Unwound group extra pieces g p) {i : ℕ} (hi : i < group.length)
    (hp : p = offset (segments oldCols group) i) :
    ∃ row, g[i]? = some row ∧ row.cells[0]? = group[i].cells[0]? := by
  have hlt := h.new_lt
  cases hpiece : pieces[i]? with
  | none =>
      obtain ⟨row, hget, hcells⟩ := hg.get (overlay_getElem?_of_none (getElem?_cells hi) hpiece)
      exact ⟨row, hget, by rw [hcells]⟩
  | some piece =>
      obtain ⟨-, hpos, hpieceLen⟩ := h.broken.piece piece (List.mem_of_getElem? hpiece)
      have hlen := (h.padded _ (List.getElem_mem hi)).length
      obtain ⟨row, hget, hcells⟩ := hg.get (overlay_getElem? (getElem?_cells hi) hpiece)
      refine ⟨row, hget, ?_⟩
      have hle := h.offset_le hi
      rw [hcells]
      generalize ha : min piece.length (p - offset pieces i) = a
      unfold overlayRow
      rcases Nat.eq_zero_or_pos a with rfl | hapos
      · -- the piece starts where the row does
        have hfirst : 1 ≤ lineLen oldCols group i := by
          have hrow := List.getElem?_eq_getElem hi
          rcases Nat.lt_or_ge (i + 1) group.length with hmore | hlast
          · have hfull := le_lineLen (by omega) (le_refl _) h.padded hmore
            have hnew := h.new_pos
            omega
          · have hend : i + 1 = group.length := by omega
            have htotal := h.total
            rw [← hend, h.segment hrow] at htotal
            have hoffset : offset pieces (i + 1) ≤ pieces.flatten.length := Lib.offset_le
            rw [offset_succ hpiece] at hoffset
            omega
        have hline := h.line hi hfirst hpiece hpos (by omega) (le_refl 1) (le_refl 1)
        rw [Nat.sub_self, List.drop_zero, List.drop_zero] at hline
        rw [List.take_zero, List.nil_append, List.drop_zero, List.getElem?_append_left hpos,
          ← List.getElem?_take_of_lt Nat.one_pos, ← hline, List.getElem?_take_of_lt Nat.one_pos]
      · rw [List.append_assoc, List.getElem?_append_left (by rw [List.length_take]; omega),
          List.getElem?_take_of_lt hapos]

/-- INTERNAL: The length of a row that nothing was copied to yet is what it was.
SRC: reflow.rs:313-320 -/
theorem Respread.srcLen (h : Respread oldCols newCols group extra pieces)
    (hg : Unwound group extra pieces g p) {i : ℕ} (hi : i + 1 < group.length)
    (hp : p = offset (segments oldCols group) (i + 1)) :
    wrappedLineTrimmedLen g i oldCols = some (lineLen oldCols group i) := by
  have hlt := h.new_lt
  have hi' : i < group.length := Nat.lt_of_succ_lt hi
  have hlen := hg.length
  have hle := h.offset_le hi
  obtain ⟨next, hnext, hhead⟩ := h.head hg hi hp
  obtain ⟨row, hrow, hcells⟩ := hg.get
    (overlay_getElem?_before (getElem?_cells hi') fun piece hpiece => by
      rw [← offset_succ hpiece]
      omega)
  have hcontent : ∀ col, hasContent row col = hasContent group[i] col := by
    intro col
    unfold hasContent
    rw [hcells]
  have hwidth : ∀ col, widthAt row col = widthAt group[i] col := by
    intro col
    unfold widthAt
    rw [hcells]
  have hwidth' : widthAt next 0 = widthAt group[i + 1] 0 := by
    unfold widthAt
    rw [if_pos (le_refl 0), Int.toNat_zero, hhead]
    rfl
  rw [← wrappedLineTrimmedLen_eq (by omega) (le_refl _) h.padded hi']
  unfold wrappedLineTrimmedLen
  rw [if_neg (by omega), if_neg (by omega), hrow, hnext, List.getElem?_eq_getElem hi',
    List.getElem?_eq_getElem hi]
  simp only [Option.bind_eq_bind, Option.bind_some, hcontent, hwidth, hwidth']

/-- The place to write to is the end of `p` cells. -/
def DestAt (pieces : List (List Cell)) (destIdx : ℤ) (destCol p : ℕ) : Prop :=
  (destIdx < 0 ∧ p = 0) ∨ ∃ (k : ℕ) (piece : List Cell), destIdx = k ∧ pieces[k]? = some piece ∧
    destCol ≤ piece.length ∧ p = offset pieces k + destCol

/-- The place to read from is the end of `p` cells. -/
def SrcAt (oldCols : ℕ) (group : List Row) (srcIdx : ℤ) (srcCol p : ℕ) : Prop :=
  (srcIdx < 0 ∧ p = 0) ∨ ∃ i : ℕ, srcIdx = i ∧ i < group.length ∧
    srcCol ≤ lineLen oldCols group i ∧ p = offset (segments oldCols group) i + srcCol

/-- The lengths of the pieces, read by an index that may be negative. -/
theorem destAt_piece {k : ℕ} {piece : List Cell} (hpiece : pieces[k]? = some piece) :
    destAt (pieces.map List.length) k = piece.length := by
  unfold destAt
  rw [if_pos (Int.natCast_nonneg k), Int.toNat_natCast, List.getElem?_map, hpiece]
  rfl

/-- When a piece is done, the one before it is next.
SRC: reflow.rs:304-309 -/
theorem destAt_before {k : ℕ} {piece : List Cell} (hpiece : pieces[k]? = some piece) :
    DestAt pieces ((k : ℤ) - 1) (destAt (pieces.map List.length) ((k : ℤ) - 1)) (offset pieces k) := by
  cases k with
  | zero => exact Or.inl ⟨by omega, rfl⟩
  | succ k =>
      have hk := Nat.lt_of_succ_lt (List.getElem?_eq_some_iff.mp hpiece).1
      have hpiece' := List.getElem?_eq_getElem hk
      have hcast : ((k + 1 : ℕ) : ℤ) - 1 = (k : ℕ) := by omega
      rw [hcast, destAt_piece hpiece']
      exact Or.inr ⟨k, pieces[k], rfl, hpiece', le_refl _, offset_succ hpiece'⟩

/-- SRC: reflow.rs:302-309 -/
theorem destAt_step {k destCol n : ℕ} {piece : List Cell} (hpiece : pieces[k]? = some piece)
    (hdest : destCol ≤ piece.length) (hn : n ≤ destCol) :
    ∃ dest : ℤ × ℕ,
      (if destCol - n = 0 then ((k : ℤ) - 1, destAt (pieces.map List.length) ((k : ℤ) - 1))
        else ((k : ℤ), destCol - n)) = dest ∧
      DestAt pieces dest.1 dest.2 (offset pieces k + destCol - n) ∧ dest.1 ≤ k ∧
      (destCol - n = 0 → dest.1 < k) := by
  refine ⟨_, rfl, ?_⟩
  split
  · have hstart : offset pieces k + destCol - n = offset pieces k := by omega
    rw [hstart]
    exact ⟨destAt_before hpiece, by dsimp only; omega, fun _ => by dsimp only; omega⟩
  · refine ⟨Or.inr ⟨k, piece, rfl, hpiece, ?_, ?_⟩, le_refl _, fun hzero => ?_⟩
    · exact (Nat.sub_le _ _).trans hdest
    · exact Nat.add_sub_assoc hn _
    · omega

/-- When a row is done, the one before it is next.
SRC: reflow.rs:313-320 -/
theorem Respread.src_before (h : Respread oldCols newCols group extra pieces) {i q : ℕ}
    (hg : Unwound group extra pieces g q) (hi : i < group.length)
    (hq : q = offset (segments oldCols group) i) :
    ∃ len, wrappedLineTrimmedLen g (max ((i : ℤ) - 1) 0).toNat oldCols = some len ∧
      SrcAt oldCols group ((i : ℤ) - 1) len q := by
  have hlt := h.new_lt
  have hlen := hg.length
  cases i with
  | zero =>
      have hfirst : 0 < g.length := by omega
      have hidx : (max (((0 : ℕ) : ℤ) - 1) 0).toNat = 0 := rfl
      have htotal : ∃ len, wrappedLineTrimmedLen g 0 oldCols = some len := by
        unfold wrappedLineTrimmedLen
        rw [List.getElem?_eq_getElem hfirst]
        split
        · exact ⟨_, rfl⟩
        · have hnext : 0 + 1 < g.length := by omega
          rw [List.getElem?_eq_getElem hnext, checkedSub_of_le (by omega)]
          exact ⟨_, rfl⟩
      obtain ⟨len, hget⟩ := htotal
      rw [hidx, hq]
      exact ⟨len, hget, Or.inl ⟨by omega, rfl⟩⟩
  | succ i =>
      have hcast : ((i + 1 : ℕ) : ℤ) - 1 = (i : ℕ) := by omega
      have hidx : (max (((i + 1 : ℕ) : ℤ) - 1) 0).toNat = i := by omega
      have hrow := List.getElem?_eq_getElem (Nat.lt_of_succ_lt hi)
      rw [hidx, h.srcLen hg hi hq, hcast, hq, h.segment hrow]
      exact ⟨_, rfl, Or.inr ⟨i, rfl, Nat.lt_of_succ_lt hi, le_refl _, rfl⟩⟩

/-- SRC: reflow.rs:310-321 -/
theorem Respread.src_step (h : Respread oldCols newCols group extra pieces) {i srcCol n : ℕ}
    (hi : i < group.length) (hsrc : srcCol ≤ lineLen oldCols group i) (hn : n ≤ srcCol)
    (hg : Unwound group extra pieces g (offset (segments oldCols group) i + srcCol - n)) :
    ∃ src : ℤ × ℕ,
      (if srcCol - n = 0 then
          (wrappedLineTrimmedLen g (max ((i : ℤ) - 1) 0).toNat oldCols).bind fun len =>
            pure ((i : ℤ) - 1, len)
        else pure ((i : ℤ), srcCol - n)) = some src ∧
      SrcAt oldCols group src.1 src.2 (offset (segments oldCols group) i + srcCol - n) ∧
      src.1 ≤ i ∧ (srcCol - n = 0 → src.1 < i) := by
  by_cases hzero : srcCol - n = 0
  · obtain ⟨len, hget, hbefore⟩ := h.src_before hg hi (by omega)
    rw [if_pos hzero, hget]
    exact ⟨_, rfl, hbefore, by dsimp only; omega, fun _ => by dsimp only; omega⟩
  · rw [if_neg hzero]
    refine ⟨_, rfl, Or.inr ⟨i, rfl, hi, ?_, ?_⟩, le_refl _, fun heq => absurd heq hzero⟩
    · exact (Nat.sub_le _ _).trans hsrc
    · exact Nat.add_sub_assoc hn _

/-- INTERNAL: The copy ends with the whole line in its pieces. In every turn of the loop one of the
two indices goes down.
SRC: reflow.rs:298-328 -/
theorem Respread.unwrapLoop_spec (h : Respread oldCols newCols group extra pieces)
    (hroom : pieces.length ≤ group.length + extra.length) {fuel : ℕ} :
    ∀ (g : List Row) (destIdx : ℤ) (destCol : ℕ) (srcIdx : ℤ) (srcCol p : ℕ),
      Unwound group extra pieces g p → DestAt pieces destIdx destCol p →
      SrcAt oldCols group srcIdx srcCol p → (destIdx + 1).toNat + (srcIdx + 1).toNat < fuel →
      ∃ g', unwrapLoop oldCols (pieces.map List.length) fuel g destIdx destCol srcIdx srcCol = some g' ∧
        Unwound group extra pieces g' 0 := by
  induction fuel with
  | zero =>
      intro g destIdx destCol srcIdx srcCol p _ _ _ hfuel
      omega
  | succ fuel ih =>
      intro g destIdx destCol srcIdx srcCol p hg hdestAt hsrcAt hfuel
      unfold unwrapLoop
      rcases hsrcAt with ⟨hneg, rfl⟩ | ⟨i, rfl, hi, hsrc, hpsrc⟩
      · rw [if_neg (by omega)]
        exact ⟨g, rfl, hg⟩
      rw [if_pos (Int.natCast_nonneg i)]
      rcases hdestAt with ⟨hneg, rfl⟩ | ⟨k, piece, rfl, hpiece, hdest, hpdest⟩
      · rw [if_neg (by omega)]
        exact ⟨g, rfl, hg⟩
      have hk := (List.getElem?_eq_some_iff.mp hpiece).1
      have hlen := hg.length
      have hidx : 0 ≤ (k : ℤ) ∧ (k : ℤ).toNat < g.length := by omega
      have hdone : srcCol - min srcCol destCol = 0 ∨ destCol - min srcCol destCol = 0 := by omega
      obtain ⟨g', hcopy, hg'⟩ := h.copy hg hi hsrc hpsrc hpiece (by omega) hdest hpdest
        (min_le_left srcCol destCol) (min_le_right srcCol destCol)
      rw [if_pos hidx]
      dsimp only
      rw [checkedSub_of_le (min_le_left _ _), checkedSub_of_le (min_le_right _ _), Int.toNat_natCast,
        Int.toNat_natCast]
      simp only [Option.bind_eq_bind, Option.bind_some]
      rw [hcopy, Option.bind_some]
      obtain ⟨dest, hdestEq, hdest', hdestLe, hdestLt⟩ :=
        destAt_step hpiece hdest (min_le_right srcCol destCol)
      obtain ⟨src, hsrcEq, hsrc', hsrcLe, hsrcLt⟩ :=
        h.src_step (g := g') hi hsrc (min_le_left srcCol destCol) (by rw [← hpsrc]; exact hg')
      rw [← hpdest] at hdest'
      rw [← hpsrc] at hsrc'
      rw [hdestEq, hsrcEq, Option.bind_some]
      split
      · rename_i hbreak
        rcases hdest' with ⟨-, hzero⟩ | ⟨k', piece', hk', -⟩
        · rw [hzero] at hg'
          exact ⟨g', rfl, hg'⟩
        · omega
      · exact ih g' dest.1 dest.2 src.1 src.2 _ hg' hdest' hsrc' (by omega)

/-! ## One group -/

/-- The line is ready for the screen once it is cropped. -/
def Croppable (newCols : ℕ) (row : Row) : Prop := Cropped newCols (cropLine newCols row)

/-- Cropping replaces a first half at the end by a blank.
SRC: reflow.rs:470-481 -/
theorem croppable_of_paired {row : Row} (h : PairedCells row.cells) : Croppable newCols row := by
  unfold Croppable Cropped cropLine
  by_cases hlong : newCols < row.cells.length
  · rw [if_pos hlong]
    dsimp only
    have htake : (row.cells.take newCols).length = newCols := by
      rw [List.length_take]
      omega
    cases hlast : (row.cells.take newCols).getLast? with
    | none =>
        rw [List.getLast?_eq_none_iff] at hlast
        dsimp only
        rw [hlast]
        exact ⟨Nat.zero_le _, .nil⟩
    | some last =>
        have hne : row.cells.take newCols ≠ [] := by
          intro hnil
          rw [hnil] at hlast
          cases hlast
        have hpos := List.length_pos_iff.mpr hne
        refine ⟨?_, paired_cut h newCols hlast single_new⟩
        dsimp only
        split
        · rw [List.length_append, List.length_dropLast, List.length_singleton]
          omega
        · exact htake.le
  · rw [if_neg hlong]
    exact ⟨Nat.le_of_not_lt hlong, h⟩

/-- A line whose part on the screen is paired needs no blank. -/
theorem croppable_of_take {row : Row} (h : PairedCells (row.cells.take newCols)) :
    Croppable newCols row := by
  by_cases hlong : newCols < row.cells.length
  · have hcrop : (cropLine newCols row).cells = row.cells.take newCols := by
      unfold cropLine
      rw [if_pos hlong]
      dsimp only
      cases hlast : (row.cells.take newCols).getLast? with
      | none => rfl
      | some last =>
          dsimp only
          rw [not_wide_getLast h hlast, if_neg Bool.false_ne_true]
    refine ⟨?_, ?_⟩
    · rw [hcrop, List.length_take]
      exact min_le_left _ _
    · rw [hcrop]
      exact h
  · rw [List.take_of_length_le (Nat.le_of_not_lt hlong)] at h
    exact croppable_of_paired h

theorem croppable_blankLine (cols : ℕ) (wrapped : Bool) : Croppable newCols (blankLine cols wrapped) :=
  croppable_of_paired (cropped_blankLine cols wrapped).2

/-- SRC: reflow.rs:329-335 -/
theorem blankAfter_spec (rows : List Row) (lens : List ℕ)
    (hroom : ∀ row ∈ rows, newCols ≤ row.cells.length) :
    ∃ rows', blankAfter newCols rows lens = some rows' ∧ rows'.length = rows.length ∧
      ∀ (k : ℕ) (row' : Row), rows'[k]? = some row' → ∃ row : Row, rows[k]? = some row ∧
        match lens[k]? with
        | none => row' = row
        | some len => row'.cells = if len < newCols then row.cells.set len Cell.new else row.cells := by
  induction rows generalizing lens with
  | nil =>
      refine ⟨[], ?_, rfl, fun k row' hrow' => ?_⟩
      · cases lens <;> rfl
      · cases hrow'
  | cons row rows ih =>
      rw [List.forall_mem_cons] at hroom
      cases lens with
      | nil => exact ⟨row :: rows, rfl, rfl, fun k row' hrow' => ⟨row', hrow', rfl⟩⟩
      | cons len lens =>
          obtain ⟨rows', hrows', hlen, hget⟩ := ih lens hroom.2
          have hfirst : ∃ row', (if len < newCols then row.modify len fun _ => Cell.new else some row) =
              some row' ∧
              row'.cells = if len < newCols then row.cells.set len Cell.new else row.cells := by
            by_cases hshort : len < newCols
            · have hlt : len < row.cells.length := hshort.trans_le hroom.1
              rw [if_pos hshort, if_pos hshort,
                modify_eq (fun _ => Cell.new) (List.getElem?_eq_getElem hlt)]
              exact ⟨_, rfl, rfl⟩
            · rw [if_neg hshort, if_neg hshort]
              exact ⟨row, rfl, rfl⟩
          obtain ⟨first, hmodify, hcells⟩ := hfirst
          refine ⟨first :: rows', ?_, ?_, ?_⟩
          · unfold blankAfter
            rw [hmodify, hrows']
            rfl
          · rw [List.length_cons, List.length_cons, hlen]
          · intro k row' hrow'
            cases k with
            | zero =>
                rw [List.getElem?_cons_zero, Option.some_inj] at hrow'
                rw [← hrow']
                exact ⟨row, rfl, hcells⟩
            | succ k => exact hget k row' hrow'

/-- Behind the last piece its row was blank before. -/
theorem Respread.blank_behind (h : Respread oldCols newCols group extra pieces)
    (hblank : ∀ row ∈ extra, row = blankLine newCols true) {k : ℕ} {piece cells : List Cell}
    (hcells : ((group ++ extra).map Row.cells)[k]? = some cells) (hpiece : pieces[k]? = some piece)
    (hlast : k + 1 = pieces.length) (hshort : piece.length < newCols) :
    ∀ c ∈ cells.drop piece.length, Vacant c := by
  have hlt := h.new_lt
  rcases Nat.lt_or_ge k group.length with hk | hk
  · have hrow := List.getElem?_eq_getElem hk
    rw [getElem?_cells hk, Option.some_inj] at hcells
    have hpadded := h.padded _ (List.getElem_mem hk)
    have hoffset := h.offset_le hk
    have hnext : offset pieces (k + 1) = pieces.flatten.length := offset_of_length_le hlast.ge
    rw [offset_succ hpiece, h.total] at hnext
    have hend : offset (segments oldCols group) (k + 1) ≤
        offset (segments oldCols group) group.length := offset_mono hk
    rw [h.segment hrow] at hend
    -- a row before the last one would be longer than the piece
    have hkLast : k + 1 = group.length := by
      by_contra hne
      have hfull := le_lineLen (by omega) (le_refl _) h.padded (i := k) (by omega)
      omega
    have htrimmed := lineLen_last (by omega) (le_refl _) h.padded hrow hkLast
    intro c hc
    rw [← hcells] at hc
    apply vacant_drop_trimmedLen hpadded.paired c
    exact (List.drop_subset_drop_left _ (by omega)) hc
  · rw [List.getElem?_map, List.getElem?_append_right hk] at hcells
    obtain ⟨row, hrow, rfl⟩ := Option.map_eq_some_iff.mp hcells
    rw [hblank row (List.mem_of_getElem? hrow)]
    intro c hc
    have hnew : c = Cell.new := List.eq_of_mem_replicate (List.mem_of_mem_drop hc)
    rw [hnew]
    exact vacant_new

/-- INTERNAL: A row of the result is a piece and blanks behind it.
SRC: reflow.rs:329-335 -/
theorem Respread.croppable (h : Respread oldCols newCols group extra pieces)
    (hblank : ∀ row ∈ extra, row = blankLine newCols true) {k : ℕ} {piece cells : List Cell}
    (hcells : ((group ++ extra).map Row.cells)[k]? = some cells) (hpiece : pieces[k]? = some piece)
    {row : Row} (hrow : row.cells = if piece.length < newCols then
      (overlayRow cells piece 0).set piece.length Cell.new else overlayRow cells piece 0) :
    Croppable newCols row := by
  obtain ⟨hpaired, hpos, hlen⟩ := h.broken.piece piece (List.mem_of_getElem? hpiece)
  have hroom := h.room hcells
  have hover : overlayRow cells piece 0 = piece ++ cells.drop piece.length := by
    unfold overlayRow
    rw [List.take_zero, List.nil_append, List.drop_zero]
  apply croppable_of_take
  rw [hrow, hover]
  by_cases hshort : piece.length < newCols
  · have hpositive : 0 < (cells.drop piece.length).length := by
      rw [List.length_drop]
      omega
    obtain ⟨d, rest, hrest⟩ := List.exists_cons_of_length_pos hpositive
    have hsingle : ∀ c ∈ rest.take (newCols - piece.length - 1), Single c := by
      intro c hc
      rcases Nat.lt_or_ge (k + 1) pieces.length with hmore | hlast
      · have hfull := h.broken.full hpiece hmore
        have hnone : newCols - piece.length - 1 = 0 := by omega
        rw [hnone, List.take_zero] at hc
        exact absurd hc List.not_mem_nil
      · have hk := (List.getElem?_eq_some_iff.mp hpiece).1
        apply (h.blank_behind hblank hcells hpiece (by omega) hshort c _).1
        rw [hrest]
        exact List.mem_cons_of_mem _ (List.mem_of_mem_take hc)
    have hwidth : newCols - piece.length = newCols - piece.length - 1 + 1 := by omega
    rw [if_pos hshort, hrest, List.set_append_right _ _ (le_refl _), Nat.sub_self, List.set_cons_zero,
      List.take_append, List.take_of_length_le hlen, hwidth, List.take_succ_cons]
    exact hpaired.append (.single single_new (.of_forall hsingle))
  · rw [if_neg hshort, ← Nat.le_antisymm hlen (Nat.le_of_not_lt hshort), List.take_left]
    exact hpaired

/-- The copy starts at the end of the last piece.
SRC: reflow.rs:290-297 -/
theorem Respread.dest_start (h : Respread oldCols newCols group extra pieces) :
    ∃ dest : ℤ × ℕ,
      (if destAt (pieces.map List.length) ((pieces.length : ℤ) - 1) = 0 then
          ((pieces.length : ℤ) - 1 - 1, destAt (pieces.map List.length) ((pieces.length : ℤ) - 1 - 1))
        else ((pieces.length : ℤ) - 1, destAt (pieces.map List.length) ((pieces.length : ℤ) - 1))) =
          dest ∧
      DestAt pieces dest.1 dest.2 pieces.flatten.length ∧ dest.1 < pieces.length := by
  refine ⟨_, rfl, ?_⟩
  rcases Nat.eq_zero_or_pos pieces.length with hzero | hpos
  · rw [List.eq_nil_of_length_eq_zero hzero]
    exact ⟨Or.inl ⟨by decide, rfl⟩, by decide⟩
  · have hlast : pieces.length - 1 < pieces.length := by omega
    have hpiece := List.getElem?_eq_getElem hlast
    have hcast : (pieces.length : ℤ) - 1 = ((pieces.length - 1 : ℕ) : ℤ) := by omega
    have hlen := (h.broken.piece _ (List.mem_of_getElem? hpiece)).2.1
    have hend := offset_succ hpiece
    rw [Nat.sub_add_cancel hpos, offset_of_length_le (le_refl _)] at hend
    rw [hcast, destAt_piece hpiece, if_neg (by omega)]
    exact ⟨Or.inr ⟨_, _, rfl, hpiece, le_refl _, hend⟩, by dsimp only; omega⟩

/-- The row was this one, as far as nothing was copied to it. -/
theorem Unwound.row_cells (hg : Unwound group extra pieces g p) {k : ℕ} {row : Row}
    (hrow : g[k]? = some row) :
    ∃ cells, ((group ++ extra).map Row.cells)[k]? = some cells ∧
      row.cells = match pieces[k]? with
        | none => cells
        | some piece => overlayRow cells piece (min piece.length (p - offset pieces k)) := by
  have hk := (List.getElem?_eq_some_iff.mp hrow).1
  have hbase : k < ((group ++ extra).map Row.cells).length := by
    rw [List.length_map, List.length_append, ← hg.length]
    exact hk
  have hcells := List.getElem?_eq_getElem hbase
  refine ⟨_, hcells, ?_⟩
  have hget : (overlay ((group ++ extra).map Row.cells) pieces p)[k]? = some row.cells := by
    rw [← hg, List.getElem?_map, hrow]
    rfl
  cases hpiece : pieces[k]? with
  | none =>
      rw [overlay_getElem?_of_none hcells hpiece, Option.some_inj] at hget
      exact hget.symm
  | some piece =>
      rw [overlay_getElem? hcells hpiece, Option.some_inj] at hget
      exact hget.symm

theorem Respread.room_unwound (h : Respread oldCols newCols group extra pieces)
    (hg : Unwound group extra pieces g p) : ∀ row ∈ g, newCols ≤ row.cells.length := by
  intro row hrow
  obtain ⟨k, hk⟩ := List.getElem?_of_mem hrow
  obtain ⟨cells, hcells, heq⟩ := hg.row_cells hk
  have hroom := h.room hcells
  rw [heq]
  cases hpiece : pieces[k]? with
  | none => exact hroom
  | some piece =>
      have hlen := (h.broken.piece piece (List.mem_of_getElem? hpiece)).2.2
      dsimp only
      rw [length_overlayRow (min_le_left _ _) (by omega)]
      exact hroom

/-- INTERNAL: Every row of the result can be cropped, those behind the pieces being what they were.
SRC: reflow.rs:264-335 -/
theorem Respread.croppable_result (h : Respread oldCols newCols group extra pieces)
    (hblank : ∀ row ∈ extra, row = blankLine newCols true)
    (hextra : extra.length ≤ pieces.length - group.length)
    (hg : Unwound group extra pieces g 0) {k : ℕ} {row row' : Row} (hrow : g[k]? = some row)
    (hrow' : match (pieces.map List.length)[k]? with
      | none => row' = row
      | some len => row'.cells = if len < newCols then row.cells.set len Cell.new else row.cells) :
    Croppable newCols row' := by
  obtain ⟨cells, hcells, heq⟩ := hg.row_cells hrow
  rw [List.getElem?_map] at hrow'
  cases hpiece : pieces[k]? with
  | none =>
      rw [hpiece] at hrow' heq
      have hrow'' : row' = row := hrow'
      have hcells' : row.cells = cells := heq
      have hk := (List.getElem?_eq_some_iff.mp hrow).1
      have hbehind := List.getElem?_eq_none_iff.mp hpiece
      have hlen := hg.length
      have hold : k < group.length := by omega
      rw [getElem?_cells hold, Option.some_inj] at hcells
      apply croppable_of_paired
      rw [hrow'', hcells', ← hcells]
      exact (h.padded _ (List.getElem_mem hold)).paired
  | some piece =>
      rw [hpiece] at hrow' heq
      have hover : row.cells = overlayRow cells piece 0 := by
        rw [heq, Nat.zero_sub]
        dsimp only
        rw [Nat.min_zero]
      rw [hover] at hrow'
      exact h.croppable hblank hcells hpiece hrow'

theorem Cropped.pad {r : Row} (h : Cropped oldCols r) :
    Padded oldCols oldCols (if r.cells.length < oldCols then
      { r with cells := resizeCells r.cells oldCols Cell.new } else r) := by
  apply Unwidened.pad
  constructor
  case length => exact h.1
  case paired => exact h.2
  case vacant =>
    rw [List.drop_eq_nil_of_le h.1]
    exact fun c hc => absurd hc List.not_mem_nil

/-- INTERNAL: A group is rewrapped to lines that can be cropped.
SRC: reflow.rs:264-335 -/
theorem yields_rewrapSmaller (hnew : 2 ≤ newCols) (hlt : newCols < oldCols) (hne : group ≠ [])
    (hgroup : ∀ row ∈ group, Cropped oldCols row) :
    Yields (rewrapSmaller oldCols newCols group) fun r =>
      r.1.length = group.length + (r.2.length - group.length) ∧
        ∀ row ∈ r.1, Croppable newCols row := by
  unfold rewrapSmaller
  generalize hpadded : (group.map fun row => if row.cells.length < oldCols then
    { row with cells := resizeCells row.cells oldCols Cell.new } else row) = rows
  have hrows : ∀ row ∈ rows, Padded oldCols oldCols row := by
    intro row hrow
    rw [← hpadded, List.mem_map] at hrow
    obtain ⟨r, hr, rfl⟩ := hrow
    exact (hgroup r hr).pad
  have hlen : rows.length = group.length := by
    rw [← hpadded, List.length_map]
  have hpos : 1 ≤ group.length := List.length_pos_iff.mpr hne
  have hlast : group.length - 1 < rows.length := by omega
  have hlastRow := List.getElem?_eq_getElem hlast
  obtain ⟨pieces, hdest, hbroken⟩ := newLineLengths_spec hnew hlt hrows
  dsimp only
  rw [checkedSub_of_le hpos]
  simp only [Option.bind_eq_bind, Option.bind_some, Option.pure_def]
  rw [hlastRow, Option.bind_some, hdest, Option.bind_some, List.length_map]
  generalize hextra : List.replicate (pieces.length - group.length) (blankLine newCols true) = extra
  have hblank : ∀ row ∈ extra, row = blankLine newCols true := by
    rw [← hextra]
    exact fun row hrow => List.eq_of_mem_replicate hrow
  have hextraLen : extra.length = pieces.length - group.length := by
    rw [← hextra, List.length_replicate]
  have h : Respread oldCols newCols rows extra pieces := by
    constructor
    case new_pos => exact hnew
    case new_lt => exact hlt
    case padded => exact hrows
    case extra_len =>
      intro row hrow
      rw [hblank row hrow]
      exact (rowFits_new newCols).1
    case broken => exact hbroken
  have hstart : Unwound rows extra pieces (rows ++ extra) pieces.flatten.length :=
    (overlay_full (le_refl _)).symm
  have hsrc : SrcAt oldCols rows ((group.length : ℤ) - 1) (trimmedLen rows[group.length - 1])
      pieces.flatten.length := by
    have hend : group.length - 1 + 1 = rows.length := by omega
    have htrimmed := lineLen_last (by omega) (le_refl _) hrows hlastRow hend
    refine Or.inr ⟨group.length - 1, by omega, hlast, htrimmed.ge, ?_⟩
    rw [h.total, ← hend, h.segment hlastRow, htrimmed]
  obtain ⟨dest, hdestEq, hdestAt, hdestLt⟩ := h.dest_start
  rw [hdestEq]
  have hfuel : (dest.1 + 1).toNat + ((group.length : ℤ) - 1 + 1).toNat <
      (rows ++ extra).length + pieces.length + 2 := by
    rw [List.length_append]
    omega
  obtain ⟨g, hloop, hg⟩ := h.unwrapLoop_spec (by omega) (rows ++ extra) dest.1 dest.2
    ((group.length : ℤ) - 1) _ pieces.flatten.length hstart hdestAt hsrc hfuel
  rw [hloop, Option.bind_some]
  obtain ⟨result, hresult, hresultLen, hget⟩ :=
    blankAfter_spec g (pieces.map List.length) (h.room_unwound hg)
  rw [hresult, Option.bind_some]
  refine yields_some ⟨?_, ?_⟩
  · dsimp only
    rw [hresultLen, hg.length, List.length_map]
    omega
  · intro row' hrow'
    obtain ⟨k, hk⟩ := List.getElem?_of_mem hrow'
    obtain ⟨row, hrow, hcells⟩ := hget k row' hk
    exact h.croppable_result hblank (by omega) hg hrow hcells

/-! ## All lines -/

theorem yields_groupStart (lines : List Row) {y : ℕ} (hy : y < lines.length) :
    Yields (groupStart lines y) fun start => start ≤ y := by
  induction y with
  | zero => exact yields_some (le_refl 0)
  | succ y ih =>
      unfold groupStart
      rw [List.getElem?_eq_getElem hy]
      simp only [Option.bind_eq_bind, Option.bind_some]
      split
      · exact (ih (Nat.lt_of_succ_lt hy)).mono fun start hle => hle.trans (Nat.le_succ y)
      · exact yields_some (le_refl _)

/-- The scan from the last line up: the lines before `y` are as they were, those from `y` on can be
cropped, and so can those that are inserted later. -/
structure Unwrapping (oldCols newCols newRows count maxLen y : ℕ) (u : Unwrap) : Prop where
  lines_len : u.b.lines.length = count
  y_le : y ≤ count
  before : ∀ row ∈ u.b.lines.take y, Cropped oldCols row
  after : ∀ row ∈ u.b.lines.drop y, Croppable newCols row
  inserts : ∀ p ∈ u.toInsert, ∀ row ∈ p.2, Croppable newCols row
  max_eq : u.b.maxLen = maxLen
  base_le : u.b.ybase + newRows ≤ maxLen

variable {newRows count maxLen y : ℕ} {u : Unwrap}

/-- Lines may be left as they are. -/
theorem Unwrapping.skip (h : Unwrapping oldCols newCols newRows count maxLen y u) {y' : ℕ}
    (hy : y' ≤ y) : Unwrapping oldCols newCols newRows count maxLen y' u := by
  refine { h with y_le := hy.trans h.y_le, before := ?before, after := ?after }
  case before =>
    intro row hrow
    exact h.before row ((List.take_subset_take_left _ hy) hrow)
  case after =>
    intro row hrow
    rw [← List.take_append_drop (y - y') (u.b.lines.drop y'), List.mem_append, List.drop_drop,
      Nat.add_sub_cancel' hy] at hrow
    rcases hrow with hrow | hrow
    · rw [← List.drop_take] at hrow
      exact croppable_of_paired (h.before row (List.mem_of_mem_drop hrow)).2
    · exact h.after row hrow

/-- The screen moves down no further than the scrollback allows.
SRC: reflow.rs:337-353 -/
theorem afterAdded_iterate (hmax : newRows < maxLen) (countToInsert n : ℕ) (r : Lines × ℕ)
    (hmaxLen : r.1.maxLen = maxLen) (hbase : r.1.ybase + newRows ≤ maxLen) :
    let r' := (afterAdded newRows countToInsert)^[n] r
    r'.1.lines = r.1.lines ∧ r'.1.maxLen = maxLen ∧ r'.1.ybase + newRows ≤ maxLen := by
  induction n generalizing r with
  | zero => exact ⟨rfl, hmaxLen, hbase⟩
  | succ n ih =>
      have hstep : (afterAdded newRows countToInsert r).1.lines = r.1.lines ∧
          (afterAdded newRows countToInsert r).1.maxLen = maxLen ∧
          (afterAdded newRows countToInsert r).1.ybase + newRows ≤ maxLen := by
        obtain ⟨b, liveLen⟩ := r
        dsimp only at hmaxLen hbase
        unfold afterAdded
        dsimp only
        split
        · split
          · exact ⟨rfl, hmaxLen, hbase⟩
          · exact ⟨rfl, hmaxLen, by dsimp only; omega⟩
        · split
          · refine ⟨rfl, hmaxLen, ?_⟩
            dsimp only
            omega
          · exact ⟨rfl, hmaxLen, hbase⟩
      obtain ⟨hlines, hmax', hbase'⟩ := ih _ hstep.2.1 hstep.2.2
      dsimp only
      rw [Function.iterate_succ_apply]
      exact ⟨hlines.trans hstep.1, hmax', hbase'⟩

/-- INTERNAL: One group, rewrapped and put back.
SRC: reflow.rs:264-364 -/
theorem yields_unwrapGroup (hnew : 2 ≤ newCols) (hlt : newCols < oldCols) (hrows : 1 ≤ newRows)
    (hmax : newRows < maxLen) (h : Unwrapping oldCols newCols newRows count maxLen (y + 1) u)
    {start : ℕ} (hstart : start ≤ y) :
    Yields (unwrapGroup oldCols newCols newRows u start y)
      (Unwrapping oldCols newCols newRows count maxLen start) := by
  have hy := h.y_le
  have hcount := h.lines_len
  have hlen : ((u.b.lines.drop start).take (y - start + 1)).length = y - start + 1 := by
    rw [List.length_take, List.length_drop]
    omega
  have hne : (u.b.lines.drop start).take (y - start + 1) ≠ [] := by
    intro hnil
    rw [hnil, List.length_nil] at hlen
    omega
  have hgroup : ∀ row ∈ (u.b.lines.drop start).take (y - start + 1), Cropped oldCols row := by
    intro row hrow
    have hn : y - start + 1 = y + 1 - start := by omega
    rw [hn, ← List.drop_take] at hrow
    exact h.before row (List.mem_of_mem_drop hrow)
  unfold unwrapGroup
  refine (yields_rewrapSmaller hnew hlt hne hgroup).bind ?_
  rintro ⟨group, dest⟩ ⟨hgroupLen, hcroppable⟩
  rw [hlen] at hgroupLen
  dsimp only at hgroupLen hcroppable ⊢
  generalize hn : y - start + 1 = n at *
  generalize htrimmed : (dest.length - (n : ℤ) - if u.b.ybase = 0 ∧ u.b.y + 1 ≠ u.liveLen then
    max ((u.b.y : ℤ) - u.b.maxLen + (dest.length - n)) 0
    else max ((u.liveLen : ℤ) - u.b.maxLen + (dest.length - n)) 0).toNat = added
  have hadded := afterAdded_iterate hmax (u.countToInsert + (dest.length - n)) added
    (u.b, u.liveLen) h.max_eq h.base_le
  generalize (afterAdded newRows (u.countToInsert + (dest.length - n)))^[added] (u.b, u.liveLen) = r
    at *
  obtain ⟨hlines, hmaxLen, hbase⟩ := hadded
  dsimp only at hlines
  rw [checkedSub_of_le (by omega)]
  simp only [Option.bind_eq_bind, Option.bind_some]
  have htake : (r.1.lines.take start).length = start := by
    rw [hlines, List.length_take]
    omega
  have hgroupTake : (group.take n).length = n := by
    rw [List.length_take]
    omega
  apply yields_some
  constructor
  case lines_len =>
    dsimp only
    rw [List.length_append, List.length_append, htake, hgroupTake, hlines, List.length_drop]
    omega
  case y_le => omega
  case before =>
    dsimp only
    rw [List.append_assoc, List.take_append_of_le_length htake.ge, List.take_take, min_self, hlines]
    intro row hrow
    exact h.before row ((List.take_subset_take_left _ (by omega)) hrow)
  case after =>
    dsimp only
    rw [List.append_assoc, List.drop_append_of_le_length htake.ge,
      List.drop_eq_nil_of_le htake.le, List.nil_append, List.forall_mem_append, hlines]
    refine ⟨fun row hrow => hcroppable row (List.mem_of_mem_take hrow), ?_⟩
    have hend : start + n = y + 1 := by omega
    rw [hend]
    exact h.after
  case inserts =>
    dsimp only
    split
    · exact h.inserts
    · rw [List.forall_mem_append, List.forall_mem_singleton]
      exact ⟨h.inserts, fun row hrow => hcroppable row (List.mem_of_mem_drop hrow)⟩
  case max_eq => exact hmaxLen
  case base_le => exact hbase

/-- INTERNAL: The scan reaches the first line.
SRC: reflow.rs:250-365 -/
theorem yields_smallerLoop (hnew : 2 ≤ newCols) (hlt : newCols < oldCols) (hrows : 1 ≤ newRows)
    (hmax : newRows < maxLen) (fuel : ℕ)
    (h : Unwrapping oldCols newCols newRows count maxLen y u) (hfuel : y < fuel) :
    Yields (smallerLoop oldCols newCols newRows fuel u y)
      (Unwrapping oldCols newCols newRows count maxLen 0) := by
  induction fuel generalizing u y with
  | zero => omega
  | succ fuel ih =>
      unfold smallerLoop
      cases y with
      | zero => exact yields_some h
      | succ y =>
          have hy : y < u.b.lines.length := by
            rw [h.lines_len]
            exact h.y_le
          dsimp only
          rw [List.getElem?_eq_getElem hy]
          simp only [Option.bind_eq_bind, Option.bind_some]
          split
          · exact ih (h.skip (Nat.le_succ y)) (by omega)
          · refine (yields_groupStart u.b.lines hy).bind fun start hstart => ?_
            split
            · exact ih (h.skip (by omega)) (by omega)
            · refine (yields_unwrapGroup hnew hlt hrows hmax h hstart).bind fun u' hu' => ?_
              exact ih hu' (by omega)

theorem mem_insertLinesAt (lines : List Row) (idx : ℕ) (pending : List (ℕ × List Row)) {row : Row}
    (hrow : row ∈ insertLinesAt lines idx pending) : row ∈ lines ∨ ∃ p ∈ pending, row ∈ p.2 := by
  induction lines generalizing idx pending with
  | nil => exact Or.inr (List.mem_flatMap.mp hrow)
  | cons line lines ih =>
      unfold insertLinesAt at hrow
      rw [List.mem_append, List.mem_cons, List.mem_flatMap] at hrow
      rcases hrow with (rfl | ⟨p, hp, hmem⟩) | hrow
      · exact Or.inl List.mem_cons_self
      · exact Or.inr ⟨p, (List.takeWhile_sublist _).subset hp, hmem⟩
      · rcases ih _ _ hrow with hmem | ⟨p, hp, hmem⟩
        · exact Or.inl (List.mem_cons_of_mem _ hmem)
        · exact Or.inr ⟨p, (List.dropWhile_sublist _).subset hp, hmem⟩

/-- INTERNAL: The lines after the rewrapping can be cropped, and the screen is not further down than
the scrollback is long.
SRC: reflow.rs:242-388 -/
theorem yields_reflowSmaller (hnew : 2 ≤ newCols) (hlt : newCols < oldCols) (hrows : 1 ≤ newRows)
    {b : Lines} (hmax : newRows < b.maxLen) (hbase : b.ybase + newRows ≤ b.maxLen)
    (hlines : ∀ row ∈ b.lines, Cropped oldCols row) :
    Yields (reflowSmaller b oldCols newCols newRows) fun b' =>
      (∀ row ∈ b'.lines, Croppable newCols row) ∧ b'.ybase + newRows ≤ b.maxLen := by
  have hstart : Unwrapping oldCols newCols newRows b.lines.length b.maxLen b.lines.length
      ⟨b, [], 0, b.lines.length⟩ := by
    constructor
    case lines_len => rfl
    case y_le => exact le_refl _
    case before => exact fun row hrow => hlines row (List.mem_of_mem_take hrow)
    case after =>
      rw [List.drop_length]
      exact fun row hrow => absurd hrow List.not_mem_nil
    case inserts => exact fun p hp => absurd hp List.not_mem_nil
    case max_eq => rfl
    case base_le => exact hbase
  unfold reflowSmaller
  refine (yields_smallerLoop hnew hlt hrows hmax (b.lines.length + 1) hstart (by omega)).bind ?_
  intro u hu
  have hall : ∀ row ∈ u.b.lines.take u.liveLen, Croppable newCols row :=
    fun row hrow => hu.after row (List.mem_of_mem_take hrow)
  dsimp only
  split
  · exact yields_some ⟨hall, hu.base_le⟩
  · refine yields_some ⟨?_, hu.base_le⟩
    intro row hrow
    rcases mem_insertLinesAt _ _ _ (List.mem_of_mem_drop hrow) with hmem | ⟨p, hp, hmem⟩
    · exact hall row hmem
    · exact hu.inserts p ((List.perm_insertionSort _ _).subset hp) row hmem

end

end Tymux.Analysis.Vt
