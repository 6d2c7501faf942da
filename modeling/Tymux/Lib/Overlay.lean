import Mathlib.Data.List.Basic
import Mathlib.Order.Lattice
import Mathlib.Order.Nat

/-!
# Rows that are overwritten from their end

A list of rows is overwritten with the pieces of one long list, piece by piece, from the last cell
to the first. `overlay rows pieces p` is how far this is when `p` cells are left: a cell before
position `p` is still the cell of its row, and what a row has behind its piece stays. `offset` is the
position at which a piece starts.
-/

set_option autoImplicit false

namespace Tymux.Lib

variable {α : Type}

/-- The position of the start of piece `k` in the whole. -/
def offset (pieces : List (List α)) (k : ℕ) : ℕ := (pieces.take k).flatten.length

section

variable {pieces : List (List α)} {k : ℕ} {piece : List α}

@[simp] theorem offset_zero : offset pieces 0 = 0 := rfl

theorem offset_succ (h : pieces[k]? = some piece) :
    offset pieces (k + 1) = offset pieces k + piece.length := by
  unfold offset
  rw [List.take_add_one, h, List.flatten_append, List.length_append, Option.toList_some,
    List.flatten_singleton]

theorem offset_of_length_le (h : pieces.length ≤ k) : offset pieces k = pieces.flatten.length := by
  unfold offset
  rw [List.take_of_length_le h]

theorem offset_mono {j : ℕ} (h : j ≤ k) : offset pieces j ≤ offset pieces k := by
  unfold offset
  obtain ⟨n, rfl⟩ := Nat.exists_eq_add_of_le h
  rw [List.take_add, List.flatten_append, List.length_append]
  exact Nat.le_add_right _ _

theorem offset_le : offset pieces k ≤ pieces.flatten.length := by
  rw [← offset_of_length_le (le_refl pieces.length)]
  rcases Nat.le_total k pieces.length with h | h
  · exact offset_mono h
  · rw [offset_of_length_le h, offset_of_length_le (le_refl _)]

theorem drop_offset (pieces : List (List α)) (k : ℕ) :
    pieces.flatten.drop (offset pieces k) = (pieces.drop k).flatten := by
  conv_lhs => rw [← List.take_append_drop k pieces, List.flatten_append]
  unfold offset
  rw [List.take_append_drop, List.drop_left]

/-- A part of a piece is a part of the whole. -/
theorem take_drop_flatten (h : pieces[k]? = some piece) {j n : ℕ} (hn : j + n ≤ piece.length) :
    (pieces.flatten.drop (offset pieces k + j)).take n = (piece.drop j).take n := by
  have hsplit : pieces.drop k = piece :: pieces.drop (k + 1) :=
    List.drop_eq_getElem?_toList_append.trans (by rw [h]; rfl)
  rw [← List.drop_drop, drop_offset, hsplit, List.flatten_cons,
    List.drop_append_of_le_length (by omega), List.take_append_of_le_length]
  rw [List.length_drop]
  omega

end

/-- A row that is overwritten with the piece from column `a` on. -/
def overlayRow (row piece : List α) (a : ℕ) : List α :=
  row.take a ++ piece.drop a ++ row.drop piece.length

/-- The rows with the pieces from position `p` on. -/
def overlay (rows pieces : List (List α)) (p : ℕ) : List (List α) :=
  rows.mapIdx fun k row =>
    match pieces[k]? with
    | none => row
    | some piece => overlayRow row piece (min piece.length (p - offset pieces k))

section

variable {rows pieces : List (List α)} {k p : ℕ} {row piece : List α}

theorem length_overlay : (overlay rows pieces p).length = rows.length := List.length_mapIdx

theorem overlay_getElem? (hrow : rows[k]? = some row) (hpiece : pieces[k]? = some piece) :
    (overlay rows pieces p)[k]? =
      some (overlayRow row piece (min piece.length (p - offset pieces k))) := by
  unfold overlay
  rw [List.getElem?_mapIdx, hrow, Option.map_some, hpiece]

theorem overlay_getElem?_of_none (hrow : rows[k]? = some row) (hpiece : pieces[k]? = none) :
    (overlay rows pieces p)[k]? = some row := by
  unfold overlay
  rw [List.getElem?_mapIdx, hrow, Option.map_some, hpiece]

theorem overlayRow_length (row piece : List α) : overlayRow row piece piece.length = row := by
  unfold overlayRow
  rw [List.drop_length, List.append_nil, List.take_append_drop]

theorem length_overlayRow {a : ℕ} (ha : a ≤ piece.length) (hlen : piece.length ≤ row.length) :
    (overlayRow row piece a).length = row.length := by
  unfold overlayRow
  rw [List.length_append, List.length_append, List.length_take, List.length_drop, List.length_drop]
  omega

/-- A row that ends before the position is untouched. -/
theorem overlay_getElem?_before (hrow : rows[k]? = some row)
    (hbefore : ∀ piece, pieces[k]? = some piece → offset pieces k + piece.length ≤ p) :
    (overlay rows pieces p)[k]? = some row := by
  cases hpiece : pieces[k]? with
  | none => exact overlay_getElem?_of_none hrow hpiece
  | some piece =>
      have hle := hbefore piece hpiece
      rw [overlay_getElem? hrow hpiece, min_eq_left (by omega), overlayRow_length]

/-- Nothing is overwritten yet. -/
theorem overlay_full (hp : pieces.flatten.length ≤ p) : overlay rows pieces p = rows := by
  apply List.ext_getElem?
  intro k
  cases hrow : rows[k]? with
  | none =>
      rw [List.getElem?_eq_none_iff] at hrow ⊢
      rw [length_overlay]
      exact hrow
  | some row =>
      refine overlay_getElem?_before hrow fun piece hpiece => ?_
      rw [← offset_succ hpiece]
      exact offset_le.trans hp

/-- The cells before the position are still those of the row. -/
theorem take_drop_overlayRow (row piece : List α) {a i n : ℕ} (hn : i + n ≤ a)
    (ha : a ≤ row.length) :
    ((overlayRow row piece a).drop i).take n = (row.drop i).take n := by
  have hfront : ∀ l : List α, (l.drop i).take n = ((l.take a).drop i).take n := by
    intro l
    rw [List.drop_take, List.take_take, min_eq_left (by omega)]
  have htake : (overlayRow row piece a).take a = row.take a := by
    unfold overlayRow
    rw [List.append_assoc, List.take_append_of_le_length (by rw [List.length_take]; omega),
      List.take_take, min_self]
  rw [hfront, htake, ← hfront]

/-- The cells of the piece before column `a` are written to the row. -/
theorem overlayRow_write {a n : ℕ} (hn : n ≤ a) (ha : a ≤ piece.length)
    (hlen : piece.length ≤ row.length) :
    (overlayRow row piece a).take (a - n) ++ (piece.drop (a - n)).take n ++
        (overlayRow row piece a).drop (a - n + n) = overlayRow row piece (a - n) := by
  have htake : (overlayRow row piece a).take (a - n) = row.take (a - n) := by
    unfold overlayRow
    rw [List.append_assoc, List.take_append_of_le_length (by rw [List.length_take]; omega),
      List.take_take, min_eq_left (by omega)]
  have hdrop : (overlayRow row piece a).drop (a - n + n) = piece.drop a ++ row.drop piece.length := by
    have hfront : (row.take a).length = a - n + n := by
      rw [List.length_take]
      omega
    unfold overlayRow
    rw [List.append_assoc, ← hfront, List.drop_left]
  have hpiece : (piece.drop (a - n)).take n ++ piece.drop a = piece.drop (a - n) := by
    conv_rhs => rw [← List.take_append_drop n (piece.drop (a - n)), List.drop_drop]
    congr 2
    omega
  rw [htake, hdrop, List.append_assoc, ← List.append_assoc _ (piece.drop a), hpiece,
    ← List.append_assoc]
  rfl

/-- INTERNAL: Writing the cells of a piece before the position moves the position back. -/
theorem overlay_set (hrow : rows[k]? = some row) (hpiece : pieces[k]? = some piece) {col n : ℕ}
    (hcol : col ≤ piece.length) (hn : n ≤ col) (hp : p = offset pieces k + col) :
    (overlay rows pieces p).set k (overlayRow row piece (col - n)) = overlay rows pieces (p - n) := by
  have hnext := offset_succ hpiece
  apply List.ext_getElem?
  intro j
  rw [List.getElem?_set]
  by_cases hj : k = j
  · subst hj
    have hlt : k < (overlay rows pieces p).length := by
      rw [length_overlay]
      exact (List.getElem?_eq_some_iff.mp hrow).1
    rw [if_pos rfl, if_pos hlt, overlay_getElem? hrow hpiece]
    congr 2
    omega
  · rw [if_neg hj]
    cases hother : rows[j]? with
    | none =>
        rw [List.getElem?_eq_none_iff] at hother
        rw [List.getElem?_eq_none (by rw [length_overlay]; exact hother),
          List.getElem?_eq_none (by rw [length_overlay]; exact hother)]
    | some other =>
        cases hpiece' : pieces[j]? with
        | none => rw [overlay_getElem?_of_none hother hpiece', overlay_getElem?_of_none hother hpiece']
        | some piece' =>
            have hnext' := offset_succ hpiece'
            rw [overlay_getElem? hother hpiece', overlay_getElem? hother hpiece']
            congr 2
            rcases Nat.lt_or_gt_of_ne hj with hlt | hgt
            · -- rows behind the position
              have hmono : offset pieces (k + 1) ≤ offset pieces j := offset_mono hlt
              omega
            · have hmono : offset pieces (j + 1) ≤ offset pieces k := offset_mono hgt
              omega

end

end Tymux.Lib
