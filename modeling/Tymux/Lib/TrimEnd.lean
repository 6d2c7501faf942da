import Mathlib.Data.List.DropRight

/-!
# Trimming at the end

`List.rdropWhile p` takes the elements that satisfy `p` off the end of a list. What it leaves of a
concatenation is told by the second list, unless nothing is left of that one. Lines are joined after
the blank ones at the end are dropped; lines that are no longer than others are joined to a text that
is no longer, and to the same length only if they are the same lines.
-/

set_option autoImplicit false

namespace Tymux.Lib

variable {α ι : Type*} {p : α → Bool}

theorem rdropWhile_append (xs ys : List α) :
    (xs ++ ys).rdropWhile p =
      if ys.rdropWhile p = [] then xs.rdropWhile p else xs ++ ys.rdropWhile p := by
  induction ys using List.reverseRecOn with
  | nil => simp
  | append_singleton ys y ih =>
      rw [← List.append_assoc, List.rdropWhile_concat, List.rdropWhile_concat]
      cases hy : p y with
      | true => simpa using ih
      | false => simp

theorem rdropWhile_append_of_all {xs ys : List α} (h : ∀ y ∈ ys, p y) :
    (xs ++ ys).rdropWhile p = xs.rdropWhile p := by
  rw [rdropWhile_append, if_pos (List.rdropWhile_eq_nil_iff.mpr h)]

theorem length_rdropWhile_append_le (xs ys : List α) :
    ((xs ++ ys).rdropWhile p).length ≤ xs.length + (ys.rdropWhile p).length := by
  rw [rdropWhile_append]
  split_ifs with hys
  · have hle : (xs.rdropWhile p).length ≤ xs.length := (List.rdropWhile_prefix p xs).length_le
    omega
  · rw [List.length_append]

theorem length_rdropWhile_append {xs ys : List α} (h : ys.rdropWhile p ≠ []) :
    ((xs ++ ys).rdropWhile p).length = xs.length + (ys.rdropWhile p).length := by
  rw [rdropWhile_append, if_neg h, List.length_append]

/-! ## Lines -/

section

variable (sep : α)

/-- The lines without the blank ones at the end, each followed by the separator. -/
def joinLines (lines : List (List α)) : List α :=
  (lines.rdropWhile (·.isEmpty)).flatMap (· ++ [sep])

theorem joinLines_eq_nil_iff (lines : List (List α)) :
    joinLines sep lines = [] ↔ lines.rdropWhile (·.isEmpty) = [] := by
  unfold joinLines
  rw [List.flatMap_eq_nil_iff]
  constructor
  · intro hall
    apply List.eq_nil_iff_forall_not_mem.mpr
    intro line hline
    simpa using hall line hline
  · intro hempty
    simp [hempty]

theorem length_joinLines_cons (line : List α) (lines : List (List α)) :
    (joinLines sep (line :: lines)).length =
      if joinLines sep lines = [] ∧ line = [] then 0
      else line.length + 1 + (joinLines sep lines).length := by
  have hnil := joinLines_eq_nil_iff sep lines
  have hcons : line :: lines = [line] ++ lines := rfl
  by_cases hlines : lines.rdropWhile (·.isEmpty) = []
  · have hnone : joinLines sep lines = [] := hnil.mpr hlines
    have hone : joinLines sep (line :: lines) =
        ([line].rdropWhile (·.isEmpty)).flatMap (· ++ [sep]) := by
      unfold joinLines
      rw [hcons, rdropWhile_append, if_pos hlines]
    rw [hone, List.rdropWhile_singleton, hnone]
    cases line with
    | nil => simp
    | cons a as => simp
  · have hmore : joinLines sep (line :: lines) = line ++ [sep] ++ joinLines sep lines := by
      unfold joinLines
      rw [hcons, rdropWhile_append, if_neg hlines]
      simp
    rw [if_neg fun h => hlines (hnil.mp h.1), hmore]
    simp
    omega

variable {sep} {f g : ι → List α}

theorem length_joinLines_le {xs : List ι} (h : ∀ x ∈ xs, (f x).length ≤ (g x).length) :
    (joinLines sep (xs.map f)).length ≤ (joinLines sep (xs.map g)).length := by
  induction xs with
  | nil => exact le_refl _
  | cons x xs ih =>
      rw [List.forall_mem_cons] at h
      have hle := ih h.2
      rw [List.map_cons, List.map_cons, length_joinLines_cons, length_joinLines_cons]
      by_cases hg : joinLines sep (xs.map g) = [] ∧ g x = []
      · rw [hg.1, List.length_nil, Nat.le_zero, List.length_eq_zero_iff] at hle
        have hf : f x = [] := by
          apply List.length_eq_zero_iff.mp
          rw [← Nat.le_zero, ← List.length_nil (α := α), ← hg.2]
          exact h.1
        rw [if_pos hg, if_pos ⟨hle, hf⟩]
      · rw [if_neg hg]
        split_ifs with hf
        · exact Nat.zero_le _
        · omega

theorem length_joinLines_lt {xs : List ι} (h : ∀ x ∈ xs, (f x).length ≤ (g x).length) {x : ι}
    (hx : x ∈ xs) (hlt : (f x).length < (g x).length) :
    (joinLines sep (xs.map f)).length < (joinLines sep (xs.map g)).length := by
  induction xs with
  | nil => exact absurd hx List.not_mem_nil
  | cons y xs ih =>
      rw [List.forall_mem_cons] at h
      have hle : (joinLines sep (xs.map f)).length ≤ (joinLines sep (xs.map g)).length :=
        length_joinLines_le h.2
      rw [List.map_cons, List.map_cons, length_joinLines_cons, length_joinLines_cons]
      have hbound : (if joinLines sep (xs.map f) = [] ∧ f y = [] then 0
          else (f y).length + 1 + (joinLines sep (xs.map f)).length) ≤
            (f y).length + 1 + (joinLines sep (xs.map f)).length := by
        split_ifs
        · exact Nat.zero_le _
        · exact le_refl _
      refine hbound.trans_lt ?_
      rcases List.mem_cons.mp hx with rfl | hx
      · have hne : ¬ (joinLines sep (xs.map g) = [] ∧ g x = []) := by
          rintro ⟨-, hnil⟩
          rw [hnil, List.length_nil] at hlt
          exact Nat.not_lt_zero _ hlt
        rw [if_neg hne]
        omega
      · have hlt' := ih h.2 hx
        have hne : ¬ (joinLines sep (xs.map g) = [] ∧ g y = []) := by
          rintro ⟨hnil, -⟩
          rw [hnil, List.length_nil] at hlt'
          exact Nat.not_lt_zero _ hlt'
        rw [if_neg hne]
        omega

/-- **Shorter lines, shorter text.** -/
theorem joinLines_eq_iff {xs : List ι}
    (h : ∀ x ∈ xs, f x = g x ∨ (f x).length < (g x).length) :
    joinLines sep (xs.map f) = joinLines sep (xs.map g) ↔ ∀ x ∈ xs, f x = g x := by
  constructor
  · intro heq x hx
    rcases h x hx with hsame | hlt
    · exact hsame
    · have hle : ∀ x ∈ xs, (f x).length ≤ (g x).length := by
        intro x hx
        rcases h x hx with hsame | hlt
        · rw [hsame]
        · exact hlt.le
      have hshort : (joinLines sep (xs.map f)).length < (joinLines sep (xs.map g)).length :=
        length_joinLines_lt hle hx hlt
      rw [heq] at hshort
      exact absurd hshort (lt_irrefl _)
  · intro hsame
    rw [List.map_congr_left hsame]

end

end Tymux.Lib
