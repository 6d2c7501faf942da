import Mathlib.Data.List.Basic

/-!
# Lists with a separator between
-/

set_option autoImplicit false

namespace Tymux.Lib

theorem intercalate_concat {α : Type} (sep : List α) (xs : List (List α)) (x : List α) :
    sep.intercalate (xs ++ [x]) = (if xs.isEmpty then [] else sep.intercalate xs ++ sep) ++ x := by
  induction xs with
  | nil => simp
  | cons y ys ih =>
      rw [List.cons_append, List.intercalate_cons_of_ne_nil (by simp), ih]
      cases ys with
      | nil => simp
      | cons z zs => simp [List.intercalate_cons_cons]

theorem forall_mem_intercalate {α : Type} {P : α → Prop} {sep : List α} {xs : List (List α)}
    (hsep : ∀ a ∈ sep, P a) (h : ∀ x ∈ xs, ∀ a ∈ x, P a) : ∀ a ∈ sep.intercalate xs, P a := by
  induction xs with
  | nil => exact List.forall_mem_nil _
  | cons x xs ih =>
      rw [List.forall_mem_cons] at h
      cases xs with
      | nil =>
          rw [List.intercalate_singleton]
          exact h.1
      | cons y ys =>
          rw [List.intercalate_cons_cons, List.forall_mem_append, List.forall_mem_append]
          exact ⟨⟨h.1, hsep⟩, ih h.2⟩

theorem intercalate_cons {α : Type} (sep x : List α) (xs : List (List α)) :
    ∃ more, sep.intercalate (x :: xs) = x ++ more := by
  cases xs with
  | nil => exact ⟨[], by rw [List.intercalate_singleton, List.append_nil]⟩
  | cons y ys => exact ⟨_, (List.intercalate_cons_cons ..).trans (List.append_assoc ..)⟩

end Tymux.Lib
