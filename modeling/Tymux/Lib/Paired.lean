import Mathlib.Data.List.Basic

/-!
# Lists with elements that belong together

`Paired S F C l` says that `l` is a sequence of single elements, in `S`, and of adjacent pairs of
a first half, in `F`, and a second half, in `C`. Such lists are closed under concatenation, and a
cut either falls between two of these units or through exactly one pair. What an index refers to
is told by `Paired.trichotomy`.
-/

set_option autoImplicit false

namespace Tymux.Lib

variable {α β : Type} {S F C : α → Prop}

/-- A sequence of singles and of pairs. -/
inductive Paired (S F C : α → Prop) : List α → Prop
  | nil : Paired S F C []
  | single {a : α} {l : List α} (ha : S a) (hl : Paired S F C l) : Paired S F C (a :: l)
  | pair {a b : α} {l : List α} (ha : F a) (hb : C b) (hl : Paired S F C l) :
    Paired S F C (a :: b :: l)

namespace Paired

theorem append {l m : List α} (hl : Paired S F C l) (hm : Paired S F C m) :
    Paired S F C (l ++ m) := by
  induction hl with
  | nil => exact hm
  | single ha _ ih => exact .single ha ih
  | pair ha hb _ ih => exact .pair ha hb ih

theorem flatten {ls : List (List α)} (h : ∀ l ∈ ls, Paired S F C l) :
    Paired S F C ls.flatten := by
  induction ls with
  | nil => exact .nil
  | cons l ls ih =>
      rw [List.flatten_cons]
      rw [List.forall_mem_cons] at h
      exact h.1.append (ih h.2)

theorem of_forall {l : List α} (h : ∀ a ∈ l, S a) : Paired S F C l := by
  induction l with
  | nil => exact .nil
  | cons a l ih =>
      rw [List.forall_mem_cons] at h
      exact .single h.1 (ih h.2)

theorem map {S' F' C' : β → Prop} {f : α → β} {l : List α} (hl : Paired S F C l)
    (hS : ∀ a, S a → S' (f a)) (hF : ∀ a, F a → F' (f a)) (hC : ∀ a, C a → C' (f a)) :
    Paired S' F' C' (l.map f) := by
  induction hl with
  | nil => exact .nil
  | single ha _ ih => exact .single (hS _ ha) ih
  | pair ha hb _ ih => exact .pair (hF _ ha) (hC _ hb) ih

/-- INTERNAL: A cut falls between two units, or through one pair. -/
theorem split {l m : List α} (h : Paired S F C (l ++ m)) :
    (Paired S F C l ∧ Paired S F C m) ∨
      ∃ l' a b m', l = l' ++ [a] ∧ m = b :: m' ∧ F a ∧ C b ∧ Paired S F C l' ∧ Paired S F C m' := by
  generalize hlm : l ++ m = lm at h
  induction h generalizing l with
  | nil =>
      obtain ⟨rfl, rfl⟩ := List.append_eq_nil_iff.mp hlm
      exact Or.inl ⟨.nil, .nil⟩
  | single ha hrest ih =>
      rcases List.append_eq_cons_iff.mp hlm with ⟨rfl, rfl⟩ | ⟨l₁, rfl, hl₁⟩
      · exact Or.inl ⟨.nil, .single ha hrest⟩
      · rcases ih hl₁.symm with ⟨h₁, h₂⟩ | ⟨l', a', b, m', rfl, rfl, hF, hC, h₁, h₂⟩
        · exact Or.inl ⟨.single ha h₁, h₂⟩
        · exact Or.inr ⟨_ :: l', a', b, m', rfl, rfl, hF, hC, .single ha h₁, h₂⟩
  | pair ha hb hrest ih =>
      rcases List.append_eq_cons_iff.mp hlm with ⟨rfl, rfl⟩ | ⟨l₁, rfl, hl₁⟩
      · exact Or.inl ⟨.nil, .pair ha hb hrest⟩
      · rcases List.append_eq_cons_iff.mp hl₁.symm with ⟨rfl, rfl⟩ | ⟨l₂, rfl, hl₂⟩
        · exact Or.inr ⟨[], _, _, _, rfl, rfl, ha, hb, .nil, hrest⟩
        · rcases ih hl₂.symm with ⟨h₁, h₂⟩ | ⟨l', a', b', m', rfl, rfl, hF, hC, h₁, h₂⟩
          · exact Or.inl ⟨.pair ha hb h₁, h₂⟩
          · exact Or.inr ⟨_ :: _ :: l', a', b', m', rfl, rfl, hF, hC, .pair ha hb h₁, h₂⟩

/-- A cut after an element that is no first half is between two units. -/
theorem split_of_not_first {l m : List α} (h : Paired S F C (l ++ m))
    (hlast : ∀ a ∈ l.getLast?, ¬ F a) : Paired S F C l ∧ Paired S F C m := by
  rcases h.split with h | ⟨l', a, b, m', rfl, -, hF, -⟩
  · exact h
  · exact absurd hF (hlast a (by simp))

/-- A cut before an element that is no second half is between two units. -/
theorem split_of_not_second {l m : List α} (h : Paired S F C (l ++ m))
    (hhead : ∀ a ∈ m.head?, ¬ C a) : Paired S F C l ∧ Paired S F C m := by
  rcases h.split with h | ⟨l', a, b, m', -, rfl, -, hC, -⟩
  · exact h
  · exact absurd hC (hhead b (by simp))

/-- A cut is mended by a single on the side of the first half. -/
theorem take_mend {l : List α} (h : Paired S F C l) (n : ℕ) {c : α} (hc : S c) :
    Paired S F C (l.take n) ∨
      ∃ l' a, l.take n = l' ++ [a] ∧ F a ∧ Paired S F C (l' ++ [c]) := by
  rw [← List.take_append_drop n l] at h
  rcases h.split with ⟨h₁, -⟩ | ⟨l', a, b, m', hl, -, hF, -, h₁, -⟩
  · exact Or.inl h₁
  · exact Or.inr ⟨l', a, hl, hF, h₁.append (.single hc .nil)⟩

/-- INTERNAL: An element is a single, or the first half of a pair, or the second half of one;
what is before and after its unit is paired. -/
theorem trichotomy {l : List α} (h : Paired S F C l) {i : ℕ} {a : α} (hi : l[i]? = some a) :
    (S a ∧ Paired S F C (l.take i) ∧ Paired S F C (l.drop (i + 1))) ∨
    (F a ∧ ∃ b, l[i + 1]? = some b ∧ C b ∧ Paired S F C (l.take i) ∧
      Paired S F C (l.drop (i + 2))) ∨
    (C a ∧ ∃ j b, i = j + 1 ∧ l[j]? = some b ∧ F b ∧ Paired S F C (l.take j) ∧
      Paired S F C (l.drop (i + 1))) := by
  induction h generalizing i with
  | nil => simp at hi
  | single hb hrest ih =>
      cases i with
      | zero =>
          rw [List.getElem?_cons_zero, Option.some_inj] at hi
          exact Or.inl ⟨hi ▸ hb, .nil, hrest⟩
      | succ i =>
          rw [List.getElem?_cons_succ] at hi
          rcases ih hi with ⟨h₁, h₂, h₃⟩ | ⟨h₁, b, h₂, h₃, h₄, h₅⟩ | ⟨h₁, j, b, rfl, h₂, h₃, h₄, h₅⟩
          · exact Or.inl ⟨h₁, .single hb h₂, h₃⟩
          · exact Or.inr (Or.inl ⟨h₁, b, h₂, h₃, .single hb h₄, h₅⟩)
          · exact Or.inr (Or.inr ⟨h₁, j + 1, b, rfl, h₂, h₃, .single hb h₄, h₅⟩)
  | pair hb hc hrest ih =>
      match i with
      | 0 =>
          rw [List.getElem?_cons_zero, Option.some_inj] at hi
          exact Or.inr (Or.inl ⟨hi ▸ hb, _, rfl, hc, .nil, hrest⟩)
      | 1 =>
          rw [List.getElem?_cons_succ, List.getElem?_cons_zero, Option.some_inj] at hi
          exact Or.inr (Or.inr ⟨hi ▸ hc, 0, _, rfl, rfl, hb, .nil, hrest⟩)
      | i + 2 =>
          rw [List.getElem?_cons_succ, List.getElem?_cons_succ] at hi
          rcases ih hi with ⟨h₁, h₂, h₃⟩ | ⟨h₁, b, h₂, h₃, h₄, h₅⟩ | ⟨h₁, j, b, rfl, h₂, h₃, h₄, h₅⟩
          · exact Or.inl ⟨h₁, .pair hb hc h₂, h₃⟩
          · exact Or.inr (Or.inl ⟨h₁, b, h₂, h₃, .pair hb hc h₄, h₅⟩)
          · exact Or.inr (Or.inr ⟨h₁, j + 2, b, rfl, h₂, h₃, .pair hb hc h₄, h₅⟩)

/-- An element may be replaced by one of its kind. -/
theorem set_of_kind {l : List α} (h : Paired S F C l) {i : ℕ} {a a' : α} (hi : l[i]? = some a)
    (hS : S a → S a') (hF : F a → F a') (hC : C a → C a') : Paired S F C (l.set i a') := by
  induction h generalizing i with
  | nil => simp at hi
  | single hb hrest ih =>
      cases i with
      | zero =>
          rw [List.getElem?_cons_zero, Option.some_inj] at hi
          exact .single (hS (hi ▸ hb)) hrest
      | succ i => exact .single hb (ih hi)
  | pair hb hc hrest ih =>
      match i with
      | 0 =>
          rw [List.getElem?_cons_zero, Option.some_inj] at hi
          exact .pair (hF (hi ▸ hb)) hc hrest
      | 1 =>
          rw [List.getElem?_cons_succ, List.getElem?_cons_zero, Option.some_inj] at hi
          exact .pair hb (hC (hi ▸ hc)) hrest
      | i + 2 => exact .pair hb hc (ih hi)

end Paired

end Tymux.Lib
