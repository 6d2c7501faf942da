import Tymux.Lib.Total
import Mathlib.Data.List.InsertIdx
import Mathlib.Logic.Function.Iterate

/-!
# Computations that do not look at names

A computation is blind to a renaming `φ` of its state when it gives the same result, renamed, on
the renamed state: `f (φ a) = (f a).map φ`. There is one rule for each way to put such computations
together, and one for each checked access to a list whose elements are renamed.
-/

set_option autoImplicit false

namespace Tymux.Lib

variable {α β α' β' σ σ' ι : Type}

/-! ## Sequences and loops -/

/-- What follows a renamed result does not look at the names in it. -/
theorem bind_renamed {m : Option α} {n : Option α'} {φ : α → α'} {ψ : β → β'} {f : α → Option β}
    {g : α' → Option β'} (hm : n = m.map φ) (hf : ∀ a, g (φ a) = (f a).map ψ) :
    (n >>= g) = (m >>= f).map ψ := by
  subst hm
  cases m with
  | none => rfl
  | some a => exact hf a

/-- The last result has no names. -/
theorem bind_unnamed {m : Option α} {n : Option α'} {φ : α → α'} {f : α → Option β}
    {g : α' → Option β} (hm : n = m.map φ) (hf : ∀ a, g (φ a) = f a) : (n >>= g) = (m >>= f) := by
  subst hm
  cases m with
  | none => rfl
  | some a => exact hf a

/-- The result of the first computation has no names. -/
theorem bind_same {m : Option α} {ψ : β → β'} {f : α → Option β} {g : α → Option β'}
    (hf : ∀ a, g a = (f a).map ψ) : (m >>= g) = (m >>= f).map ψ := by
  cases m with
  | none => rfl
  | some a => exact hf a

theorem map_renamed {m : Option α} {n : Option α'} {φ : α → α'} {ψ : β → β'} {f : α → β}
    {g : α' → β'} (hm : n = m.map φ) (hf : ∀ a, g (φ a) = ψ (f a)) : n.map g = (m.map f).map ψ := by
  subst hm
  cases m with
  | none => rfl
  | some a => exact congrArg some (hf a)

/-- Both branches of a test that does not look at the names. -/
theorem ite_renamed {c d : Prop} [Decidable c] [Decidable d] {x y : α} {x' y' : β} {ψ : α → β}
    (hcd : c ↔ d) (hthen : x' = ψ x) (helse : y' = ψ y) :
    (if c then x' else y') = ψ (if d then x else y) := by
  by_cases hc : c
  · rw [if_pos hc, if_pos (hcd.mp hc)]
    exact hthen
  · rw [if_neg hc, if_neg fun hd => hc (hcd.mpr hd)]
    exact helse

theorem repeatM_renamed {φ : σ → σ'} {f : σ → Option σ} {g : σ' → Option σ'}
    (h : ∀ s, g (φ s) = (f s).map φ) (n : ℕ) (s : σ) :
    repeatM g n (φ s) = (repeatM f n s).map φ := by
  induction n generalizing s with
  | zero => rfl
  | succ n ih => exact bind_renamed (h s) ih

theorem foldlM_renamed {φ : σ → σ'} {f : σ → ι → Option σ} {g : σ' → ι → Option σ'}
    (h : ∀ s i, g (φ s) i = (f s i).map φ) (is : List ι) (s : σ) :
    is.foldlM g (φ s) = (is.foldlM f s).map φ := by
  induction is generalizing s with
  | nil => rfl
  | cons i is ih =>
      rw [List.foldlM_cons, List.foldlM_cons]
      exact bind_renamed (h s i) ih

theorem iterate_renamed {φ : σ → σ'} {f : σ → σ} {g : σ' → σ'} (h : ∀ s, g (φ s) = φ (f s)) (n : ℕ)
    (s : σ) : g^[n] (φ s) = φ (f^[n] s) := by
  induction n generalizing s with
  | zero => rfl
  | succ n ih => rw [Function.iterate_succ_apply, Function.iterate_succ_apply, h, ih]

/-! ## Lists of renamed elements -/

theorem updateAt_renamed {φ : α → α'} {f : α → Option α} {g : α' → Option α'}
    (h : ∀ a, g (φ a) = (f a).map φ) (xs : List α) (i : ℕ) :
    updateAt (xs.map φ) i g = (updateAt xs i f).map (List.map φ) := by
  unfold updateAt
  refine bind_renamed List.getElem?_map fun a => bind_renamed (h a) fun b => ?_
  exact congrArg some (List.map_set ..).symm

theorem modify_renamed {φ : α → α'} {f : α → α} {g : α' → α'} (h : ∀ a, g (φ a) = φ (f a))
    (xs : List α) (i : ℕ) : (xs.map φ).modify i g = (xs.modify i f).map φ := by
  induction xs generalizing i with
  | nil => rw [List.map_nil, List.modify_nil, List.modify_nil, List.map_nil]
  | cons x xs ih =>
      cases i with
      | zero =>
          rw [List.map_cons, List.modify_zero_cons, List.modify_zero_cons, List.map_cons, h]
      | succ i =>
          rw [List.map_cons, List.modify_succ_cons, List.modify_succ_cons, List.map_cons, ih]

theorem insertAt_renamed (φ : α → α') (xs : List α) (i : ℕ) (a : α) :
    insertAt (xs.map φ) i (φ a) = (insertAt xs i a).map (List.map φ) := by
  unfold insertAt
  rw [List.length_map]
  refine ite_renamed Iff.rfl ?_ rfl
  exact congrArg some (List.map_insertIdx ..).symm

theorem removeAt_renamed (φ : α → α') (xs : List α) (i : ℕ) :
    removeAt (xs.map φ) i = (removeAt xs i).map (Prod.map φ (List.map φ)) := by
  unfold removeAt
  refine bind_renamed List.getElem?_map fun a => ?_
  exact congrArg (fun ys => some (φ a, ys)) (List.eraseIdx_map ..)

end Tymux.Lib
