import Tymux.Lib.Total
import Mathlib.Logic.Function.Iterate

/-!
# Computations up to a projection

A projection `φ` forgets part of a state. A partial computation respects it when, on a state and on
what `φ` leaves of the state, its results are the same up to what is forgotten: a later computation
that respects the projection too cannot tell which of the two went before. There is one rule for
each way to put such computations together.
-/

set_option autoImplicit false

namespace Tymux.Lib

variable {α β γ ι σ : Type}

/-- The results of `f`, seen through `ψ`, do not depend on what `φ` forgets. -/
def Respects (φ : α → α) (ψ : β → γ) (f : α → Option β) : Prop :=
  ∀ a, (f (φ a)).map ψ = (f a).map ψ

theorem Respects.congr {φ : α → α} {ψ : β → γ} {f : α → Option β} (hf : Respects φ ψ f) {a a' : α}
    (h : φ a = φ a') : (f a).map ψ = (f a').map ψ := by
  rw [← hf a, h, hf a']

/-- What commutes with the projection respects it. -/
theorem map_of_commutes {m n : Option α} {φ : α → α} (hφ : ∀ a, φ (φ a) = φ a) (h : n = m.map φ) :
    n.map φ = m.map φ := by
  rw [h, Option.map_map]
  exact congrArg (Option.map · m) (funext hφ)

/-- What follows takes states that are the same up to what is forgotten to such results. -/
theorem bind_agree {m n : Option α} {φ : α → α} {ψ : β → γ} {k k' : α → Option β}
    (hm : n.map φ = m.map φ) (hk : ∀ a a', φ a' = φ a → (k' a').map ψ = (k a).map ψ) :
    (n >>= k').map ψ = (m >>= k).map ψ := by
  cases m with
  | none =>
      rw [Option.map_none, Option.map_eq_none_iff] at hm
      rw [hm]
      rfl
  | some a =>
      rw [Option.map_some, Option.map_eq_some_iff] at hm
      obtain ⟨a', rfl, ha⟩ := hm
      exact hk a a' ha

theorem bind_respects {m n : Option α} {φ : α → α} {ψ : β → γ} {k : α → Option β}
    (hm : n.map φ = m.map φ) (hk : Respects φ ψ k) : (n >>= k).map ψ = (m >>= k).map ψ :=
  bind_agree hm fun _ _ ha => hk.congr ha

theorem map_respects {m n : Option α} {φ : α → α} {ψ : β → γ} {k : α → β} (hm : n.map φ = m.map φ)
    (hk : ∀ a, ψ (k (φ a)) = ψ (k a)) : (n.map k).map ψ = (m.map k).map ψ := by
  have hsome : Respects φ ψ fun a => some (k a) := fun a => congrArg some (hk a)
  have hbind : ∀ x : Option α, x.map k = x >>= fun a => some (k a) := fun _ => Option.map_eq_bind
  rw [hbind, hbind]
  exact bind_respects hm hsome

/-- The first computation does not see the state at all. -/
theorem bind_same_respects {m : Option α} {ψ : β → γ} {k k' : α → Option β}
    (hk : ∀ a, (k' a).map ψ = (k a).map ψ) : (m >>= k').map ψ = (m >>= k).map ψ := by
  cases m with
  | none => rfl
  | some a => exact hk a

theorem ite_agree {c d : Prop} [Decidable c] [Decidable d] {x y x' y' : β} {ψ : β → γ} (hcd : c ↔ d)
    (hthen : ψ x' = ψ x) (helse : ψ y' = ψ y) :
    ψ (if c then x' else y') = ψ (if d then x else y) := by
  by_cases hc : c
  · rw [if_pos hc, if_pos (hcd.mp hc)]
    exact hthen
  · rw [if_neg hc, if_neg fun hd => hc (hcd.mpr hd)]
    exact helse

theorem ite_respects {c d : Prop} [Decidable c] [Decidable d] {x y x' y' : Option β} {ψ : β → γ}
    (hcd : c ↔ d) (hthen : x'.map ψ = x.map ψ) (helse : y'.map ψ = y.map ψ) :
    (if c then x' else y').map ψ = (if d then x else y).map ψ :=
  ite_agree (ψ := Option.map ψ) hcd hthen helse

theorem repeatM_respects {φ : σ → σ} {f : σ → Option σ} (hφ : ∀ s, φ (φ s) = φ s)
    (hf : Respects φ φ f) (n : ℕ) : Respects φ φ (repeatM f n) := by
  induction n with
  | zero => exact fun s => congrArg some (hφ s)
  | succ n ih => exact fun s => bind_respects (hf s) ih

theorem iterate_respects {φ : σ → σ} {f : σ → σ} (hφ : ∀ s, φ (φ s) = φ s)
    (hf : ∀ s, φ (f (φ s)) = φ (f s)) (n : ℕ) (s : σ) : φ (f^[n] (φ s)) = φ (f^[n] s) := by
  induction n generalizing s with
  | zero => exact hφ s
  | succ n ih =>
      rw [Function.iterate_succ_apply, Function.iterate_succ_apply, ← ih, hf, ih]

theorem foldlM_respects {φ : σ → σ} {f : σ → ι → Option σ} (hφ : ∀ s, φ (φ s) = φ s)
    (hf : ∀ i, Respects φ φ fun s => f s i) (is : List ι) :
    Respects φ φ fun s => is.foldlM f s := by
  induction is with
  | nil => exact fun s => congrArg some (hφ s)
  | cons i is ih =>
      intro s
      dsimp only
      rw [List.foldlM_cons, List.foldlM_cons]
      exact bind_respects (hf i s) ih

end Tymux.Lib
