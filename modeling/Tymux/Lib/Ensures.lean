import Tymux.Lib.Total

/-!
# What a computation ensures if it returns

`Ensures m Q` says nothing about a computation that panics: its result, where there is one,
satisfies `Q`. There is one rule for each way to put computations together.
-/

set_option autoImplicit false

namespace Tymux.Lib

variable {α β σ ι : Type}

def Ensures (m : Option α) (Q : α → Prop) : Prop := ∀ a, m = some a → Q a

theorem ensures_some {a : α} {Q : α → Prop} (h : Q a) : Ensures (some a) Q := by
  intro b hb
  rw [Option.some_inj] at hb
  exact hb ▸ h

theorem Ensures.bind {m : Option α} {f : α → Option β} {Q : α → Prop} {R : β → Prop}
    (h : Ensures m Q) (hf : ∀ a, Q a → Ensures (f a) R) : Ensures (m >>= f) R := by
  intro b hb
  obtain ⟨a, ha, hfa⟩ := Option.bind_eq_some_iff.mp hb
  exact hf a (h a ha) b hfa

/-- What the first computation ensures does not matter. -/
theorem ensures_bind {m : Option α} {f : α → Option β} {R : β → Prop}
    (hf : ∀ a, Ensures (f a) R) : Ensures (m >>= f) R := by
  intro b hb
  obtain ⟨a, -, hfa⟩ := Option.bind_eq_some_iff.mp hb
  exact hf a b hfa

theorem Ensures.map {m : Option α} {f : α → β} {Q : α → Prop} {R : β → Prop}
    (h : Ensures m Q) (hf : ∀ a, Q a → R (f a)) : Ensures (m.map f) R := by
  intro b hb
  obtain ⟨a, ha, rfl⟩ := Option.map_eq_some_iff.mp hb
  exact hf a (h a ha)

theorem ensures_map {m : Option α} {f : α → β} {R : β → Prop} (hf : ∀ a, R (f a)) :
    Ensures (m.map f) R := by
  intro b hb
  obtain ⟨a, -, rfl⟩ := Option.map_eq_some_iff.mp hb
  exact hf a

theorem Ensures.ite {c : Prop} [Decidable c] {m n : Option α} {Q : α → Prop} (hthen : Ensures m Q)
    (helse : Ensures n Q) : Ensures (if c then m else n) Q := by
  split_ifs
  · exact hthen
  · exact helse

theorem ensures_repeatM {f : σ → Option σ} (I : σ → Prop) (hf : ∀ s, I s → Ensures (f s) I) (n : ℕ)
    {s : σ} (hs : I s) : Ensures (repeatM f n s) I := by
  induction n generalizing s with
  | zero => exact ensures_some hs
  | succ n ih => exact (hf s hs).bind fun s' hs' => ih hs'

theorem ensures_foldlM {f : σ → ι → Option σ} (I : σ → Prop) (hf : ∀ s i, I s → Ensures (f s i) I)
    (is : List ι) {s : σ} (hs : I s) : Ensures (is.foldlM f s) I := by
  induction is generalizing s with
  | nil => exact ensures_some hs
  | cons i is ih =>
      rw [List.foldlM_cons]
      exact (hf s i hs).bind fun s' hs' => ih hs'

end Tymux.Lib
