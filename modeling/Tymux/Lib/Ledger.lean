import Mathlib.Data.List.Count

/-!
# What is started once and ended before it is started again

A slot has an owner and is busy or free, and no owner has two slots. Of what was started for an
owner all is ended, but for one while its slot is busy.
-/

set_option autoImplicit false

namespace Tymux.Lib

variable {α ι : Type*} [DecidableEq ι]

/-- The slots account for all that was started and ended. -/
structure Ledger (slot : α → Option (ι × Bool)) (started ended : List ι) : Prop where
  sole : ∀ a a' i b b', slot a = some (i, b) → slot a' = some (i, b') → a = a'
  busy : ∀ a i, slot a = some (i, true) → started.count i = ended.count i + 1
  free : ∀ i, (∀ a, slot a ≠ some (i, true)) → started.count i = ended.count i

namespace Ledger

variable {slot slot' : α → Option (ι × Bool)} {started ended : List ι} {a : α} {i : ι}

theorem empty : Ledger (fun _ : α => (none : Option (ι × Bool))) [] [] where
  sole a a' i b b' h := by cases h
  busy a i h := by cases h
  free i h := rfl

theorem congr (h : Ledger slot started ended) (heq : ∀ a, slot' a = slot a) :
    Ledger slot' started ended := by
  have hslot : slot' = slot := funext heq
  rw [hslot]
  exact h

theorem count_le (h : Ledger slot started ended) (i : ι) :
    ended.count i ≤ started.count i ∧ started.count i ≤ ended.count i + 1 := by
  by_cases hbusy : ∃ a, slot a = some (i, true)
  · obtain ⟨a, ha⟩ := hbusy
    have hcount := h.busy a i ha
    omega
  · have hcount := h.free i fun a ha => hbusy ⟨a, ha⟩
    omega

/-- INTERNAL: the owner of a slot keeps it, and no other slot changes. -/
theorem sole_update (h : Ledger slot started ended) {b : Bool}
    (hfree : ∀ a' b', slot a' = some (i, b') → a' = a) (hself : slot' a = some (i, b))
    (hothers : ∀ a', a' ≠ a → slot' a' = slot a') :
    ∀ a₁ a₂ j b₁ b₂, slot' a₁ = some (j, b₁) → slot' a₂ = some (j, b₂) → a₁ = a₂ := by
  intro a₁ a₂ j b₁ b₂ h₁ h₂
  by_cases ha₁ : a₁ = a
  · subst ha₁
    by_contra hne
    rw [hothers a₂ (Ne.symm hne)] at h₂
    rw [hself] at h₁
    cases h₁
    exact hne (hfree a₂ b₂ h₂).symm
  · rw [hothers a₁ ha₁] at h₁
    by_cases ha₂ : a₂ = a
    · subst ha₂
      rw [hself] at h₂
      cases h₂
      exact hfree a₁ b₁ h₁
    · rw [hothers a₂ ha₂] at h₂
      exact h.sole a₁ a₂ j b₁ b₂ h₁ h₂

/-- One more is started: in a new slot of an owner without one, or in its slot, which is free. -/
theorem start (h : Ledger slot started ended)
    (hfree : ∀ a' b, slot a' = some (i, b) → a' = a ∧ b = false)
    (hnew : slot a = none ∨ slot a = some (i, false)) (hself : slot' a = some (i, true))
    (hothers : ∀ a', a' ≠ a → slot' a' = slot a') : Ledger slot' (i :: started) ended where
  sole := h.sole_update (fun a' b hb => (hfree a' b hb).1) hself hothers
  busy a' j hbusy := by
    by_cases hj : j = i
    · subst hj
      have hcount := h.free j fun a'' hb => by
        have hb' := (hfree a'' true hb).2
        cases hb'
      rw [List.count_cons_self, hcount]
    · have ha' : a' ≠ a := by
        rintro rfl
        rw [hself] at hbusy
        cases hbusy
        exact hj rfl
      rw [hothers a' ha'] at hbusy
      rw [List.count_cons_of_ne (Ne.symm hj)]
      exact h.busy a' j hbusy
  free j hidle := by
    have hj : j ≠ i := by
      rintro rfl
      exact hidle a hself
    rw [List.count_cons_of_ne (Ne.symm hj)]
    apply h.free j
    intro a' hb
    by_cases ha' : a' = a
    · subst ha'
      rcases hnew with hnone | hslot
      · rw [hnone] at hb
        cases hb
      · rw [hslot] at hb
        cases hb
    · exact hidle a' ((hothers a' ha').trans hb)

/-- The one in a slot is ended. -/
theorem finish (h : Ledger slot started ended) (hbusy : slot a = some (i, true))
    (hself : slot' a = some (i, false)) (hothers : ∀ a', a' ≠ a → slot' a' = slot a') :
    Ledger slot' started (i :: ended) where
  sole := h.sole_update (fun a' b hb => h.sole a' a i b true hb hbusy) hself hothers
  busy a' j hb := by
    have ha' : a' ≠ a := by
      rintro rfl
      rw [hself] at hb
      cases hb
    rw [hothers a' ha'] at hb
    have hj : j ≠ i := by
      rintro rfl
      exact ha' (h.sole a' a j true true hb hbusy)
    rw [List.count_cons_of_ne (Ne.symm hj)]
    exact h.busy a' j hb
  free j hidle := by
    by_cases hj : j = i
    · subst hj
      rw [List.count_cons_self]
      exact h.busy a j hbusy
    · rw [List.count_cons_of_ne (Ne.symm hj)]
      apply h.free j
      intro a' hb
      have ha' : a' ≠ a := by
        rintro rfl
        rw [hbusy] at hb
        cases hb
        exact hj rfl
      exact hidle a' ((hothers a' ha').trans hb)

end Ledger

end Tymux.Lib
