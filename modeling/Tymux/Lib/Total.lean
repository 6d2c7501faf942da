import Tymux.Lib.Run
import Mathlib.Data.List.Basic
import Mathlib.Data.Option.Basic

/-!
# Computations that return

An imperative program is a computation in `Option`, where `none` stands for a panic: an index
out of bounds, a failed `unwrap`, a subtraction below zero. `Yields m Q` says that `m` returns
and that its result satisfies `Q`. There is one rule for each way to put computations together,
and one for each checked access to a list.
-/

set_option autoImplicit false

namespace Tymux.Lib

variable {α β σ : Type}

/-- The computation returns, with a result in `Q`. -/
def Yields (m : Option α) (Q : α → Prop) : Prop := ∃ a, m = some a ∧ Q a

theorem yields_some {a : α} {Q : α → Prop} (h : Q a) : Yields (some a) Q := ⟨a, rfl, h⟩

theorem Yields.mono {m : Option α} {Q R : α → Prop} (h : Yields m Q) (hQR : ∀ a, Q a → R a) :
    Yields m R := by
  obtain ⟨a, ha, hQ⟩ := h
  exact ⟨a, ha, hQR a hQ⟩

theorem Yields.bind {m : Option α} {f : α → Option β} {Q : α → Prop} {R : β → Prop}
    (h : Yields m Q) (hf : ∀ a, Q a → Yields (f a) R) : Yields (m >>= f) R := by
  obtain ⟨a, rfl, hQ⟩ := h
  exact hf a hQ

theorem Yields.map {m : Option α} {f : α → β} {Q : α → Prop} {R : β → Prop}
    (h : Yields m Q) (hf : ∀ a, Q a → R (f a)) : Yields (m.map f) R := by
  obtain ⟨a, rfl, hQ⟩ := h
  exact ⟨f a, rfl, hf a hQ⟩

theorem yields_bind_of_eq {m : Option α} {f : α → Option β} {a : α} {R : β → Prop} (hm : m = some a)
    (h : Yields (f a) R) : Yields (m >>= f) R := by
  rw [hm]
  exact h

theorem Yields.of_eq {m : Option α} {Q : α → Prop} {a : α} (h : Yields m Q) (hm : m = some a) :
    Q a := by
  obtain ⟨b, hb, hQ⟩ := h
  rw [hm, Option.some_inj] at hb
  exact hb ▸ hQ

/-! ## Loops -/

/-- `for _ in 0..n { f }` -/
def repeatM (f : σ → Option σ) : ℕ → σ → Option σ
  | 0, s => some s
  | n + 1, s => f s >>= repeatM f n

theorem yields_repeatM {f : σ → Option σ} (I : σ → Prop) (hf : ∀ s, I s → Yields (f s) I) (n : ℕ)
    {s : σ} (hs : I s) : Yields (repeatM f n s) I := by
  induction n generalizing s with
  | zero => exact yields_some hs
  | succ n ih => exact (hf s hs).bind fun s' hs' => ih hs'

theorem yields_foldlM {f : σ → α → Option σ} (I : σ → Prop) (xs : List α)
    (hf : ∀ s, ∀ x ∈ xs, I s → Yields (f s x) I) {s : σ} (hs : I s) :
    Yields (xs.foldlM f s) I := by
  induction xs generalizing s with
  | nil => exact yields_some hs
  | cons x xs ih =>
      rw [List.foldlM_cons]
      refine (hf s x List.mem_cons_self hs).bind fun s' hs' => ?_
      exact ih (fun s x hx => hf s x (List.mem_cons_of_mem _ hx)) hs'

/-- Each step of a run starts in a state that satisfies `P` for it. -/
def Along (step : σ → α → Option σ) (P : σ → α → Prop) : σ → List α → Prop
  | _, [] => True
  | s, a :: as => P s a ∧ ∀ s', step s a = some s' → Along step P s' as

instance decidableAlong (step : σ → α → Option σ) (P : σ → α → Prop)
    [∀ s a, Decidable (P s a)] : ∀ s as, Decidable (Along step P s as)
  | _, [] => isTrue trivial
  | s, a :: as =>
    match h : step s a with
    | none => decidable_of_iff (P s a) ⟨fun hP => ⟨hP, fun s' hs' => by rw [h] at hs'; cases hs'⟩,
        fun hP => hP.1⟩
    | some s₁ =>
      haveI := decidableAlong step P s₁ as
      decidable_of_iff (P s a ∧ Along step P s₁ as)
        ⟨fun hP => ⟨hP.1, fun s' hs' => by rw [h, Option.some_inj] at hs'; exact hs' ▸ hP.2⟩,
          fun hP => ⟨hP.1, hP.2 s₁ h⟩⟩

theorem Along.mono {step : σ → α → Option σ} {P R : σ → α → Prop} {s : σ} {as : List α}
    (h : Along step P s as) (hPR : ∀ s a, P s a → R s a) : Along step R s as := by
  induction as generalizing s with
  | nil => trivial
  | cons a as ih => exact ⟨hPR s a h.1, fun s' hs' => ih (h.2 s' hs')⟩

/-- A condition for the whole run is one for each step of it. -/
theorem along_of_imp {step : σ → α → Option σ} {P : σ → α → Prop} {V : Prop} {s : σ} {as : List α}
    (h : V → Along step P s as) : Along step (fun s a => V → P s a) s as := by
  induction as generalizing s with
  | nil => trivial
  | cons a as ih => exact ⟨fun hv => (h hv).1, fun s' hs' => ih fun hv => (h hv).2 s' hs'⟩

theorem along_of_forall (step : σ → α → Option σ) {P : α → Prop} {s : σ} {as : List α}
    (h : ∀ a ∈ as, P a) : Along step (fun _ a => P a) s as := by
  induction as generalizing s with
  | nil => trivial
  | cons a as ih =>
      rw [List.forall_mem_cons] at h
      exact ⟨h.1, fun s' _ => ih h.2⟩

theorem Along.and {step : σ → α → Option σ} {P R : σ → α → Prop} {s : σ} {as : List α}
    (h : Along step P s as) (h' : Along step R s as) : Along step (fun s a => P s a ∧ R s a) s as := by
  induction as generalizing s with
  | nil => trivial
  | cons a as ih => exact ⟨⟨h.1, h'.1⟩, fun s' hs' => ih (h.2 s' hs') (h'.2 s' hs')⟩

/-- The condition of a run is one of its first part, and of the rest from where that ends. -/
theorem Along.split {step : σ → α → Option σ} {P : σ → α → Prop} {s s' : σ} {as as' : List α}
    (h : Along step P s (as ++ as')) (hrun : run step s as = some s') :
    Along step P s as ∧ Along step P s' as' := by
  induction as generalizing s with
  | nil =>
      rw [run_nil, Option.some_inj] at hrun
      exact ⟨trivial, hrun ▸ h⟩
  | cons a as ih =>
      rw [run_cons, Option.bind_eq_some_iff] at hrun
      obtain ⟨s₁, hs₁, hrest⟩ := hrun
      refine ⟨⟨h.1, ?_⟩, (ih (h.2 s₁ hs₁) hrest).2⟩
      intro s₂ hs₂
      rw [hs₁, Option.some_inj] at hs₂
      exact hs₂ ▸ (ih (h.2 s₁ hs₁) hrest).1

/-- What each step keeps where its condition holds, a run keeps that meets it step by step. -/
theorem run_invariant_along {step : σ → α → Option σ} {P : σ → α → Prop} (I : σ → Prop)
    (hstep : ∀ s a s', I s → P s a → step s a = some s' → I s') {s s' : σ} {as : List α} (hs : I s)
    (hP : Along step P s as) (hrun : run step s as = some s') : I s' := by
  induction as generalizing s with
  | nil =>
      rw [run_nil, Option.some_inj] at hrun
      exact hrun ▸ hs
  | cons a as ih =>
      rw [run_cons, Option.bind_eq_some_iff] at hrun
      obtain ⟨s₁, hs₁, hrest⟩ := hrun
      exact ih (hstep s a s₁ hs hP.1 hs₁) (hP.2 s₁ hs₁) hrest

theorem Along.of_invariant {step : σ → α → Option σ} {P R : σ → α → Prop} {I : σ → Prop}
    (hstep : ∀ s a s', I s → P s a → step s a = some s' → I s') (hR : ∀ s a, I s → P s a → R s a)
    {s : σ} {as : List α} (h : Along step P s as) (hs : I s) : Along step R s as := by
  induction as generalizing s with
  | nil => trivial
  | cons a as ih =>
      refine ⟨hR s a hs h.1, fun s' hs' => ?_⟩
      exact ih (h.2 s' hs') (hstep s a s' hs h.1 hs')

/-- Where a step's condition is exactly what makes the state after it good, the states of a run are
all good if and only if each of its steps meets the condition. -/
theorem along_iff_prefixes {step : σ → α → Option σ} {P : σ → α → Prop} {G I : σ → Prop}
    (hgood : ∀ s a s', I s → step s a = some s' → (P s a ↔ G s'))
    (hinv : ∀ s a s', I s → P s a → step s a = some s' → I s') {s s' : σ} {as : List α} (hs : I s)
    (hs₀ : G s) (hrun : run step s as = some s') :
    Along step P s as ↔ ∀ bs t, bs <+: as → run step s bs = some t → G t := by
  induction as generalizing s with
  | nil =>
      refine ⟨fun _ bs t hbs ht => ?_, fun _ => trivial⟩
      rw [List.prefix_nil.mp hbs, run_nil, Option.some_inj] at ht
      exact ht ▸ hs₀
  | cons a as ih =>
      rw [run_cons, Option.bind_eq_some_iff] at hrun
      obtain ⟨s₁, hs₁, hrest⟩ := hrun
      constructor
      · rintro ⟨hP, halong⟩ bs t hbs ht
        cases bs with
        | nil =>
            rw [run_nil, Option.some_inj] at ht
            exact ht ▸ hs₀
        | cons b bs =>
            obtain ⟨rfl, hbs'⟩ := List.cons_prefix_cons.mp hbs
            rw [run_cons_of_step step hs₁] at ht
            have hs₁' : I s₁ := hinv s b s₁ hs hP hs₁
            have hG₁ : G s₁ := (hgood s b s₁ hs hs₁).mp hP
            exact (ih hs₁' hG₁ hrest).mp (halong s₁ hs₁) bs t hbs' ht
      · intro hall
        have hG₁ : G s₁ := by
          apply hall [a] s₁ ⟨as, rfl⟩
          rw [run_cons_of_step step hs₁, run_nil]
        have hP : P s a := (hgood s a s₁ hs hs₁).mpr hG₁
        refine ⟨hP, fun s₂ hs₂ => ?_⟩
        rw [hs₁, Option.some_inj] at hs₂
        subst hs₂
        apply (ih (hinv s a s₁ hs hP hs₁) hG₁ hrest).mpr
        intro bs t hbs ht
        apply hall (a :: bs) t (List.cons_prefix_cons.mpr ⟨rfl, hbs⟩)
        rw [run_cons_of_step step hs₁]
        exact ht

theorem yields_foldlM_along {step : σ → α → Option σ} {P : σ → α → Prop} (I : σ → Prop)
    (hstep : ∀ s a, I s → P s a → Yields (step s a) I) (as : List α) {s : σ} (hs : I s)
    (hP : Along step P s as) : Yields (as.foldlM step s) I := by
  induction as generalizing s with
  | nil => exact yields_some hs
  | cons a as ih =>
      rw [List.foldlM_cons]
      obtain ⟨s', heq, hs'⟩ := hstep s a hs hP.1
      exact yields_bind_of_eq heq (ih hs' (hP.2 s' heq))

/-- A loop whose body is a loop over a list. -/
theorem repeatM_foldlM (step : σ → α → Option σ) (as : List α) (n : ℕ) (s : σ) :
    repeatM (fun s => as.foldlM step s) n s = (List.replicate n as).flatten.foldlM step s := by
  induction n generalizing s with
  | zero => rfl
  | succ n ih =>
      rw [List.replicate_succ, List.flatten_cons, List.foldlM_append]
      show (as.foldlM step s >>= repeatM (fun s => as.foldlM step s) n) = _
      congr 1
      funext s'
      exact ih s'

/-! ## Checked access -/

/-- `xs[i] = f(xs[i])`, where `f` may panic itself. -/
def updateAt (xs : List α) (i : ℕ) (f : α → Option α) : Option (List α) := do
  let a ← xs[i]?
  let b ← f a
  return xs.set i b

/-- `xs.insert(i, a)` -/
def insertAt (xs : List α) (i : ℕ) (a : α) : Option (List α) :=
  if i ≤ xs.length then some (xs.insertIdx i a) else none

/-- `xs.remove(i)`, with what was there. -/
def removeAt (xs : List α) (i : ℕ) : Option (α × List α) := do
  let a ← xs[i]?
  return (a, xs.eraseIdx i)

theorem yields_getElem? {xs : List α} {i : ℕ} (h : i < xs.length) {Q : α → Prop}
    (hQ : ∀ a, xs[i]? = some a → Q a) : Yields xs[i]? Q :=
  ⟨xs[i], List.getElem?_eq_getElem h, hQ _ (List.getElem?_eq_getElem h)⟩

theorem updateAt_eq {xs : List α} {i : ℕ} {f : α → Option α} {a b : α} (ha : xs[i]? = some a)
    (hf : f a = some b) : updateAt xs i f = some (xs.set i b) := by
  unfold updateAt
  rw [ha, Option.bind_eq_bind, Option.bind_some, hf]
  rfl

theorem yields_updateAt {xs : List α} {i : ℕ} {f : α → Option α} (h : i < xs.length)
    {Q : α → α → Prop} (hf : ∀ a, xs[i]? = some a → Yields (f a) (Q a)) :
    Yields (updateAt xs i f) fun ys => ∃ a b, xs[i]? = some a ∧ Q a b ∧ ys = xs.set i b := by
  unfold updateAt
  refine (yields_getElem? h fun a ha => ha).bind fun a ha => ?_
  refine (hf a ha).bind fun b hb => ?_
  exact yields_some ⟨a, b, ha, hb, rfl⟩

theorem yields_insertAt {xs : List α} {i : ℕ} (a : α) (h : i ≤ xs.length) :
    Yields (insertAt xs i a) fun ys => ys = xs.insertIdx i a := by
  unfold insertAt
  rw [if_pos h]
  exact yields_some rfl

theorem yields_removeAt {xs : List α} {i : ℕ} (h : i < xs.length) :
    Yields (removeAt xs i) fun r => xs[i]? = some r.1 ∧ r.2 = xs.eraseIdx i := by
  unfold removeAt
  refine (yields_getElem? h fun a ha => ha).bind fun a ha => ?_
  exact yields_some ⟨ha, rfl⟩

end Tymux.Lib
