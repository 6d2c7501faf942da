import Mathlib.Data.List.AList

/-!
# Runs of a partial step function

A system is a step function `step : σ → ε → Option σ`, where `none` means that the event
cannot happen in that state. `run` takes a list of events in order. The rules below lift what
one step keeps to what a run keeps.
-/

set_option autoImplicit false

namespace Tymux.Lib

variable {σ ε : Type*} (step : σ → ε → Option σ)

/-- The state after the events, if each of them can happen in its turn. -/
def run (s : σ) : List ε → Option σ
  | [] => some s
  | e :: es => (step s e).bind fun s' => run s' es

@[simp] theorem run_nil (s : σ) : run step s [] = some s := rfl

@[simp] theorem run_cons (s : σ) (e : ε) (es : List ε) :
    run step s (e :: es) = (step s e).bind fun s' => run step s' es := rfl

theorem run_cons_of_step {s s' : σ} {e : ε} (h : step s e = some s') (es : List ε) :
    run step s (e :: es) = run step s' es := by
  rw [run_cons, h, Option.bind_some]

theorem run_append (s : σ) (es es' : List ε) :
    run step s (es ++ es') = (run step s es).bind fun s' => run step s' es' := by
  induction es generalizing s with
  | nil => rfl
  | cons e es ih =>
      rw [List.cons_append, run_cons, run_cons, Option.bind_assoc]
      apply Option.bind_congr
      intro s' _
      exact ih s'

variable {step}

/-- **The invariant rule.** What every admitted step keeps, every run of admitted events
keeps. -/
theorem run_invariant (I : σ → Prop) (admitted : ε → Prop)
    (hstep : ∀ s e s', admitted e → I s → step s e = some s' → I s')
    {s s' : σ} {es : List ε} (hes : ∀ e ∈ es, admitted e) (hs : I s)
    (hrun : run step s es = some s') : I s' := by
  induction es generalizing s with
  | nil =>
      rw [run_nil, Option.some_inj] at hrun
      exact hrun ▸ hs
  | cons e es ih =>
      rw [run_cons, Option.bind_eq_some_iff] at hrun
      obtain ⟨s₁, hs₁, hrest⟩ := hrun
      apply ih (fun e' he' => hes e' (List.mem_cons_of_mem _ he')) _ hrest
      exact hstep s e s₁ (hes e (List.mem_cons_self ..)) hs hs₁

/-- **The log rule.** Where a step adds at most one entry to a log, the run has passed through every
length of it. -/
theorem run_log {β : Type*} (log : σ → List β)
    (hstep : ∀ s e s', step s e = some s' → log s' = log s ∨ ∃ b, log s' = log s ++ [b])
    {s s' : σ} {es : List ε} (hrun : run step s es = some s') :
    log s <+: log s' ∧ ∀ l, log s <+: l → l <+: log s' →
      ∃ es' t, es' <+: es ∧ run step s es' = some t ∧ log t = l := by
  induction es generalizing s with
  | nil =>
      rw [run_nil, Option.some_inj] at hrun
      subst hrun
      refine ⟨List.prefix_refl _, fun l hl hl' => ⟨[], s, List.prefix_refl _, rfl, ?_⟩⟩
      exact hl.eq_of_length_le hl'.length_le
  | cons e es ih =>
      rw [run_cons, Option.bind_eq_some_iff] at hrun
      obtain ⟨s₁, hs₁, hrest⟩ := hrun
      obtain ⟨hgrown, hpassed⟩ := ih hrest
      have hgrows : log s <+: log s₁ := by
        obtain hsame | ⟨b, hb⟩ := hstep s e s₁ hs₁
        · exact hsame ▸ List.prefix_refl _
        · exact ⟨[b], hb.symm⟩
      refine ⟨hgrows.trans hgrown, fun l hl hl' => ?_⟩
      by_cases hlater : log s₁ <+: l
      · obtain ⟨es', t, hes', ht, hlog⟩ := hpassed l hlater hl'
        refine ⟨e :: es', t, List.cons_prefix_cons.mpr ⟨rfl, hes'⟩, ?_, hlog⟩
        rw [run_cons_of_step step hs₁]
        exact ht
      · refine ⟨[], s, List.nil_prefix, rfl, ?_⟩
        have hshort : l.length < (log s₁).length := by
          by_contra hlong
          exact hlater (List.prefix_of_prefix_length_le hgrown hl' (by omega))
        apply hl.eq_of_length_le
        obtain hsame | ⟨b, hb⟩ := hstep s e s₁ hs₁
        · rw [hsame] at hshort
          omega
        · rw [hb, List.length_append, List.length_singleton] at hshort
          omega

/-! ## Calls in progress -/

section Calls

variable {κ : Type*} [DecidableEq κ] {pc : Type*}

/-- The calls after a step of `c`, which goes on at `next` or returns. -/
def updateCall (calls : AList fun _ : κ => pc) (c : κ) : Option pc → AList fun _ : κ => pc
  | some next => calls.insert c next
  | none => calls.erase c

@[simp] theorem lookup_updateCall_self (calls : AList fun _ : κ => pc) (c : κ) (next : Option pc) :
    (updateCall calls c next).lookup c = next := by
  cases next with
  | none => exact AList.lookup_erase ..
  | some next => exact AList.lookup_insert _

theorem lookup_updateCall_of_ne {calls : AList fun _ : κ => pc} {c c' : κ} (h : c' ≠ c)
    (next : Option pc) : (updateCall calls c next).lookup c' = calls.lookup c' := by
  cases next with
  | none => exact AList.lookup_erase_ne h
  | some next => exact AList.lookup_insert_ne h

/-- What holds of every call after a step of `c`: what holds of the others, and of `c` where it
goes on. -/
theorem forall_updateCall {calls : AList fun _ : κ => pc} {c : κ} {next : Option pc}
    {P : κ → pc → Prop} (hothers : ∀ c' p, c' ≠ c → calls.lookup c' = some p → P c' p)
    (hnext : ∀ p, next = some p → P c p) :
    ∀ c' p, (updateCall calls c next).lookup c' = some p → P c' p := by
  intro c' p hp
  by_cases hc : c' = c
  · subst hc
    rw [lookup_updateCall_self] at hp
    exact hnext p hp
  · rw [lookup_updateCall_of_ne hc] at hp
    exact hothers c' p hc hp

end Calls

end Tymux.Lib
