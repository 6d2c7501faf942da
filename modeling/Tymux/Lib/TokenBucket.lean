import Mathlib.Algebra.Order.Field.Basic
import Mathlib.Tactic.Linarith
import Mathlib.Tactic.Ring

/-!
# Token buckets

A bucket holds at most `burst` tokens, is filled at `rate` while time passes, and gives one token to
each request that finds one. It is filled only when it is asked. Over any window of time the number
of requests that are granted is at most `burst` and what the rate gives in the length of the window.
-/

set_option autoImplicit false

namespace Tymux.Lib

structure Bucket (K : Type*) where
  tokens : K
  last : K

namespace Bucket

variable {K : Type*} [Field K] [LinearOrder K] (burst rate : K)

/-- The tokens for the time since the bucket was asked last. -/
def refill (b : Bucket K) (now : K) : Bucket K where
  tokens := min (b.tokens + max (now - b.last) 0 * rate) burst
  last := now

/-- One token is asked for, and granted if there is one. -/
def ask (b : Bucket K) (now : K) : Bucket K × Bool :=
  let b := b.refill burst rate now
  if b.tokens < 1 then (b, false) else ({ b with tokens := b.tokens - 1 }, true)

/-- The times of the requests that are granted. -/
def granted (b : Bucket K) : List K → List K
  | [] => []
  | now :: times =>
    if (b.ask burst rate now).2 then now :: granted (b.ask burst rate now).1 times
    else granted (b.ask burst rate now).1 times

variable {burst rate} {b : Bucket K}

theorem ask_last (now : K) : (b.ask burst rate now).1.last = now := by
  unfold ask
  dsimp only
  split_ifs <;> rfl

theorem granted_subset (times : List K) : ∀ t ∈ b.granted burst rate times, t ∈ times := by
  induction times generalizing b with
  | nil => exact fun t ht => ht
  | cons now times ih =>
      intro t ht
      unfold granted at ht
      split_ifs at ht
      · rcases List.mem_cons.mp ht with rfl | ht
        · exact List.mem_cons_self
        · exact List.mem_cons_of_mem _ (ih t ht)
      · exact List.mem_cons_of_mem _ (ih t ht)

/-- A request that is granted is counted, and the tokens go down with it. -/
theorem length_filter_granted {p : K → Bool} {now : K} (times : List K) {spent : K}
    (hspent : spent = if (b.ask burst rate now).2 then 1 else 0) (hp : p now = true) :
    (((b.granted burst rate (now :: times)).filter p).length : K) =
      spent + (((b.ask burst rate now).1.granted burst rate times).filter p).length := by
  rw [granted, hspent]
  split_ifs
  · rw [List.filter_cons_of_pos hp, List.length_cons, Nat.cast_add, Nat.cast_one, add_comm]
  · rw [zero_add]

variable [IsStrictOrderedRing K]

/-- What a request leaves and takes is there beforehand, or has come in with the time. -/
theorem ask_tokens (hburst : 0 ≤ burst) (hrate : 0 ≤ rate) (htokens : 0 ≤ b.tokens) (now : K) :
    ∃ spent : K, (spent = if (b.ask burst rate now).2 then 1 else 0) ∧
      0 ≤ (b.ask burst rate now).1.tokens ∧
      (b.ask burst rate now).1.tokens + spent ≤ burst ∧
      (b.ask burst rate now).1.tokens + spent ≤ b.tokens + max (now - b.last) 0 * rate := by
  have hfull : (b.refill burst rate now).tokens ≤ burst := min_le_right _ _
  have hflow : (b.refill burst rate now).tokens ≤ b.tokens + max (now - b.last) 0 * rate :=
    min_le_left _ _
  have hpos : 0 ≤ (b.refill burst rate now).tokens := by
    have hadded : 0 ≤ max (now - b.last) 0 * rate := mul_nonneg (le_max_right _ _) hrate
    exact le_min (by linarith) hburst
  by_cases hfew : (b.refill burst rate now).tokens < 1
  · have hask : b.ask burst rate now = (b.refill burst rate now, false) := if_pos hfew
    rw [hask]
    refine ⟨0, rfl, hpos, ?_, ?_⟩
    · rw [add_zero]
      exact hfull
    · rw [add_zero]
      exact hflow
  · have hask : b.ask burst rate now =
        ({ b.refill burst rate now with tokens := (b.refill burst rate now).tokens - 1 }, true) :=
      if_neg hfew
    rw [hask]
    refine ⟨1, rfl, ?_, ?_, ?_⟩
    · exact sub_nonneg.mpr (not_lt.mp hfew)
    · rw [sub_add_cancel]
      exact hfull
    · rw [sub_add_cancel]
      exact hflow

/-- Up to a deadline no more is granted than there are tokens, and than come in until then. -/
theorem granted_until (hburst : 0 ≤ burst) (hrate : 0 ≤ rate) (htokens : 0 ≤ b.tokens)
    {times : List K} (hsorted : times.Pairwise (· ≤ ·)) (hlast : ∀ t ∈ times, b.last ≤ t)
    (p : K → Bool) (deadline : K) (hle : b.last ≤ deadline)
    (hp : ∀ t ∈ times, p t = decide (t ≤ deadline)) :
    (((b.granted burst rate times).filter p).length : K) ≤
      b.tokens + (deadline - b.last) * rate := by
  have hflow : 0 ≤ (deadline - b.last) * rate := mul_nonneg (sub_nonneg.mpr hle) hrate
  induction times generalizing b with
  | nil =>
      rw [granted, List.filter_nil, List.length_nil, Nat.cast_zero]
      exact add_nonneg htokens hflow
  | cons now times ih =>
      obtain ⟨hnow, hsorted⟩ := List.pairwise_cons.mp hsorted
      by_cases hbefore : now ≤ deadline
      · obtain ⟨spent, hspent, hpos, -, hleft⟩ := ask_tokens hburst hrate htokens now
        have hcount : p now = true := (hp now List.mem_cons_self).trans (decide_eq_true hbefore)
        have hrest := ih (b := (b.ask burst rate now).1) hpos hsorted
          (by rw [ask_last]; exact hnow) (by rw [ask_last]; exact hbefore)
          (fun t ht => hp t (List.mem_cons_of_mem _ ht))
          (by rw [ask_last]; exact mul_nonneg (sub_nonneg.mpr hbefore) hrate)
        rw [ask_last] at hrest
        rw [max_eq_left (sub_nonneg.mpr (hlast now List.mem_cons_self))] at hleft
        rw [length_filter_granted times hspent hcount]
        calc spent + (((b.ask burst rate now).1.granted burst rate times).filter p).length
            ≤ (b.ask burst rate now).1.tokens + spent + (deadline - now) * rate := by linarith
          _ ≤ b.tokens + (now - b.last) * rate + (deadline - now) * rate := by linarith
          _ = b.tokens + (deadline - b.last) * rate := by ring
      · -- the request is too late, and so are all after it
        have hnone : (b.granted burst rate (now :: times)).filter p = [] := by
          rw [List.filter_eq_nil_iff]
          intro t ht
          have hmem := granted_subset _ t ht
          have hlate : ¬ t ≤ deadline := by
            rcases List.mem_cons.mp hmem with rfl | hmem
            · exact hbefore
            · exact fun hle => hbefore ((hnow t hmem).trans hle)
          rw [hp t hmem, decide_eq_false hlate]
          exact Bool.false_ne_true
        rw [hnone, List.length_nil, Nat.cast_zero]
        exact add_nonneg htokens hflow

/-- **Over any window** no more is granted than a full bucket holds and what comes in meanwhile. -/
theorem granted_window (hburst : 0 ≤ burst) (hrate : 0 ≤ rate) (htokens : 0 ≤ b.tokens)
    {times : List K} (hsorted : times.Pairwise (· ≤ ·)) (a : K) {T : K} (hT : 0 ≤ T) :
    (((b.granted burst rate times).filter fun t => a ≤ t ∧ t ≤ a + T).length : K) ≤
      burst + rate * T := by
  have hbound : 0 ≤ burst + rate * T := add_nonneg hburst (mul_nonneg hrate hT)
  induction times generalizing b with
  | nil =>
      rw [granted, List.filter_nil, List.length_nil, Nat.cast_zero]
      exact hbound
  | cons now times ih =>
      obtain ⟨hnow, hsorted⟩ := List.pairwise_cons.mp hsorted
      obtain ⟨spent, hspent, hpos, hfull, -⟩ := ask_tokens hburst hrate htokens now
      have hskip : ¬ (a ≤ now ∧ now ≤ a + T) →
          (b.granted burst rate (now :: times)).filter (fun t => a ≤ t ∧ t ≤ a + T) =
            ((b.ask burst rate now).1.granted burst rate times).filter
              fun t => a ≤ t ∧ t ≤ a + T := by
        intro hout
        rw [granted]
        split_ifs
        · exact List.filter_cons_of_neg (by simpa using hout)
        · rfl
      by_cases hin : a ≤ now ∧ now ≤ a + T
      · have hrest := granted_until hburst hrate hpos hsorted (by rw [ask_last]; exact hnow)
          (fun t => decide (a ≤ t ∧ t ≤ a + T)) (a + T)
          (by rw [ask_last]; exact hin.2)
          (fun t ht => decide_eq_decide.mpr (and_iff_right (hin.1.trans (hnow t ht))))
        rw [ask_last] at hrest
        have hshort : (a + T - now) * rate ≤ rate * T := by
          rw [mul_comm rate T]
          exact mul_le_mul_of_nonneg_right (by linarith [hin.1]) hrate
        rw [length_filter_granted times hspent (decide_eq_true hin)]
        linarith
      · rw [hskip hin]
        exact ih hpos hsorted

end Bucket

end Tymux.Lib
