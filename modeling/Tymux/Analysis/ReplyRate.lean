import Tymux.Model.RateLimit
import Tymux.Lib.Run
import Tymux.Lib.TokenBucket

/-!
# The rate of the replies

The tokens are a bucket that is asked by the offers that find the outbox open and no equal reply
pending. The others do not touch it, and neither do the drain threads. So within one generation the
replies that are accepted in a window of time are at most those that a full bucket grants in it.
-/

set_option autoImplicit false

namespace Tymux.Analysis

open Tymux.Lib Tymux.Model

/-- The replies in the queue are few and pairwise different. -/
def QueueSmall (s : OutboxState) : Prop :=
  s.queue.length ≤ maxPending ∧ (s.queue.map QueuedReply.bytes).Nodup

/-- The time of an offer. -/
def offeredAt : LimitedEvent → Option ℚ
  | .offer _ now => some now
  | _ => none

/-- The event starts no new generation. -/
def SameGeneration : LimitedEvent → Prop
  | .rearm _ _ => False
  | _ => True

/-- The reply is put into the queue. -/
def Accepts (s : LimitedOutbox) : LimitedEvent → Prop
  | .offer reply now => (s.offer reply now).box.accepted = s.box.accepted + 1
  | _ => False

instance (s : LimitedOutbox) (e : LimitedEvent) : Decidable (Accepts s e) :=
  match e with
  | .offer _ _ => inferInstanceAs (Decidable (_ = _))
  | .rearm _ _ | .startDrain _ _ _ _ | .close | .take _ | .write _ => inferInstanceAs (Decidable False)

/-- The times of the offers of a run that are accepted. -/
def acceptedAt (s : LimitedOutbox) : List LimitedEvent → List ℚ
  | [] => []
  | e :: events =>
    (if Accepts s e then (offeredAt e).toList else []) ++
      ((s.step e).map fun s' => acceptedAt s' events).getD []

/-! ## The queue -/

section

variable {s s' : OutboxState}

theorem QueueSmall.tail (h : QueueSmall s) {queue : List QueuedReply}
    (hqueue : queue.Sublist s.queue) (hs : s'.queue = queue) : QueueSmall s' := by
  unfold QueueSmall
  rw [hs]
  exact ⟨hqueue.length_le.trans h.1, h.2.sublist (hqueue.map _)⟩

/-- SRC: outbox.rs:62-80 -/
theorem QueueSmall.offer (h : QueueSmall s) (reply : List UInt8) (granted : Bool) :
    QueueSmall (s.offer reply granted) := by
  unfold OutboxState.offer
  split
  · exact h
  · rename_i hnew
    split
    · exact h
    · have hpending : ∀ r ∈ s.queue, r.bytes ≠ reply := by
        intro r hr heq
        exact hnew (Or.inr (List.any_eq_true.mpr ⟨r, hr, decide_eq_true heq⟩))
      have hkept : ∃ queue, queue.Sublist s.queue ∧ queue.length < maxPending ∧
          queue = if maxPending ≤ s.queue.length then s.queue.tail else s.queue := by
        have hlen := h.1
        by_cases hfull : maxPending ≤ s.queue.length
        · refine ⟨s.queue.tail, List.tail_sublist _, ?_, (if_pos hfull).symm⟩
          rw [List.length_tail]
          have hpos : 0 < maxPending := by decide
          omega
        · exact ⟨s.queue, List.Sublist.refl _, not_le.mp hfull, (if_neg hfull).symm⟩
      obtain ⟨queue, hsub, hroom, heq⟩ := hkept
      unfold QueueSmall
      dsimp only
      rw [← heq, List.length_append, List.map_append, List.length_singleton]
      refine ⟨hroom, ?_⟩
      rw [List.nodup_append]
      refine ⟨h.2.sublist (hsub.map _), List.nodup_singleton _, ?_⟩
      intro b hb b' hb'
      obtain ⟨r, hr, rfl⟩ := List.mem_map.mp hb
      rw [List.map_singleton, List.mem_singleton] at hb'
      rw [hb']
      exact hpending r (hsub.subset hr)

/-- Every other step leaves the queue, takes its first reply, or empties it. -/
theorem QueueSmall.step (h : QueueSmall s) {e : OutboxEvent} (hs : s.step e = some s') :
    QueueSmall s' := by
  cases e with
  | offer reply granted =>
      rw [← Option.some_inj.mp hs]
      exact h.offer reply granted
  | startDrain thread writer generation ok =>
      replace hs : s.startDrain thread writer generation ok = some s' := hs
      unfold OutboxState.startDrain at hs
      dsimp only at hs
      split_ifs at hs
      · rw [← Option.some_inj.mp hs]
        exact h
      · rw [← Option.some_inj.mp hs]
        exact h
  | rearm writer =>
      replace hs : s.rearm writer = some s' := hs
      unfold OutboxState.rearm at hs
      split_ifs at hs
      rw [← Option.some_inj.mp hs]
      exact ⟨Nat.zero_le _, List.nodup_nil⟩
  | close =>
      rw [← Option.some_inj.mp hs]
      exact h
  | take thread =>
      replace hs : s.take thread = some s' := hs
      unfold OutboxState.take at hs
      split at hs
      · split_ifs at hs
        · rw [← Option.some_inj.mp hs]
          exact h
        · split at hs
          · cases hs
          · rename_i reply queue hqueue
            rw [← Option.some_inj.mp hs]
            have hsub : queue.Sublist s.queue := by
              rw [hqueue]
              exact List.sublist_cons_self reply queue
            exact h.tail hsub rfl
      · cases hs
  | write thread =>
      replace hs : s.write thread = some s' := hs
      unfold OutboxState.write at hs
      split at hs
      · rw [← Option.some_inj.mp hs]
        exact h
      · cases hs

end

/-! ## The tokens -/

section

variable {s s' : LimitedOutbox} {events : List LimitedEvent}

theorem QueueSmall.limited (h : QueueSmall s.box) {e : LimitedEvent} (hs : s.step e = some s') :
    QueueSmall s'.box := by
  cases e with
  | offer reply now =>
      rw [← Option.some_inj.mp hs]
      unfold LimitedOutbox.offer
      dsimp only
      split_ifs
      · exact h
      · exact h.offer reply false
      · exact h.offer reply true
  | rearm writer now =>
      obtain ⟨box, hbox, rfl⟩ := Option.map_eq_some_iff.mp hs
      exact h.step (e := .rearm writer) hbox
  | startDrain thread writer generation ok =>
      obtain ⟨box, hbox, rfl⟩ := Option.map_eq_some_iff.mp hs
      exact h.step (e := .startDrain thread writer generation ok) hbox
  | close =>
      rw [← Option.some_inj.mp hs]
      exact h
  | take thread =>
      obtain ⟨box, hbox, rfl⟩ := Option.map_eq_some_iff.mp hs
      exact h.step (e := .take thread) hbox
  | write thread =>
      obtain ⟨box, hbox, rfl⟩ := Option.map_eq_some_iff.mp hs
      exact h.step (e := .write thread) hbox

def bucketOf (s : LimitedOutbox) : Bucket ℚ := ⟨s.tokens, s.last⟩

/-- An offer that nothing absorbs asks the bucket, and is accepted if a token is granted.
SRC: outbox.rs:62-80 -/
theorem bucketOf_offer {reply : List UInt8} (now : ℚ)
    (hnew : ¬ (s.box.closed ∨ s.box.queue.any fun r => r.bytes = reply)) :
    bucketOf (s.offer reply now) = ((bucketOf s).ask rateBurst rateRefillPerSec now).1 ∧
      (Accepts s (.offer reply now) ↔
        ((bucketOf s).ask rateBurst rateRefillPerSec now).2 = true) := by
  have haccepted : ∀ granted, (s.box.offer reply granted).accepted =
      if granted then s.box.accepted + 1 else s.box.accepted := by
    intro granted
    unfold OutboxState.offer
    rw [if_neg hnew]
    cases granted <;> rfl
  unfold Accepts LimitedOutbox.offer Bucket.ask
  dsimp only
  rw [if_neg hnew]
  change bucketOf (if min (s.tokens + max (now - s.last) 0 * rateRefillPerSec) rateBurst < 1 then _
    else _) = (if min (s.tokens + max (now - s.last) 0 * rateRefillPerSec) rateBurst < 1 then _
    else _ : Bucket ℚ × Bool).1 ∧ (_ ↔
      (if min (s.tokens + max (now - s.last) 0 * rateRefillPerSec) rateBurst < 1 then _
        else _ : Bucket ℚ × Bool).2 = true)
  split_ifs with hfew
  · refine ⟨rfl, ?_⟩
    rw [haccepted]
    simp
  · refine ⟨rfl, ?_⟩
    rw [haccepted]
    simp

/-- The other steps of a generation do not touch the bucket. -/
theorem bucketOf_step {e : LimitedEvent} (hgeneration : SameGeneration e) (hoffer : offeredAt e = none)
    (hs : s.step e = some s') : bucketOf s' = bucketOf s := by
  cases e with
  | offer reply now => cases hoffer
  | rearm writer now => exact hgeneration.elim
  | close =>
      rw [← Option.some_inj.mp hs]
      rfl
  | startDrain thread writer generation ok =>
      obtain ⟨box, -, rfl⟩ := Option.map_eq_some_iff.mp hs
      rfl
  | take thread =>
      obtain ⟨box, -, rfl⟩ := Option.map_eq_some_iff.mp hs
      rfl
  | write thread =>
      obtain ⟨box, -, rfl⟩ := Option.map_eq_some_iff.mp hs
      rfl

/-- INTERNAL: What a run accepts is what the bucket grants to those of its offers that nothing
absorbs. -/
theorem acceptedAt_eq_granted (hgeneration : ∀ e ∈ events, SameGeneration e)
    (hrun : run LimitedOutbox.step s events = some s') :
    ∃ times, times.Sublist (events.filterMap offeredAt) ∧
      acceptedAt s events = (bucketOf s).granted rateBurst rateRefillPerSec times := by
  induction events generalizing s with
  | nil => exact ⟨[], List.Sublist.refl _, rfl⟩
  | cons e events ih =>
      obtain ⟨s₁, hs₁, hrest⟩ := Option.bind_eq_some_iff.mp hrun
      obtain ⟨times, hsub, htimes⟩ := ih (fun e he => hgeneration e (List.mem_cons_of_mem _ he)) hrest
      unfold acceptedAt
      rw [hs₁, Option.map_some, Option.getD_some, htimes]
      cases hoffer : offeredAt e with
      | none =>
          have hnot : ¬ Accepts s e := by
            cases e with
            | offer reply now => cases hoffer
            | _ => exact id
          rw [if_neg hnot, List.nil_append, List.filterMap_cons_none hoffer,
            bucketOf_step (hgeneration e List.mem_cons_self) hoffer hs₁]
          exact ⟨times, hsub, rfl⟩
      | some now =>
          rw [List.filterMap_cons_some hoffer]
          cases e with
          | offer reply now' =>
              obtain rfl : now' = now := Option.some_inj.mp hoffer
              have hs₁' : s.offer reply now' = s₁ := Option.some_inj.mp hs₁
              by_cases hnew : s.box.closed ∨ s.box.queue.any fun r => r.bytes = reply
              · -- a closed outbox, or an equal reply that is pending
                have hsame : s.offer reply now' = s := if_pos hnew
                have hnot : ¬ Accepts s (.offer reply now') := by
                  show ¬ (s.offer reply now').box.accepted = s.box.accepted + 1
                  rw [hsame]
                  exact (Nat.succ_ne_self _).symm
                rw [if_neg hnot, List.nil_append, ← hs₁', hsame]
                exact ⟨times, hsub.cons now', rfl⟩
              · obtain ⟨hbucket, haccepts⟩ := bucketOf_offer now' hnew
                refine ⟨now' :: times, hsub.cons_cons now', ?_⟩
                rw [← hs₁', hbucket, Bucket.granted]
                by_cases hgranted : Accepts s (.offer reply now')
                · rw [if_pos hgranted, if_pos (haccepts.mp hgranted)]
                  rfl
                · rw [if_neg hgranted, if_neg (fun h => hgranted (haccepts.mpr h))]
                  rfl
          | _ => cases hoffer

theorem tokens_nonneg {e : LimitedEvent} (h : 0 ≤ s.tokens) (hs : s.step e = some s') :
    0 ≤ s'.tokens := by
  cases e with
  | offer reply now =>
      rw [← Option.some_inj.mp hs]
      by_cases hnew : s.box.closed ∨ s.box.queue.any fun r => r.bytes = reply
      · have hsame : s.offer reply now = s := if_pos hnew
        rw [hsame]
        exact h
      · obtain ⟨hbucket, -⟩ := bucketOf_offer now hnew
        have hask := Bucket.ask_tokens (b := bucketOf s) (by decide : 0 ≤ rateBurst)
          (by decide : 0 ≤ rateRefillPerSec) h now
        obtain ⟨spent, -, hpos, -⟩ := hask
        rw [← hbucket] at hpos
        exact hpos
  | rearm writer now =>
      obtain ⟨box, -, rfl⟩ := Option.map_eq_some_iff.mp hs
      exact (by decide : 0 ≤ rateBurst)
  | close =>
      rw [← Option.some_inj.mp hs]
      exact h
  | startDrain thread writer generation ok =>
      obtain ⟨box, -, rfl⟩ := Option.map_eq_some_iff.mp hs
      exact h
  | take thread =>
      obtain ⟨box, -, rfl⟩ := Option.map_eq_some_iff.mp hs
      exact h
  | write thread =>
      obtain ⟨box, -, rfl⟩ := Option.map_eq_some_iff.mp hs
      exact h

end

/-- **The replies are limited.** In a run of one generation, with its offers in the order of time, at
most `16 + 8 * T` replies are accepted in any interval of `T` seconds. The queue is never longer than
it may be and holds no reply twice, and an offer that is pending changes nothing.
SRC: outbox.rs:61-97, outbox.rs:136-152 -/
theorem replies_limited {writer : ℕ} {t₀ : ℚ} {before events : List LimitedEvent}
    {s s' : LimitedOutbox}
    (hbefore : run LimitedOutbox.step (LimitedOutbox.new writer t₀) before = some s)
    (hrun : run LimitedOutbox.step s events = some s') (hgeneration : ∀ e ∈ events, SameGeneration e)
    (htime : (events.filterMap offeredAt).Pairwise (· ≤ ·)) :
    (∀ a T : ℚ, 0 ≤ T →
      (((acceptedAt s events).filter fun t => a ≤ t ∧ t ≤ a + T).length : ℚ) ≤ 16 + 8 * T) ∧
    s'.box.queue.length ≤ maxPending ∧ (s'.box.queue.map QueuedReply.bytes).Nodup ∧
    ∀ reply now, reply ∈ s'.box.queue.map QueuedReply.bytes →
      (s'.offer reply now).tokens = s'.tokens ∧ (s'.offer reply now).box.queue = s'.box.queue := by
  have hstart : QueueSmall (LimitedOutbox.new writer t₀).box ∧
      0 ≤ (LimitedOutbox.new writer t₀).tokens :=
    ⟨⟨Nat.zero_le _, List.nodup_nil⟩, (by decide : 0 ≤ rateBurst)⟩
  have hstep : ∀ (s : LimitedOutbox) e s', True → QueueSmall s.box ∧ 0 ≤ s.tokens →
      s.step e = some s' → QueueSmall s'.box ∧ 0 ≤ s'.tokens :=
    fun s e s' _ h hs => ⟨h.1.limited hs, tokens_nonneg h.2 hs⟩
  have hs := run_invariant _ _ hstep (fun _ _ => trivial) hstart hbefore
  have hs' := run_invariant _ _ hstep (fun _ _ => trivial) hs hrun
  refine ⟨fun a T hT => ?_, hs'.1.1, hs'.1.2, fun reply now hpending => ?_⟩
  · obtain ⟨times, hsub, haccepted⟩ := acceptedAt_eq_granted hgeneration hrun
    rw [haccepted]
    exact Bucket.granted_window (b := bucketOf s) (by decide : 0 ≤ rateBurst)
      (by decide : 0 ≤ rateRefillPerSec) hs.2 (htime.sublist hsub) a hT
  · obtain ⟨r, hr, rfl⟩ := List.mem_map.mp hpending
    have hsame : s'.offer r.bytes now = s' :=
      if_pos (Or.inr (List.any_eq_true.mpr ⟨r, hr, decide_eq_true rfl⟩))
    rw [hsame]
    exact ⟨rfl, rfl⟩

/-- Two equal offers at once, of which the second is absorbed, and a third one when the first has been
taken. -/
theorem replies_limited_absorbed : ∃ s s',
    run LimitedOutbox.step (LimitedOutbox.new 0 0) [.offer [1] 0] = some s ∧
    run LimitedOutbox.step s [.startDrain 7 0 0 true, .offer [1] 0, .take 7, .offer [1] 1] = some s' ∧
    ((((acceptedAt s [.startDrain 7 0 0 true, .offer [1] 0, .take 7, .offer [1] 1]).filter
        fun t => (0 : ℚ) ≤ t ∧ t ≤ 0 + 1).length : ℚ) ≤ 16 + 8 * 1) ∧
    s'.box.queue.length ≤ maxPending := by
  have hbefore : (run LimitedOutbox.step (LimitedOutbox.new 0 0) [.offer [1] 0]).isSome = true := by
    decide +kernel
  have hrun : ((run LimitedOutbox.step (LimitedOutbox.new 0 0) [.offer [1] 0]).bind fun s =>
      run LimitedOutbox.step s
        [.startDrain 7 0 0 true, .offer [1] 0, .take 7, .offer [1] 1]).isSome = true := by
    decide +kernel
  obtain ⟨s, hs⟩ := Option.isSome_iff_exists.mp hbefore
  rw [hs] at hrun
  obtain ⟨s', hs'⟩ := Option.isSome_iff_exists.mp hrun
  replace hs' : run LimitedOutbox.step s
      [.startDrain 7 0 0 true, .offer [1] 0, .take 7, .offer [1] 1] = some s' := hs'
  have hgeneration : ∀ e ∈ [LimitedEvent.startDrain 7 0 0 true, .offer [1] 0, .take 7, .offer [1] 1],
      SameGeneration e := by
    simp [SameGeneration]
  have htime : ([LimitedEvent.startDrain 7 0 0 true, .offer [1] 0, .take 7,
      .offer [1] 1].filterMap offeredAt).Pairwise (· ≤ ·) :=
    List.pairwise_pair.mpr zero_le_one
  obtain ⟨hrate, hlen, -⟩ := replies_limited hs hs' hgeneration htime
  exact ⟨s, s', hs, hs', hrate 0 1 (by decide), hlen⟩

end Tymux.Analysis
