import Tymux.Model.Outbox
import Tymux.Lib.Run

/-!
# Replies stay with the process they were meant for

Whoever has the writer of the current generation is the only one that may take replies, and
everything in the queue was offered since that writer was installed (`OutboxInv`). A thread of an
older generation can still be blocked in a write, but the reply it writes was taken before. From this
follow the four parts of `replies_keep_generation`: a reply is written by the writer it was offered
under, at most once, in the order of acceptance, and nothing is taken between `close` and `rearm`.
-/

set_option autoImplicit false

namespace Tymux.Analysis

open Tymux.Lib Tymux.Model OutboxState

/-- The writer of the last `new` or `rearm`. -/
def latest (s : OutboxState) : ℕ := s.installed.headD 0

/-- The queue holds replies for the writer installed last, newer than all that were taken. -/
structure QueueInv (s : OutboxState) : Prop where
  under : ∀ r ∈ s.queue, r.under = latest s
  order : s.queue.Pairwise fun a b => a.number < b.number
  counted : ∀ r ∈ s.queue, r.number < s.accepted
  after_writes : ∀ e ∈ s.writes, ∀ r ∈ s.queue, e.2.number < r.number
  after_writing : ∀ (t : ℕ) (d : Drain) (w : QueuedReply), s.drains.lookup t = some d →
    d.writing = some w → ∀ r ∈ s.queue, w.number < r.number

/-- Every writer is in one place, and the one of the current generation is the last installed. -/
structure OwnerInv (s : OutboxState) : Prop where
  nonempty : s.installed ≠ []
  writer : ∀ w, s.writer = some w → w = latest s ∧ (∀ e ∈ s.starting, e.1 ≠ w) ∧
    ∀ (t : ℕ) (d : Drain), s.drains.lookup t = some d → d.writer ≠ w
  starting : ∀ e ∈ s.starting, e.1 ∈ s.installed ∧ e.2 ≤ s.generation ∧
    (e.2 = s.generation → e.1 = latest s) ∧
    ∀ (t : ℕ) (d : Drain), s.drains.lookup t = some d → d.writer ≠ e.1
  starting_nodup : (s.starting.map Prod.fst).Nodup
  drain : ∀ (t : ℕ) (d : Drain), s.drains.lookup t = some d → d.writer ∈ s.installed ∧
    d.generation ≤ s.generation ∧ (d.generation = s.generation → d.writer = latest s)
  drains : ∀ (t t' : ℕ) (d d' : Drain), s.drains.lookup t = some d → s.drains.lookup t' = some d' →
    d.writer = d'.writer → t = t'

/-- What is being written, and what was written. -/
structure WriteInv (s : OutboxState) : Prop where
  writing : ∀ (t : ℕ) (d : Drain) (r : QueuedReply), s.drains.lookup t = some d →
    d.writing = some r → r.under = d.writer ∧ r.number < s.accepted ∧
      ∀ e ∈ s.writes, (e.1 = d.writer → e.2.number < r.number) ∧ e.2.number ≠ r.number
  apart : ∀ (t t' : ℕ) (d d' : Drain) (r r' : QueuedReply), s.drains.lookup t = some d →
    s.drains.lookup t' = some d' → d.writing = some r → d'.writing = some r' →
    r.number = r'.number → t = t'
  written : ∀ e ∈ s.writes, e.2.under = e.1 ∧ e.2.number < s.accepted
  order : s.writes.Pairwise fun a b => a.1 = b.1 → a.2.number < b.2.number
  once : (s.writes.map fun e => e.2.number).Nodup

structure OutboxInv (s : OutboxState) : Prop where
  queue : QueueInv s
  owner : OwnerInv s
  write : WriteInv s

section

variable {s s' : OutboxState}

theorem outboxInv_new (writer : ℕ) : OutboxInv (OutboxState.new writer) := by
  refine ⟨⟨?_, ?_, ?_, ?_, ?_⟩, ⟨?_, ?_, ?_, ?_, ?_, ?_⟩, ⟨?_, ?_, ?_, ?_, ?_⟩⟩ <;>
    simp [OutboxState.new, latest]

/-- INTERNAL: an accepted reply is newer than all others.
SRC: outbox.rs:62-95 -/
theorem OutboxInv.offer (h : OutboxInv s) (reply : List UInt8) (granted : Bool) :
    OutboxInv (s.offer reply granted) := by
  unfold OutboxState.offer
  split
  · exact h
  split
  · exact h
  dsimp only
  have hkept : ∀ r ∈ (if maxPending ≤ s.queue.length then s.queue.tail else s.queue), r ∈ s.queue := by
    intro r hr
    split at hr
    · exact List.mem_of_mem_tail hr
    · exact hr
  have horder : (if maxPending ≤ s.queue.length then s.queue.tail else s.queue).Pairwise
      fun a b => a.number < b.number := by
    split
    · exact h.queue.order.tail
    · exact h.queue.order
  generalize (if maxPending ≤ s.queue.length then s.queue.tail else s.queue) = kept at *
  refine ⟨⟨?_, ?_, ?_, ?_, ?_⟩, ⟨h.owner.nonempty, ?_, ?_, ?_, h.owner.drain, h.owner.drains⟩,
    ⟨?_, h.write.apart, ?_, h.write.order, h.write.once⟩⟩
  · rw [List.forall_mem_append, List.forall_mem_singleton]
    exact ⟨fun r hr => h.queue.under r (hkept r hr), rfl⟩
  · rw [List.pairwise_append]
    refine ⟨horder, List.pairwise_singleton _ _, fun a ha b hb => ?_⟩
    rw [List.mem_singleton.mp hb]
    exact h.queue.counted a (hkept a ha)
  · rw [List.forall_mem_append, List.forall_mem_singleton]
    exact ⟨fun r hr => Nat.lt_succ_of_lt (h.queue.counted r (hkept r hr)),
      Nat.lt_succ_self _⟩
  · intro e he
    rw [List.forall_mem_append, List.forall_mem_singleton]
    exact ⟨fun r hr => h.queue.after_writes e he r (hkept r hr), (h.write.written e he).2⟩
  · intro t d w ht hw
    rw [List.forall_mem_append, List.forall_mem_singleton]
    exact ⟨fun r hr => h.queue.after_writing t d w ht hw r (hkept r hr),
      (h.write.writing t d w ht hw).2.1⟩
  · exact fun w hw => absurd hw (Option.some_ne_none w).symm
  · cases hwriter : s.writer with
    | none => exact h.owner.starting
    | some writer =>
        obtain ⟨hlatest, hstarting, hdrains⟩ := h.owner.writer writer hwriter
        dsimp only
        rw [List.forall_mem_append, List.forall_mem_singleton]
        refine ⟨h.owner.starting, ?_, le_refl _, fun _ => hlatest, hdrains⟩
        dsimp only
        rw [hlatest]
        unfold latest
        cases hinstalled : s.installed with
        | nil => exact absurd hinstalled h.owner.nonempty
        | cons w ws => exact List.mem_cons_self
  · cases hwriter : s.writer with
    | none => exact h.owner.starting_nodup
    | some writer =>
        obtain ⟨-, hstarting, -⟩ := h.owner.writer writer hwriter
        dsimp only
        rw [List.map_append, List.nodup_append]
        refine ⟨h.owner.starting_nodup, List.nodup_singleton _, ?_⟩
        intro w hw w' hw'
        obtain ⟨e, he, rfl⟩ := List.mem_map.mp hw
        rw [List.map_singleton, List.mem_singleton] at hw'
        rw [hw']
        exact hstarting e he
  · intro t d r ht hr
    obtain ⟨hunder, hlt, hwrites⟩ := h.write.writing t d r ht hr
    exact ⟨hunder, Nat.lt_succ_of_lt hlt, hwrites⟩
  · intro e he
    obtain ⟨hunder, hlt⟩ := h.write.written e he
    exact ⟨hunder, Nat.lt_succ_of_lt hlt⟩

/-- SRC: outbox.rs:112-115 -/
theorem OutboxInv.close (h : OutboxInv s) : OutboxInv s.close :=
  ⟨{ h.queue with }, { h.owner with }, { h.write with }⟩

theorem lookup_insert_cases {drains : AList fun _ : ℕ => Drain} {t t' : ℕ} {d d' : Drain}
    (h : (drains.insert t d).lookup t' = some d') :
    (t' = t ∧ d' = d) ∨ (t' ≠ t ∧ drains.lookup t' = some d') := by
  by_cases heq : t' = t
  · rw [heq, AList.lookup_insert, Option.some_inj] at h
    exact Or.inl ⟨heq, h.symm⟩
  · rw [AList.lookup_insert_ne heq] at h
    exact Or.inr ⟨heq, h⟩

/-- SRC: outbox.rs:81-93 -/
theorem OutboxInv.startDrain (h : OutboxInv s) {thread writer generation : ℕ} {ok : Bool}
    (hstep : s.startDrain thread writer generation ok = some s') : OutboxInv s' := by
  unfold OutboxState.startDrain at hstep
  split at hstep
  case isFalse => cases hstep
  case isTrue hguard =>
    obtain ⟨hmem, hfresh⟩ := hguard
    obtain ⟨hinstalled, hle, hlatest, hapart⟩ := h.owner.starting _ hmem
    have hrest : ∀ e ∈ s.starting.erase (writer, generation), e ∈ s.starting ∧ e.1 ≠ writer := by
      intro e he
      have hnodup : s.starting.Nodup := h.owner.starting_nodup.of_map
      obtain ⟨hne, hin⟩ := (List.Nodup.mem_erase_iff hnodup).mp he
      refine ⟨hin, fun heq => hne ?_⟩
      exact List.inj_on_of_nodup_map h.owner.starting_nodup hin hmem heq
    have hnodup : ((s.starting.erase (writer, generation)).map Prod.fst).Nodup :=
      h.owner.starting_nodup.sublist (List.Sublist.map _ List.erase_sublist)
    dsimp only at hstep
    split at hstep
    · rw [Option.some_inj] at hstep
      subst hstep
      refine ⟨⟨h.queue.under, h.queue.order, h.queue.counted, h.queue.after_writes, ?_⟩,
        ⟨h.owner.nonempty, ?_, ?_, hnodup, ?_, ?_⟩,
        ⟨?_, ?_, h.write.written, h.write.order, h.write.once⟩⟩
      · intro t d w ht hw
        rcases lookup_insert_cases ht with ⟨-, rfl⟩ | ⟨-, hold⟩
        · cases hw
        · exact h.queue.after_writing t d w hold hw
      · intro w hw
        obtain ⟨hw₁, hw₂, hw₃⟩ := h.owner.writer w hw
        refine ⟨hw₁, fun e he => hw₂ e (hrest e he).1, fun t d ht => ?_⟩
        rcases lookup_insert_cases ht with ⟨-, rfl⟩ | ⟨-, hold⟩
        · exact hw₂ _ hmem
        · exact hw₃ t d hold
      · intro e he
        obtain ⟨hin, hne⟩ := hrest e he
        obtain ⟨he₁, he₂, he₃, he₄⟩ := h.owner.starting e hin
        refine ⟨he₁, he₂, he₃, fun t d ht => ?_⟩
        rcases lookup_insert_cases ht with ⟨-, rfl⟩ | ⟨-, hold⟩
        · exact hne.symm
        · exact he₄ t d hold
      · intro t d ht
        rcases lookup_insert_cases ht with ⟨-, rfl⟩ | ⟨-, hold⟩
        · exact ⟨hinstalled, hle, hlatest⟩
        · exact h.owner.drain t d hold
      · intro t t' d d' ht ht' heq
        rcases lookup_insert_cases ht with ⟨rfl, rfl⟩ | ⟨-, hold⟩
        · rcases lookup_insert_cases ht' with ⟨rfl, -⟩ | ⟨-, hold'⟩
          · rfl
          · exact absurd heq.symm (hapart t' d' hold')
        · rcases lookup_insert_cases ht' with ⟨rfl, rfl⟩ | ⟨-, hold'⟩
          · exact absurd heq (hapart t d hold)
          · exact h.owner.drains t t' d d' hold hold' heq
      · intro t d r ht hr
        rcases lookup_insert_cases ht with ⟨-, rfl⟩ | ⟨-, hold⟩
        · cases hr
        · exact h.write.writing t d r hold hr
      · intro t t' d d' r r' ht ht' hr hr'
        rcases lookup_insert_cases ht with ⟨-, rfl⟩ | ⟨-, hold⟩
        · cases hr
        · rcases lookup_insert_cases ht' with ⟨-, rfl⟩ | ⟨-, hold'⟩
          · cases hr'
          · exact h.write.apart t t' d d' r r' hold hold' hr hr'
    · rw [Option.some_inj] at hstep
      subst hstep
      refine ⟨{ h.queue with }, { h.owner with writer := ?_, starting := ?_, starting_nodup := hnodup },
        { h.write with }⟩
      · intro w hw
        obtain ⟨hw₁, hw₂, hw₃⟩ := h.owner.writer w hw
        exact ⟨hw₁, fun e he => hw₂ e (hrest e he).1, hw₃⟩
      · exact fun e he => h.owner.starting e (hrest e he).1

/-- The writers of older generations keep what they have.
SRC: outbox.rs:100-110 -/
theorem OutboxInv.rearm (h : OutboxInv s) {writer : ℕ} (hstep : s.rearm writer = some s') :
    OutboxInv s' := by
  unfold OutboxState.rearm at hstep
  split at hstep
  case isTrue => cases hstep
  case isFalse hfresh =>
    rw [Option.some_inj] at hstep
    subst hstep
    have hlatest : ∀ w ∈ s.installed, w ≠ writer := fun w hw heq => hfresh (heq ▸ hw)
    refine ⟨⟨?_, ?_, ?_, ?_, ?_⟩, ⟨?_, ?_, ?_, h.owner.starting_nodup, ?_, h.owner.drains⟩,
      { h.write with }⟩
    · exact fun r hr => absurd hr List.not_mem_nil
    · exact List.Pairwise.nil
    · exact fun r hr => absurd hr List.not_mem_nil
    · exact fun e _ r hr => absurd hr List.not_mem_nil
    · exact fun t d w _ _ r hr => absurd hr List.not_mem_nil
    · exact List.cons_ne_nil _ _
    · intro w hw
      rw [Option.some_inj] at hw
      rw [← hw]
      refine ⟨rfl, fun e he => hlatest _ (h.owner.starting e he).1, fun t d ht => ?_⟩
      exact hlatest _ (h.owner.drain t d ht).1
    · intro e he
      obtain ⟨hmem, hle, -, hapart⟩ := h.owner.starting e he
      refine ⟨List.mem_cons_of_mem _ hmem, Nat.le_succ_of_le hle, fun heq => ?_, hapart⟩
      dsimp only at heq
      omega
    · intro t d ht
      obtain ⟨hmem, hle, -⟩ := h.owner.drain t d ht
      refine ⟨List.mem_cons_of_mem _ hmem, Nat.le_succ_of_le hle, fun heq => ?_⟩
      dsimp only at heq
      omega

/-- What is true of the owner of a writer stays true when its thread goes on. -/
theorem OwnerInv.goOn (h : OwnerInv s) {t : ℕ} {d : Drain} (ht : s.drains.lookup t = some d)
    (writing : Option QueuedReply) {drains : AList fun _ : ℕ => Drain}
    (hdrains : drains = s.drains.insert t { d with writing }) {queue : List QueuedReply}
    {taken writes : List (ℕ × QueuedReply)} :
    OwnerInv { s with drains, queue, taken, writes } := by
  have hback : ∀ (t' : ℕ) (d' : Drain), drains.lookup t' = some d' →
      ∃ d₀, s.drains.lookup t' = some d₀ ∧ d₀.writer = d'.writer ∧ d₀.generation = d'.generation := by
    intro t' d' hd'
    rw [hdrains] at hd'
    rcases lookup_insert_cases hd' with ⟨rfl, rfl⟩ | ⟨-, hold⟩
    · exact ⟨d, ht, rfl, rfl⟩
    · exact ⟨d', hold, rfl, rfl⟩
  refine ⟨h.nonempty, ?_, ?_, h.starting_nodup, ?_, ?_⟩
  · intro w hw
    obtain ⟨hlatest, hstarting, hapart⟩ := h.writer w hw
    refine ⟨hlatest, hstarting, fun t' d' hd' => ?_⟩
    obtain ⟨d₀, hd₀, hwriter, -⟩ := hback t' d' hd'
    rw [← hwriter]
    exact hapart t' d₀ hd₀
  · intro e he
    obtain ⟨hmem, hle, hlatest, hapart⟩ := h.starting e he
    refine ⟨hmem, hle, hlatest, fun t' d' hd' => ?_⟩
    obtain ⟨d₀, hd₀, hwriter, -⟩ := hback t' d' hd'
    rw [← hwriter]
    exact hapart t' d₀ hd₀
  · intro t' d' hd'
    obtain ⟨d₀, hd₀, hwriter, hgeneration⟩ := hback t' d' hd'
    rw [← hwriter, ← hgeneration]
    exact h.drain t' d₀ hd₀
  · intro t₁ t₂ d₁ d₂ hd₁ hd₂ heq
    obtain ⟨e₁, he₁, hw₁, -⟩ := hback t₁ d₁ hd₁
    obtain ⟨e₂, he₂, hw₂, -⟩ := hback t₂ d₂ hd₂
    exact h.drains t₁ t₂ e₁ e₂ he₁ he₂ (by rw [hw₁, hw₂, heq])

/-- A thread exits. -/
theorem OutboxInv.exit (h : OutboxInv s) (t : ℕ) :
    OutboxInv { s with drains := s.drains.erase t } := by
  have hback : ∀ (t' : ℕ) (d : Drain), (s.drains.erase t).lookup t' = some d →
      s.drains.lookup t' = some d := by
    intro t' d hd
    by_cases heq : t' = t
    · rw [heq, AList.lookup_erase] at hd
      cases hd
    · rw [AList.lookup_erase_ne heq] at hd
      exact hd
  refine ⟨{ h.queue with after_writing := ?_ }, ⟨h.owner.nonempty, ?_, ?_, h.owner.starting_nodup, ?_, ?_⟩,
    ⟨?_, ?_, h.write.written, h.write.order, h.write.once⟩⟩
  · exact fun t' d w hd => h.queue.after_writing t' d w (hback t' d hd)
  · intro w hw
    obtain ⟨hlatest, hstarting, hapart⟩ := h.owner.writer w hw
    exact ⟨hlatest, hstarting, fun t' d hd => hapart t' d (hback t' d hd)⟩
  · intro e he
    obtain ⟨hmem, hle, hlatest, hapart⟩ := h.owner.starting e he
    exact ⟨hmem, hle, hlatest, fun t' d hd => hapart t' d (hback t' d hd)⟩
  · exact fun t' d hd => h.owner.drain t' d (hback t' d hd)
  · exact fun t₁ t₂ d₁ d₂ h₁ h₂ => h.owner.drains t₁ t₂ d₁ d₂ (hback t₁ d₁ h₁) (hback t₂ d₂ h₂)
  · exact fun t' d r hd => h.write.writing t' d r (hback t' d hd)
  · exact fun t₁ t₂ d₁ d₂ r₁ r₂ h₁ h₂ =>
      h.write.apart t₁ t₂ d₁ d₂ r₁ r₂ (hback t₁ d₁ h₁) (hback t₂ d₂ h₂)

/-- INTERNAL: what is taken was offered under the writer of the thread, and is newer than all that
this writer has written.
SRC: outbox.rs:136-150 -/
theorem OutboxInv.take (h : OutboxInv s) {t : ℕ} (hstep : s.take t = some s') : OutboxInv s' := by
  unfold OutboxState.take at hstep
  split at hstep
  case h_2 => cases hstep
  case h_1 writer generation ht =>
    split at hstep
    · rw [Option.some_inj] at hstep
      subst hstep
      exact h.exit t
    · rename_i hopen
      rw [not_or, not_not] at hopen
      split at hstep
      · cases hstep
      · rename_i reply queue hqueue
        rw [Option.some_inj] at hstep
        subst hstep
        have hlatest : writer = latest s := (h.owner.drain t _ ht).2.2 hopen.2.symm
        have hmem : reply ∈ s.queue := by
          rw [hqueue]
          exact List.mem_cons_self
        have hrest : ∀ r ∈ queue, r ∈ s.queue ∧ reply.number < r.number := by
          intro r hr
          have horder := h.queue.order
          rw [hqueue, List.pairwise_cons] at horder
          rw [hqueue]
          exact ⟨List.mem_cons_of_mem _ hr, horder.1 r hr⟩
        have horder : queue.Pairwise fun a b => a.number < b.number := by
          have horder := h.queue.order
          rw [hqueue, List.pairwise_cons] at horder
          exact horder.2
        refine ⟨⟨?_, horder, ?_, ?_, ?_⟩, h.owner.goOn ht (some reply) rfl,
          ⟨?_, ?_, h.write.written, h.write.order, h.write.once⟩⟩
        · exact fun r hr => h.queue.under r (hrest r hr).1
        · exact fun r hr => h.queue.counted r (hrest r hr).1
        · exact fun e he r hr => h.queue.after_writes e he r (hrest r hr).1
        · intro t' d w hd hw r hr
          rcases lookup_insert_cases hd with ⟨-, rfl⟩ | ⟨-, hold⟩
          · rw [Option.some_inj] at hw
            rw [← hw]
            exact (hrest r hr).2
          · exact h.queue.after_writing t' d w hold hw r (hrest r hr).1
        · intro t' d r hd hr
          rcases lookup_insert_cases hd with ⟨-, rfl⟩ | ⟨-, hold⟩
          · rw [Option.some_inj] at hr
            rw [← hr]
            refine ⟨(h.queue.under reply hmem).trans hlatest.symm, h.queue.counted reply hmem, ?_⟩
            intro e he
            have hlt := h.queue.after_writes e he reply hmem
            exact ⟨fun _ => hlt, Nat.ne_of_lt hlt⟩
          · exact h.write.writing t' d r hold hr
        · intro t₁ t₂ d₁ d₂ r₁ r₂ hd₁ hd₂ hr₁ hr₂ heq
          rcases lookup_insert_cases hd₁ with ⟨rfl, rfl⟩ | ⟨-, hold₁⟩
          · rcases lookup_insert_cases hd₂ with ⟨rfl, -⟩ | ⟨-, hold₂⟩
            · rfl
            · rw [Option.some_inj] at hr₁
              have hlt := h.queue.after_writing t₂ d₂ r₂ hold₂ hr₂ reply hmem
              rw [hr₁, heq] at hlt
              exact absurd hlt (lt_irrefl _)
          · rcases lookup_insert_cases hd₂ with ⟨rfl, rfl⟩ | ⟨-, hold₂⟩
            · rw [Option.some_inj] at hr₂
              have hlt := h.queue.after_writing t₁ d₁ r₁ hold₁ hr₁ reply hmem
              rw [hr₂, heq] at hlt
              exact absurd hlt (lt_irrefl _)
            · exact h.write.apart t₁ t₂ d₁ d₂ r₁ r₂ hold₁ hold₂ hr₁ hr₂ heq

/-- INTERNAL: the only thread of the writer adds to what it has written.
SRC: outbox.rs:151 -/
theorem OutboxInv.write_step (h : OutboxInv s) {t : ℕ} (hstep : s.write t = some s') :
    OutboxInv s' := by
  unfold OutboxState.write at hstep
  split at hstep
  case h_2 => cases hstep
  case h_1 writer generation reply ht =>
    rw [Option.some_inj] at hstep
    subst hstep
    obtain ⟨hunder, hlt, hwrites⟩ := h.write.writing t _ reply ht rfl
    refine ⟨⟨h.queue.under, h.queue.order, h.queue.counted, ?_, ?_⟩, h.owner.goOn ht none rfl,
      ⟨?_, ?_, ?_, ?_, ?_⟩⟩
    · rw [List.forall_mem_append, List.forall_mem_singleton]
      exact ⟨h.queue.after_writes, h.queue.after_writing t _ reply ht rfl⟩
    · intro t' d w hd hw
      rcases lookup_insert_cases hd with ⟨-, rfl⟩ | ⟨-, hold⟩
      · cases hw
      · exact h.queue.after_writing t' d w hold hw
    · intro t' d r hd hr
      rcases lookup_insert_cases hd with ⟨-, rfl⟩ | ⟨hne, hold⟩
      · cases hr
      · obtain ⟨hunder', hlt', hwrites'⟩ := h.write.writing t' d r hold hr
        rw [List.forall_mem_append, List.forall_mem_singleton]
        refine ⟨hunder', hlt', hwrites', fun hsame => ?_, fun hsame => ?_⟩
        · exact absurd (h.owner.drains t t' _ d ht hold hsame).symm hne
        · exact absurd (h.write.apart t t' _ d reply r ht hold rfl hr hsame).symm hne
    · intro t₁ t₂ d₁ d₂ r₁ r₂ hd₁ hd₂ hr₁ hr₂
      rcases lookup_insert_cases hd₁ with ⟨-, rfl⟩ | ⟨-, hold₁⟩
      · cases hr₁
      · rcases lookup_insert_cases hd₂ with ⟨-, rfl⟩ | ⟨-, hold₂⟩
        · cases hr₂
        · exact h.write.apart t₁ t₂ d₁ d₂ r₁ r₂ hold₁ hold₂ hr₁ hr₂
    · rw [List.forall_mem_append, List.forall_mem_singleton]
      exact ⟨h.write.written, hunder, hlt⟩
    · rw [List.pairwise_append]
      refine ⟨h.write.order, List.pairwise_singleton _ _, fun e he e' he' => ?_⟩
      rw [List.mem_singleton.mp he']
      exact (hwrites e he).1
    · rw [List.map_append, List.nodup_append]
      refine ⟨h.write.once, List.nodup_singleton _, fun n hn n' hn' => ?_⟩
      obtain ⟨e, he, rfl⟩ := List.mem_map.mp hn
      rw [List.map_singleton, List.mem_singleton] at hn'
      rw [hn']
      exact (hwrites e he).2

theorem outboxInv_step {e : OutboxEvent} (h : OutboxInv s) (hstep : s.step e = some s') :
    OutboxInv s' := by
  cases e with
  | offer reply granted =>
      rw [← Option.some_inj.mp hstep]
      exact h.offer reply granted
  | startDrain => exact h.startDrain hstep
  | rearm => exact h.rearm hstep
  | close =>
      rw [← Option.some_inj.mp hstep]
      exact h.close
  | take => exact h.take hstep
  | write => exact h.write_step hstep

/-! ## Between close and rearm -/

/-- INTERNAL: a closed outbox stays closed, and nothing is taken from it.
SRC: outbox.rs:139-141 -/
theorem closed_step {e : OutboxEvent} (hclosed : s.closed = true) (he : ∀ w, e ≠ .rearm w)
    (hstep : s.step e = some s') : s'.closed = true ∧ s'.taken = s.taken := by
  cases e with
  | offer reply granted =>
      rw [← Option.some_inj.mp hstep]
      unfold OutboxState.offer
      rw [if_pos (Or.inl hclosed)]
      exact ⟨hclosed, rfl⟩
  | startDrain thread writer generation ok =>
      unfold OutboxState.step OutboxState.startDrain at hstep
      dsimp only at hstep
      split at hstep
      · split at hstep
        · rw [← Option.some_inj.mp hstep]
          exact ⟨hclosed, rfl⟩
        · rw [← Option.some_inj.mp hstep]
          exact ⟨rfl, rfl⟩
      · cases hstep
  | rearm w => exact absurd rfl (he w)
  | close =>
      rw [← Option.some_inj.mp hstep]
      exact ⟨rfl, rfl⟩
  | take thread =>
      unfold OutboxState.step OutboxState.take at hstep
      dsimp only at hstep
      split at hstep
      · rw [if_pos (Or.inl hclosed)] at hstep
        rw [← Option.some_inj.mp hstep]
        exact ⟨hclosed, rfl⟩
      · cases hstep
  | write thread =>
      unfold OutboxState.step OutboxState.write at hstep
      dsimp only at hstep
      split at hstep
      · rw [← Option.some_inj.mp hstep]
        exact ⟨hclosed, rfl⟩
      · cases hstep

theorem closed_run {es : List OutboxEvent} (hclosed : s.closed = true)
    (hes : ∀ w, OutboxEvent.rearm w ∉ es) (hrun : run OutboxState.step s es = some s') :
    s'.taken = s.taken := by
  have hkept := run_invariant (fun u => u.closed = true ∧ u.taken = s.taken)
    (fun e => ∀ w, e ≠ .rearm w)
    (fun u e u' he hu hstep => by
      obtain ⟨hclosed', htaken⟩ := closed_step hu.1 he hstep
      exact ⟨hclosed', htaken.trans hu.2⟩)
    (fun e he w heq => hes w (by rw [← heq]; exact he)) ⟨hclosed, rfl⟩ hrun
  exact hkept.2

/-! ## Runs -/

/-- INTERNAL: what is written to a writer was offered while it was the last one installed; every
accepted reply is written at most once, to one writer in the order of acceptance; and from a `close`
on nothing is taken until the next `rearm`.
SRC: outbox.rs:61-152 -/
theorem replies_keep_generation (writer : ℕ) {es : List OutboxEvent}
    (hrun : run OutboxState.step (OutboxState.new writer) es = some s) :
    (∀ e ∈ s.writes, e.2.under = e.1) ∧
      (s.writes.map fun e => e.2.number).Nodup ∧
      (∀ w, ((s.writes.filter fun e => e.1 = w).map fun e => e.2.number).Pairwise (· < ·)) ∧
      ∀ (before after : List OutboxEvent) (s₁ : OutboxState), es = before ++ .close :: after →
        (∀ w, OutboxEvent.rearm w ∉ after) →
        run OutboxState.step (OutboxState.new writer) before = some s₁ → s.taken = s₁.taken := by
  have hinv : OutboxInv s := run_invariant OutboxInv (fun _ => True)
    (fun _ _ _ _ h hstep => outboxInv_step h hstep) (fun _ _ => trivial) (outboxInv_new writer) hrun
  refine ⟨fun e he => (hinv.write.written e he).1, hinv.write.once, fun w => ?_, ?_⟩
  · rw [List.pairwise_map, List.pairwise_filter]
    refine hinv.write.order.imp fun {a b} hab ha hb => hab ?_
    rw [decide_eq_true_iff] at ha hb
    rw [ha, hb]
  · intro before after s₁ hes hafter hbefore
    rw [hes, run_append, hbefore, Option.bind_some, run_cons] at hrun
    exact closed_run (s := s₁.close) rfl hafter hrun

theorem replies_keep_generation_rearmed :
    ∃ s, run OutboxState.step (OutboxState.new 0)
        [.offer [0x61] true, .startDrain 0 0 0 true, .take 0, .rearm 1, .offer [0x62] true,
          .startDrain 1 1 1 true, .take 1, .write 1, .write 0, .close] = some s ∧
      (s.writes.map fun e => e.2.number) = [1, 0] ∧ ∀ e ∈ s.writes, e.2.under = e.1 := by
  have hrun : run OutboxState.step (OutboxState.new 0)
      [.offer [0x61] true, .startDrain 0 0 0 true, .take 0, .rearm 1, .offer [0x62] true,
        .startDrain 1 1 1 true, .take 1, .write 1, .write 0, .close] = some _ := rfl
  exact ⟨_, hrun, rfl, (replies_keep_generation 0 hrun).1⟩

end

end Tymux.Analysis
