import Tymux.Model.FailoverStream
import Mathlib.Tactic.SplitIfs

/-!
# Who may receive from the inner stream

`inner.Receive` has two callers: the drain of a failed `Send`, and `Receive`. The drain is claimed
in the first section of `drainOnce`, at most once and only while no `Receive` has begun; a `Receive`
that begins after that finds the channel of the drain and waits for it. So a drain in flight keeps
`Receive` out of the inner stream (`Disciplined.waits`), and the event it brings is in the stash
before `Receive` looks there.

The drain itself can call `inner.Receive` after a `Receive` has begun, and an event that comes
together with an error is dropped by the drain where `Receive` hands it on
(`late_drain_drops`).
-/

set_option autoImplicit false

namespace Tymux.Analysis

open Tymux.Model FailoverStream

variable {α ε : Type*}

/-! ## Stages -/

/-- The channel of a drain in flight, from its claim until `drainDone` is cleared. -/
def SendStage.channel : SendStage α ε → Option ℕ
  | .claimed _ done | .draining _ done | .drained _ done _ _ => some done
  | _ => none

/-- The call has claimed the drain and has not closed its channel. -/
def SendStage.drains : SendStage α ε → Bool
  | .claimed _ _ | .draining _ _ | .drained _ _ _ _ | .closing _ _ _ => true
  | _ => false

/-- The event on its way to the stash. -/
def SendStage.hand : SendStage α ε → Option α
  | .drained _ _ ev none => ev
  | _ => none

/-- The event on its way out of `Receive`. -/
def ReceiveStage.hand : ReceiveStage α ε → Option α
  | .returning ev _ => ev
  | _ => none

/-- `Receive` has looked at the stash. -/
def ReceiveStage.emptied : ReceiveStage α ε → Bool
  | .ready | .receiving | .returning _ _ => true
  | _ => false

/-- `Receive` has waited. -/
def ReceiveStage.past : ReceiveStage α ε → Bool
  | .idle | .started _ => false
  | _ => true

theorem drains_of_channel {stage : SendStage α ε} {done : ℕ}
    (h : SendStage.channel stage = some done) : SendStage.drains stage = true := by
  cases stage <;> first | rfl | cases h

theorem channel_of_hand {stage : SendStage α ε} {ev : α} (h : SendStage.hand stage = some ev) :
    ∃ done, SendStage.channel stage = some done := by
  cases stage with
  | drained eof done ev' rxErr => exact ⟨done, rfl⟩
  | _ => cases h

/-! ## What a step does -/

/-- The steps, with what they find and what they leave. -/
inductive Move (f : FailoverStream α ε) : FailoverStream α ε → Prop where
  /-- A step of a `Send` outside its drain. -/
  | quiet (i : ℕ) (stage : SendStage α ε) (hold : SendStage.drains (f.sends i) = false)
      (hnew : SendStage.drains stage = false) : Move f (f.goto i stage)
  | claim (i : ℕ) (eof : ε) (hrx : f.rxStarted = false) (hdrained : f.drained = false) :
      Move f (({ f with drained := true, drainDone := some f.made, made := f.made + 1 }.goto i
        (.claimed eof f.made)).note (.claims i))
  | drain (i : ℕ) (eof : ε) (done : ℕ) (hs : f.sends i = .claimed eof done) :
      Move f ((f.goto i (.draining eof done)).note (.calls (some i)))
  | drained (i : ℕ) (eof : ε) (done : ℕ) (ev : Option α) (rxErr : Option ε)
      (hs : f.sends i = .draining eof done) :
      Move f ((f.goto i (.drained eof done ev rxErr)).note (.answers (some i) ev rxErr))
  | keep (i : ℕ) (eof : ε) (done : ℕ) (ev : Option α) (rxErr : Option ε)
      (hs : f.sends i = .drained eof done ev rxErr) : Move f (f.keep i eof done ev rxErr)
  | close (i : ℕ) (eof : ε) (done : ℕ) (rxErr : Option ε)
      (hs : f.sends i = .closing eof done rxErr) :
      Move f ({ f with closed := done :: f.closed }.goto i (.observing (rxErr.or (some eof))))
  | receive (hr : f.reader = .idle) :
      Move f ({ f with rxStarted := true, reader := .started f.drainDone }.note .begins)
  | wake (done : Option ℕ) (hr : f.reader = .started done)
      (hdone : ∀ c, done = some c → c ∈ f.closed) : Move f { f with reader := .woken }
  | take (ev : α) (hr : f.reader = .woken) (hstash : f.stash = some ev) :
      Move f { f with stash := none, reader := .returning (some ev) none }
  | pass (hr : f.reader = .woken) (hstash : f.stash = none) : Move f { f with reader := .ready }
  | call (hr : f.reader = .ready) : Move f ({ f with reader := .receiving }.note (.calls none))
  | answered (ev : Option α) (err : Option ε) (hr : f.reader = .receiving) :
      Move f ({ f with reader := .returning ev err }.note (.answers none ev err))
  | returned (ev : Option α) (err : Option ε) (hr : f.reader = .returning ev err) :
      Move f ({ f with reader := .idle }.note (.returns ev err))

/-- INTERNAL: the inversion of a step of a `Send`.
SRC: stream.go:49-81 -/
theorem move_of_sendStep {isEof : ε → Bool} {f f' : FailoverStream α ε} {e : StreamStep α ε}
    (h : f.sendStep isEof e = some f') : Move f f' := by
  cases e with
  | send i =>
      simp only [sendStep] at h
      split at h
      case h_1 hs =>
        cases h
        exact .quiet i _ (by rw [hs]; rfl) rfl
      case h_2 => cases h
  | sent i err =>
      simp only [sendStep] at h
      split at h
      case h_1 hs =>
        cases h
        exact .quiet i _ (by rw [hs]; rfl) rfl
      case h_2 err hs =>
        cases h
        refine .quiet i _ (by rw [hs]; rfl) ?_
        split_ifs <;> rfl
      case h_3 => cases h
  | claim i =>
      simp only [sendStep] at h
      split at h
      case h_1 eof hs =>
        cases h
        unfold FailoverStream.claim
        by_cases hno : (f.rxStarted || f.drained) = true
        · rw [if_pos hno]
          exact .quiet i _ (by rw [hs]; rfl) rfl
        · rw [if_neg hno]
          rw [Bool.or_eq_true, not_or, Bool.not_eq_true, Bool.not_eq_true] at hno
          exact .claim i eof hno.1 hno.2
      case h_2 => cases h
  | drain i =>
      simp only [sendStep] at h
      split at h
      case h_1 eof done hs =>
        cases h
        exact .drain i eof done hs
      case h_2 => cases h
  | drained i ev rxErr =>
      simp only [sendStep] at h
      split at h
      case h_1 eof done hs =>
        cases h
        exact .drained i eof done ev rxErr hs
      case h_2 => cases h
  | keep i =>
      simp only [sendStep] at h
      split at h
      case h_1 eof done ev rxErr hs =>
        cases h
        exact .keep i eof done ev rxErr hs
      case h_2 => cases h
  | close i =>
      simp only [sendStep] at h
      split at h
      case h_1 eof done rxErr hs =>
        cases h
        exact .close i eof done rxErr hs
      case h_2 => cases h
  | observed i =>
      simp only [sendStep] at h
      split at h
      case h_1 hs =>
        cases h
        exact .quiet i _ (by rw [hs]; rfl) rfl
      case h_2 => cases h
  | _ => cases h

/-- INTERNAL: the inversion of a step of the `Receive`.
SRC: stream.go:83-100 -/
theorem move_of_receiveStep {f f' : FailoverStream α ε} {e : StreamStep α ε}
    (h : f.receiveStep e = some f') : Move f f' := by
  cases e with
  | receive =>
      simp only [receiveStep] at h
      split at h
      case h_1 hr =>
        cases h
        exact .receive hr
      case h_2 => cases h
  | wake =>
      simp only [receiveStep] at h
      split at h
      case h_1 hr =>
        cases h
        exact .wake none hr (fun c hc => nomatch hc)
      case h_2 done hr =>
        by_cases hdone : done ∈ f.closed
        · rw [if_pos hdone] at h
          cases h
          refine .wake (some done) hr ?_
          rintro c ⟨⟩
          exact hdone
        · rw [if_neg hdone] at h
          cases h
      case h_3 => cases h
  | take =>
      simp only [receiveStep] at h
      split at h
      case h_1 ev hr hstash =>
        cases h
        exact .take ev hr hstash
      case h_2 hr hstash =>
        cases h
        exact .pass hr hstash
      case h_3 => cases h
  | call =>
      simp only [receiveStep] at h
      split at h
      case h_1 hr =>
        cases h
        exact .call hr
      case h_2 => cases h
  | answered ev err =>
      simp only [receiveStep] at h
      split at h
      case h_1 hr =>
        cases h
        exact .answered ev err hr
      case h_2 => cases h
  | returned =>
      simp only [receiveStep] at h
      split at h
      case h_1 ev err hr =>
        cases h
        exact .returned ev err hr
      case h_2 => cases h
  | _ => cases h

theorem move_of_step {isEof : ε → Bool} {f f' : FailoverStream α ε} {e : StreamStep α ε}
    (h : f.step isEof e = some f') : Move f f' := by
  unfold FailoverStream.step at h
  split at h
  all_goals first | exact move_of_receiveStep h | exact move_of_sendStep h

/-! ## What holds between the steps -/

/-- What the goroutines can rely on.
SRC: stream.go:24-35 -/
structure Disciplined (f : FailoverStream α ε) : Prop where
  /-- Only one call drains. -/
  one : ∀ i j, SendStage.drains (f.sends i) = true → SendStage.drains (f.sends j) = true → i = j
  claimed : ∀ i, SendStage.drains (f.sends i) = true → f.drained = true
  /-- Its channel is on record and open until it has stashed its event. -/
  inFlight : ∀ i done, SendStage.channel (f.sends i) = some done →
    f.drainDone = some done ∧ done ∉ f.closed ∧ f.stash = none
  /-- Until then `Receive` waits, if it has begun. -/
  waits : ∀ i done, SendStage.channel (f.sends i) = some done →
    f.reader = .idle ∨ f.reader = .started (some done)
  unclaimed : f.drained = false → f.closed = [] ∧ f.stash = none
  emptied : ReceiveStage.emptied f.reader = true → f.stash = none
  begun : f.rxStarted = false → f.reader = .idle

section Steps

variable {f : FailoverStream α ε}

/-- INTERNAL: what a call that is not at `i` is at is not changed by a step of the call `i`. -/
theorem sends_goto (f : FailoverStream α ε) (i j : ℕ) (stage : SendStage α ε) :
    (f.goto i stage).sends j = if j = i then stage else f.sends j := Function.update_apply ..

theorem sends_keep (f : FailoverStream α ε) (i j : ℕ) (eof : ε) (done : ℕ) (ev : Option α)
    (rxErr : Option ε) : (f.keep i eof done ev rxErr).sends j =
      if j = i then .closing eof done rxErr else f.sends j := Function.update_apply ..

@[simp] theorem sends_note (f : FailoverStream α ε) (e : StreamEntry α ε) :
    (f.note e).sends = f.sends := rfl

/-- INTERNAL: while a drain is in flight, no call has another channel. -/
theorem Disciplined.channel_eq (h : Disciplined f) {i j done done' : ℕ}
    (hi : SendStage.channel (f.sends i) = some done)
    (hj : SendStage.channel (f.sends j) = some done') : i = j :=
  h.one i j (drains_of_channel hi) (drains_of_channel hj)

theorem disciplined_new : Disciplined (new : FailoverStream α ε) where
  one := fun _ _ h => nomatch h
  claimed := fun _ h => nomatch h
  inFlight := fun _ _ h => nomatch h
  waits := fun _ _ h => nomatch h
  unclaimed := fun _ => ⟨rfl, rfl⟩
  emptied := fun h => nomatch h
  begun := fun _ => rfl

/-- INTERNAL: a call goes on in its drain, or ends it, and nothing else changes. -/
theorem disciplined_goto (h : Disciplined f) {i : ℕ} {stage : SendStage α ε}
    (hdrains : SendStage.drains stage = true → SendStage.drains (f.sends i) = true)
    (hchannel : ∀ done, SendStage.channel stage = some done →
      SendStage.channel (f.sends i) = some done) : Disciplined (f.goto i stage) := by
  have hback : ∀ j, SendStage.drains ((f.goto i stage).sends j) = true →
      SendStage.drains (f.sends j) = true := by
    intro j hj
    rw [sends_goto] at hj
    split_ifs at hj with hji
    · rw [hji]
      exact hdrains hj
    · exact hj
  have hchan : ∀ j done, SendStage.channel ((f.goto i stage).sends j) = some done →
      SendStage.channel (f.sends j) = some done := by
    intro j done hj
    rw [sends_goto] at hj
    split_ifs at hj with hji
    · rw [hji]
      exact hchannel done hj
    · exact hj
  exact ⟨fun j k hj hk => h.one j k (hback j hj) (hback k hk), fun j hj => h.claimed j (hback j hj),
    fun j done hj => h.inFlight j done (hchan j done hj),
    fun j done hj => h.waits j done (hchan j done hj), h.unclaimed, h.emptied, h.begun⟩

/-- INTERNAL: the record of what happens plays no part. -/
theorem disciplined_note (h : Disciplined f) (e : StreamEntry α ε) : Disciplined (f.note e) :=
  ⟨h.one, h.claimed, h.inFlight, h.waits, h.unclaimed, h.emptied, h.begun⟩

theorem disciplined_claim (h : Disciplined f) (i : ℕ) (eof : ε) (hrx : f.rxStarted = false)
    (hdrained : f.drained = false) :
    Disciplined ({ f with drained := true, drainDone := some f.made, made := f.made + 1 }.goto i
      (.claimed eof f.made)) := by
  have hnone : ∀ j, ¬ SendStage.drains (f.sends j) = true := by
    intro j hj
    have hclaimed := h.claimed j hj
    rw [hdrained] at hclaimed
    cases hclaimed
  obtain ⟨hclosed, hstash⟩ := h.unclaimed hdrained
  have hidle := h.begun hrx
  refine ⟨?_, fun _ _ => rfl, ?_, fun _ _ _ => Or.inl hidle, fun hd => (nomatch hd), h.emptied,
    h.begun⟩
  · intro j k hj hk
    rw [sends_goto] at hj hk
    split_ifs at hj hk with hji hki
    · rw [hji, hki]
    · exact absurd hk (hnone k)
    · exact absurd hj (hnone j)
    · exact absurd hj (hnone j)
  · intro j done hj
    rw [sends_goto] at hj
    split_ifs at hj with hji
    · cases hj
      refine ⟨rfl, ?_, hstash⟩
      change f.made ∉ f.closed
      rw [hclosed]
      exact List.not_mem_nil
    · exact absurd (drains_of_channel hj) (hnone j)

theorem disciplined_keep (h : Disciplined f) {i : ℕ} {eof : ε} {done : ℕ} {ev : Option α}
    {rxErr : Option ε} (hs : f.sends i = .drained eof done ev rxErr) :
    Disciplined (f.keep i eof done ev rxErr) := by
  have hi : SendStage.channel (f.sends i) = some done := by rw [hs]; rfl
  have hdrains := drains_of_channel hi
  have hback : ∀ j, SendStage.drains ((f.keep i eof done ev rxErr).sends j) = true → j = i := by
    intro j hj
    rw [sends_keep] at hj
    split_ifs at hj with hji
    · exact hji
    · exact h.one j i hj hdrains
  have hchan : ∀ j done', SendStage.channel ((f.keep i eof done ev rxErr).sends j) ≠
      some done' := by
    intro j done' hj
    have hji := hback j (drains_of_channel hj)
    rw [sends_keep, if_pos hji] at hj
    cases hj
  refine ⟨fun j k hj hk => (hback j hj).trans (hback k hk).symm, fun _ _ => h.claimed i hdrains,
    fun j done' hj => absurd hj (hchan j done'), fun j done' hj => absurd hj (hchan j done'),
    ?_, ?_, h.begun⟩
  · intro hd
    have hclaimed := h.claimed i hdrains
    rw [show f.drained = false from hd] at hclaimed
    cases hclaimed
  · intro hemptied
    change ReceiveStage.emptied f.reader = true at hemptied
    rcases h.waits i done hi with hr | hr
    · rw [hr] at hemptied
      cases hemptied
    · rw [hr] at hemptied
      cases hemptied

theorem disciplined_close (h : Disciplined f) {i : ℕ} {eof : ε} {done : ℕ} {rxErr : Option ε}
    (hs : f.sends i = .closing eof done rxErr) :
    Disciplined ({ f with closed := done :: f.closed }.goto i
      (.observing (rxErr.or (some eof)))) := by
  have hdrains : SendStage.drains (f.sends i) = true := by rw [hs]; rfl
  have hnone : ∀ j done', SendStage.channel (f.sends j) ≠ some done' := by
    intro j done' hj
    have hji := h.one j i (drains_of_channel hj) hdrains
    rw [hji, hs] at hj
    cases hj
  have hclosed : Disciplined { f with closed := done :: f.closed } := by
    refine ⟨h.one, h.claimed, fun j done' hj => absurd hj (hnone j done'),
      fun j done' hj => absurd hj (hnone j done'), ?_, h.emptied, h.begun⟩
    intro hd
    have hclaimed := h.claimed i hdrains
    rw [show f.drained = false from hd] at hclaimed
    cases hclaimed
  exact disciplined_goto hclosed (fun hno => nomatch hno) (fun _ hno => nomatch hno)

/-- INTERNAL: the `Receive` goes on past its wait, and may empty the stash. -/
theorem disciplined_past (h : Disciplined f) {reader : ReceiveStage α ε} {stash : Option α}
    (hnone : ∀ i done, SendStage.channel (f.sends i) ≠ some done) (hbusy : f.reader ≠ .idle)
    (hstash : stash = none ∨ stash = f.stash)
    (hemptied : ReceiveStage.emptied reader = true → stash = none) :
    Disciplined { f with reader, stash } := by
  refine ⟨h.one, h.claimed, fun i done hi => absurd hi (hnone i done),
    fun i done hi => absurd hi (hnone i done), ?_, hemptied, fun hrx => absurd (h.begun hrx) hbusy⟩
  intro hd
  obtain ⟨hclosed, hno⟩ := h.unclaimed hd
  refine ⟨hclosed, ?_⟩
  rcases hstash with hs | hs
  · exact hs
  · exact hs.trans hno

/-- INTERNAL: past its wait, `Receive` meets no drain in flight. -/
theorem Disciplined.channel_ne (h : Disciplined f) (hpast : ReceiveStage.past f.reader = true)
    (i done : ℕ) : SendStage.channel (f.sends i) ≠ some done := by
  intro hi
  rcases h.waits i done hi with hr | hr
  · rw [hr] at hpast
    cases hpast
  · rw [hr] at hpast
    cases hpast

theorem disciplined_onwards (h : Disciplined f) {reader : ReceiveStage α ε} {stash : Option α}
    (hpast : ReceiveStage.past f.reader = true) (hstash : stash = none ∨ stash = f.stash)
    (hemptied : ReceiveStage.emptied reader = true → stash = none) :
    Disciplined { f with reader, stash } := by
  refine disciplined_past h (h.channel_ne hpast) ?_ hstash hemptied
  intro hidle
  rw [hidle] at hpast
  cases hpast

theorem disciplined_wake (h : Disciplined f) {done : Option ℕ} (hr : f.reader = .started done)
    (hdone : ∀ c, done = some c → c ∈ f.closed) : Disciplined { f with reader := .woken } := by
  have hnone : ∀ i c, SendStage.channel (f.sends i) ≠ some c := by
    intro i c hi
    rcases h.waits i c hi with hw | hw
    · rw [hr] at hw
      cases hw
    · rw [hr] at hw
      cases hw
      exact (h.inFlight i c hi).2.1 (hdone c rfl)
  exact disciplined_past h hnone (by rw [hr]; exact fun hno => nomatch hno) (Or.inr rfl)
    (fun hno => nomatch hno)

/-- INTERNAL: what a step keeps. -/
theorem disciplined_move {f' : FailoverStream α ε} (h : Disciplined f) (hmove : Move f f') :
    Disciplined f' := by
  cases hmove with
  | quiet i stage hold hnew =>
      refine disciplined_goto h (fun hd => ?_) (fun done hd => ?_)
      · rw [hnew] at hd
        cases hd
      · have hd' := drains_of_channel hd
        rw [hnew] at hd'
        cases hd'
  | claim i eof hrx hdrained => exact disciplined_note (disciplined_claim h i eof hrx hdrained) _
  | drain i eof done hs =>
      refine disciplined_note (disciplined_goto h (fun _ => by rw [hs]; rfl) ?_) _
      intro done' hd
      rw [hs]
      exact hd
  | drained i eof done ev rxErr hs =>
      refine disciplined_note (disciplined_goto h (fun _ => by rw [hs]; rfl) ?_) _
      intro done' hd
      rw [hs]
      exact hd
  | keep i eof done ev rxErr hs => exact disciplined_keep h hs
  | close i eof done rxErr hs => exact disciplined_close h hs
  | receive hr =>
      refine disciplined_note ?_ _
      refine ⟨h.one, h.claimed, h.inFlight, ?_, h.unclaimed, fun hno => (nomatch hno),
        fun hno => (nomatch hno)⟩
      intro i done hi
      refine Or.inr ?_
      change ReceiveStage.started f.drainDone = _
      rw [(h.inFlight i done hi).1]
  | wake done hr hdone => exact disciplined_wake h hr hdone
  | take ev hr hstash =>
      exact disciplined_onwards h (by rw [hr]; rfl) (Or.inl rfl) (fun _ => rfl)
  | pass hr hstash =>
      exact disciplined_onwards h (by rw [hr]; rfl) (Or.inr rfl) (fun _ => hstash)
  | call hr =>
      have hempty : f.stash = none := h.emptied (by rw [hr]; rfl)
      exact disciplined_note
        (disciplined_onwards h (by rw [hr]; rfl) (Or.inr rfl) (fun _ => hempty)) _
  | answered ev err hr =>
      have hempty : f.stash = none := h.emptied (by rw [hr]; rfl)
      exact disciplined_note
        (disciplined_onwards h (by rw [hr]; rfl) (Or.inr rfl) (fun _ => hempty)) _
  | returned ev err hr =>
      have hempty : f.stash = none := h.emptied (by rw [hr]; rfl)
      exact disciplined_note
        (disciplined_onwards h (by rw [hr]; rfl) (Or.inr rfl) (fun _ => hempty)) _

end Steps

/-! ## The events -/

/-- The event that the entry adds to what `Receive` has returned. -/
def StreamEntry.returned : StreamEntry α ε → Option α
  | .returns ev _ => ev
  | _ => none

/-- The event that `inner.Receive` returns. -/
def StreamEntry.answer : StreamEntry α ε → Option α
  | .answers _ ev _ => ev
  | _ => none

/-- The event that `inner.Receive` returns for good: the drain ignores one that comes together
with an error.
SRC: stream.go:71-73 -/
def StreamEntry.kept : StreamEntry α ε → Option α
  | .answers none ev _ => ev
  | .answers (some _) ev none => ev
  | _ => none

/-- The event is in the stash, on its way there, or on its way out of `Receive`. -/
def EventInTransit (f : FailoverStream α ε) (ev : α) : Prop :=
  f.stash = some ev ∨ (∃ i, SendStage.hand (f.sends i) = some ev) ∨
    ReceiveStage.hand f.reader = some ev

/-- At most one event is in transit, and it is the next to be returned. -/
def InOrder (f : FailoverStream α ε) : Prop :=
  ∃ held : Option α, (∀ ev, EventInTransit f ev ↔ held = some ev) ∧
    f.log.filterMap StreamEntry.returned ++ held.toList = f.log.filterMap StreamEntry.kept

section Events

variable {f f' : FailoverStream α ε}

theorem hand_of_not_drains {stage : SendStage α ε} (h : SendStage.drains stage = false) :
    SendStage.hand stage = none := by
  cases stage <;> first | rfl | cases h

theorem eventInTransit_goto {i : ℕ} {stage : SendStage α ε}
    (hhand : SendStage.hand stage = SendStage.hand (f.sends i)) (ev : α) :
    EventInTransit (f.goto i stage) ev ↔ EventInTransit f ev := by
  have hall : ∀ j, SendStage.hand ((f.goto i stage).sends j) = SendStage.hand (f.sends j) := by
    intro j
    rw [sends_goto]
    split_ifs with hji
    · rw [hhand, hji]
    · rfl
  unfold EventInTransit
  simp only [hall]
  rfl

theorem eventInTransit_goto_of_none {i : ℕ} (hhand : SendStage.hand (f.sends i) = none)
    (stage : SendStage α ε) (ev : α) :
    EventInTransit (f.goto i stage) ev ↔ EventInTransit f ev ∨ SendStage.hand stage = some ev := by
  have hsome : (∃ j, SendStage.hand ((f.goto i stage).sends j) = some ev) ↔
      (∃ j, SendStage.hand (f.sends j) = some ev) ∨ SendStage.hand stage = some ev := by
    constructor
    · rintro ⟨j, hj⟩
      rw [sends_goto] at hj
      split_ifs at hj
      · exact Or.inr hj
      · exact Or.inl ⟨j, hj⟩
    · rintro (⟨j, hj⟩ | hstage)
      · have hji : j ≠ i := by
          rintro rfl
          rw [hhand] at hj
          cases hj
        exact ⟨j, by rw [sends_goto, if_neg hji]; exact hj⟩
      · exact ⟨i, by rw [sends_goto, if_pos rfl]; exact hstage⟩
  unfold EventInTransit
  rw [hsome]
  change f.stash = some ev ∨ (_ ∨ _) ∨ ReceiveStage.hand f.reader = some ev ↔ _
  tauto

/-- INTERNAL: a step that moves no event and reports none. -/
theorem inOrder_frame (h : InOrder f) (htransit : ∀ ev, EventInTransit f' ev ↔ EventInTransit f ev)
    (hreturned : f'.log.filterMap StreamEntry.returned = f.log.filterMap StreamEntry.returned)
    (hkept : f'.log.filterMap StreamEntry.kept = f.log.filterMap StreamEntry.kept) :
    InOrder f' := by
  obtain ⟨held, hheld, hlog⟩ := h
  refine ⟨held, fun ev => (htransit ev).trans (hheld ev), ?_⟩
  rw [hreturned, hkept]
  exact hlog

theorem inOrder_note (h : InOrder f) {e : StreamEntry α ε}
    (hreturned : StreamEntry.returned e = none) (hkept : StreamEntry.kept e = none) :
    InOrder (f.note e) := by
  refine inOrder_frame h (fun _ => Iff.rfl) ?_ ?_
  · simp [FailoverStream.note, hreturned]
  · simp [FailoverStream.note, hkept]

/-- INTERNAL: `inner.Receive` brings an event while none is in transit. -/
theorem inOrder_arrives (h : InOrder f) (hnone : ∀ ev, ¬ EventInTransit f ev) {e : StreamEntry α ε}
    (hreturned : StreamEntry.returned e = none) (hlog : f'.log = f.log ++ [e])
    (htransit : ∀ ev, EventInTransit f' ev ↔ StreamEntry.kept e = some ev) : InOrder f' := by
  obtain ⟨held, hheld, hpast⟩ := h
  have hempty : held = none := by
    cases held with
    | none => rfl
    | some ev => exact absurd ((hheld ev).mpr rfl) (hnone ev)
  rw [hempty, Option.toList_none, List.append_nil] at hpast
  refine ⟨StreamEntry.kept e, htransit, ?_⟩
  rw [hlog, List.filterMap_append, List.filterMap_append, hpast]
  cases hkept : StreamEntry.kept e with
  | none => simp [hreturned, hkept]
  | some ev => simp [hreturned, hkept]

/-- INTERNAL: a drain in flight has nothing in transit but what it brings itself. -/
theorem not_eventInTransit_of_draining (h : Disciplined f) {i done : ℕ} {eof : ε}
    (hs : f.sends i = .draining eof done) (ev : α) : ¬ EventInTransit f ev := by
  have hi : SendStage.channel (f.sends i) = some done := by rw [hs]; rfl
  rintro (hstash | ⟨j, hj⟩ | hreader)
  · rw [(h.inFlight i done hi).2.2] at hstash
    cases hstash
  · obtain ⟨done', hj'⟩ := channel_of_hand hj
    rw [h.channel_eq hj' hi, hs] at hj
    cases hj
  · rcases h.waits i done hi with hr | hr
    · rw [hr] at hreader
      cases hreader
    · rw [hr] at hreader
      cases hreader

/-- INTERNAL: past its wait, `Receive` meets no event on its way to the stash. -/
theorem Disciplined.eventInTransit_iff (h : Disciplined f)
    (hpast : ReceiveStage.past f.reader = true) (ev : α) :
    EventInTransit f ev ↔ f.stash = some ev ∨ ReceiveStage.hand f.reader = some ev := by
  have hno : ¬ ∃ i, SendStage.hand (f.sends i) = some ev := by
    rintro ⟨i, hi⟩
    obtain ⟨done, hi'⟩ := channel_of_hand hi
    exact h.channel_ne hpast i done hi'
  unfold EventInTransit
  simp only [hno, false_or]

/-- INTERNAL: the second section of the drain moves its event to the stash.
SRC: stream.go:70-75 -/
theorem eventInTransit_keep (h : Disciplined f) {i : ℕ} {eof : ε} {done : ℕ} {got : Option α}
    {rxErr : Option ε} (hs : f.sends i = .drained eof done got rxErr) (ev : α) :
    EventInTransit (f.keep i eof done got rxErr) ev ↔ EventInTransit f ev := by
  have hi : SendStage.channel (f.sends i) = some done := by rw [hs]; rfl
  have hstash : f.stash = none := (h.inFlight i done hi).2.2
  have hnew : (f.keep i eof done got rxErr).stash = SendStage.hand (f.sends i) := by
    rw [hs]
    cases rxErr with
    | none => rfl
    | some err => exact hstash
  have hothers : ∀ j, SendStage.hand ((f.keep i eof done got rxErr).sends j) = none := by
    intro j
    rw [sends_keep]
    split_ifs with hji
    · rfl
    · by_contra hne
      obtain ⟨ev', hev'⟩ := Option.ne_none_iff_exists'.mp hne
      obtain ⟨done', hj⟩ := channel_of_hand hev'
      exact hji (h.channel_eq hj hi)
  have honly : (∃ j, SendStage.hand (f.sends j) = some ev) ↔
      SendStage.hand (f.sends i) = some ev := by
    constructor
    · rintro ⟨j, hj⟩
      obtain ⟨done', hj'⟩ := channel_of_hand hj
      rw [← h.channel_eq hj' hi]
      exact hj
    · exact fun hhand => ⟨i, hhand⟩
  unfold EventInTransit
  rw [hnew, hstash, honly]
  simp only [hothers, reduceCtorEq, exists_const, false_or]
  rfl

/-- INTERNAL: what a step does to the events. -/
theorem inOrder_move (h : Disciplined f) (hin : InOrder f) (hmove : Move f f') : InOrder f' := by
  cases hmove with
  | quiet i stage hold hnew =>
      refine inOrder_frame hin (fun ev => eventInTransit_goto ?_ ev) rfl rfl
      rw [hand_of_not_drains hold, hand_of_not_drains hnew]
  | claim i eof hrx hdrained =>
      refine inOrder_note ?_ rfl rfl
      have hfree : SendStage.drains (f.sends i) = false := by
        by_contra hno
        have hclaimed := h.claimed i ((Bool.not_eq_false _).mp hno)
        rw [hdrained] at hclaimed
        cases hclaimed
      have hhand : SendStage.hand (f.sends i) = none := hand_of_not_drains hfree
      exact inOrder_frame hin (fun ev => eventInTransit_goto (by rw [hhand]; rfl) ev) rfl rfl
  | drain i eof done hs =>
      refine inOrder_note ?_ rfl rfl
      exact inOrder_frame hin (fun ev => eventInTransit_goto (by rw [hs]; rfl) ev) rfl rfl
  | drained i eof done ev rxErr hs =>
      have hnone := not_eventInTransit_of_draining h hs
      refine inOrder_arrives hin hnone (e := .answers (some i) ev rxErr) rfl rfl ?_
      intro ev'
      have hadd := eventInTransit_goto_of_none (f := f) (i := i) (by rw [hs]; rfl)
        (.drained eof done ev rxErr) ev'
      rw [or_iff_right (hnone ev')] at hadd
      cases rxErr with
      | none => exact hadd
      | some err => exact hadd
  | keep i eof done ev rxErr hs => exact inOrder_frame hin (eventInTransit_keep h hs) rfl rfl
  | close i eof done rxErr hs =>
      exact inOrder_frame hin (fun ev => eventInTransit_goto (by rw [hs]; rfl) ev) rfl rfl
  | receive hr =>
      refine inOrder_note ?_ rfl rfl
      refine inOrder_frame hin (fun ev => ?_) rfl rfl
      unfold EventInTransit
      rw [hr]
      rfl
  | wake done hr hdone =>
      refine inOrder_frame hin (fun ev => ?_) rfl rfl
      unfold EventInTransit
      rw [hr]
      rfl
  | take ev hr hstash =>
      refine inOrder_frame hin (fun ev' => ?_) rfl rfl
      have hnew := disciplined_move h (.take ev hr hstash)
      rw [hnew.eventInTransit_iff rfl, h.eventInTransit_iff (by rw [hr]; rfl), hstash, hr]
      simp [ReceiveStage.hand]
  | pass hr hstash =>
      refine inOrder_frame hin (fun ev => ?_) rfl rfl
      unfold EventInTransit
      rw [hr]
      rfl
  | call hr =>
      refine inOrder_note ?_ rfl rfl
      refine inOrder_frame hin (fun ev => ?_) rfl rfl
      unfold EventInTransit
      rw [hr]
      rfl
  | answered ev err hr =>
      have hempty : f.stash = none := h.emptied (by rw [hr]; rfl)
      have hnone : ∀ ev', ¬ EventInTransit f ev' := by
        intro ev'
        rw [h.eventInTransit_iff (by rw [hr]; rfl), hempty, hr]
        simp [ReceiveStage.hand]
      refine inOrder_arrives hin hnone (e := .answers none ev err) rfl rfl ?_
      intro ev'
      have hnew := disciplined_move h (.answered ev err hr)
      rw [hnew.eventInTransit_iff rfl]
      change f.stash = some ev' ∨ ev = some ev' ↔ ev = some ev'
      simp [hempty]
  | returned ev err hr =>
      obtain ⟨held, hheld, hlog⟩ := hin
      have hempty : f.stash = none := h.emptied (by rw [hr]; rfl)
      have hev : held = ev := by
        apply Option.ext
        intro ev'
        rw [← hheld ev', h.eventInTransit_iff (by rw [hr]; rfl), hempty, hr]
        simp [ReceiveStage.hand]
      refine ⟨none, fun ev' => ?_, ?_⟩
      · have hnone : ∀ i, SendStage.hand (f.sends i) ≠ some ev' := by
          intro i hi
          obtain ⟨done, hi'⟩ := channel_of_hand hi
          exact h.channel_ne (by rw [hr]; rfl) i done hi'
        unfold EventInTransit
        change f.stash = some ev' ∨ (∃ i, SendStage.hand (f.sends i) = some ev') ∨
          none = some ev' ↔ _
        simp [hempty, hnone]
      · rw [hev] at hlog
        change (f.log ++ [StreamEntry.returns ev err]).filterMap _ ++ _ =
          (f.log ++ [StreamEntry.returns ev err]).filterMap _
        rw [List.filterMap_append, List.filterMap_append, ← hlog]
        cases ev with
        | none => rfl
        | some ev => simp [StreamEntry.returned, StreamEntry.kept]

end Events

/-! ## The order of the calls -/

/-- An entry that only a `Receive` makes. -/
def StreamEntry.ofReader : StreamEntry α ε → Bool
  | .begins | .calls none | .answers none _ _ | .returns _ _ => true
  | _ => false

/-- An entry that a `Receive` makes after its wait. -/
def StreamEntry.pastWait : StreamEntry α ε → Bool
  | .calls none | .answers none _ _ | .returns _ _ => true
  | _ => false

/-- A `Send` calls `inner.Receive`. -/
def StreamEntry.ofDrain : StreamEntry α ε → Bool
  | .calls (some _) => true
  | _ => false

/-- What comes before a claim, and before the call of a drain. -/
def Precedes : StreamEntry α ε → List (StreamEntry α ε) → Prop
  | .claims _, l => ∀ e ∈ l, StreamEntry.ofReader e = false
  | .calls (some i), l => .claims i ∈ l ∧
      ∀ e ∈ l, StreamEntry.ofDrain e = false ∧ StreamEntry.pastWait e = false
  | _, _ => True

/-- The record, and what is settled about the entries to come. -/
structure Recorded (f : FailoverStream α ε) : Prop where
  precedes : ∀ l e l', f.log = l ++ e :: l' → Precedes e l
  unstarted : f.rxStarted = false → ∀ e ∈ f.log, StreamEntry.ofReader e = false
  undrained : f.drained = false → ∀ e ∈ f.log, StreamEntry.ofDrain e = false
  claimed : ∀ i eof done, f.sends i = .claimed eof done → .claims i ∈ f.log ∧
    ∀ e ∈ f.log, StreamEntry.ofDrain e = false ∧ StreamEntry.pastWait e = false

section Order

variable {f f' : FailoverStream α ε}

theorem recorded_new : Recorded (new : FailoverStream α ε) where
  precedes := fun l e l' h => absurd h (by simp [new])
  unstarted := fun _ _ he => absurd he List.not_mem_nil
  undrained := fun _ _ he => absurd he List.not_mem_nil
  claimed := fun _ _ _ h => nomatch h

theorem precedes_note {e : StreamEntry α ε} (h : ∀ l x l', f.log = l ++ x :: l' → Precedes x l)
    (he : Precedes e f.log) : ∀ l x l', (f.note e).log = l ++ x :: l' → Precedes x l := by
  intro l x l' hsplit
  change f.log ++ [e] = l ++ x :: l' at hsplit
  rcases List.eq_nil_or_concat' l' with rfl | ⟨l', y, rfl⟩
  · obtain ⟨hl, hx⟩ := List.append_inj' hsplit rfl
    cases hx
    rw [← hl]
    exact he
  · rw [← List.cons_append, ← List.append_assoc] at hsplit
    exact h l x l' (List.append_inj' hsplit rfl).1

theorem pastWait_of_ofReader {e : StreamEntry α ε} (h : StreamEntry.ofReader e = false) :
    StreamEntry.pastWait e = false := by
  cases e with
  | calls caller => cases caller <;> exact h
  | answers caller => cases caller <;> exact h
  | returns => exact h
  | _ => rfl

/-- INTERNAL: a step that records nothing and leaves no call with a fresh claim. -/
theorem recorded_frame (h : Recorded f) (hlog : f'.log = f.log)
    (hstarted : f'.rxStarted = false → f.rxStarted = false) (hdrained : f'.drained = f.drained)
    (hclaimed : ∀ i eof done, f'.sends i = .claimed eof done → f.sends i = .claimed eof done) :
    Recorded f' := by
  refine ⟨?_, ?_, ?_, ?_⟩
  · rw [hlog]
    exact h.precedes
  · rw [hlog]
    exact fun hrx => h.unstarted (hstarted hrx)
  · rw [hlog, hdrained]
    exact h.undrained
  · intro i eof done hi
    rw [hlog]
    exact h.claimed i eof done (hclaimed i eof done hi)

/-- INTERNAL: an entry other than a claim and the call of a drain. -/
theorem recorded_note (h : Recorded f) {e : StreamEntry α ε} (hany : ∀ l, Precedes e l)
    (hreader : f.rxStarted = false → StreamEntry.ofReader e = false)
    (hdrain : StreamEntry.ofDrain e = false)
    (hfree : ∀ i eof done, f.sends i = .claimed eof done → StreamEntry.pastWait e = false) :
    Recorded (f.note e) := by
  refine ⟨precedes_note h.precedes (hany _), ?_, ?_, ?_⟩
  · intro hrx e' he'
    rcases List.mem_append.mp he' with he' | he'
    · exact h.unstarted hrx e' he'
    · rw [List.mem_singleton.mp he']
      exact hreader hrx
  · intro hd e' he'
    rcases List.mem_append.mp he' with he' | he'
    · exact h.undrained hd e' he'
    · rw [List.mem_singleton.mp he']
      exact hdrain
  · intro i eof done hi
    obtain ⟨hmem, hall⟩ := h.claimed i eof done hi
    refine ⟨List.mem_append_left _ hmem, fun e' he' => ?_⟩
    rcases List.mem_append.mp he' with he' | he'
    · exact hall e' he'
    · rw [List.mem_singleton.mp he']
      exact ⟨hdrain, hfree i eof done hi⟩

theorem claimed_goto {i : ℕ} {stage : SendStage α ε}
    (hstage : ∀ eof done, stage ≠ .claimed eof done) (j : ℕ) (eof : ε) (done : ℕ)
    (hj : (f.goto i stage).sends j = .claimed eof done) : f.sends j = .claimed eof done := by
  rw [sends_goto] at hj
  split_ifs at hj
  · exact absurd hj (hstage eof done)
  · exact hj

theorem recorded_claim (h : Disciplined f) (hrec : Recorded f) (i : ℕ) (eof : ε)
    (hrx : f.rxStarted = false) (hdrained : f.drained = false) :
    Recorded (({ f with drained := true, drainDone := some f.made, made := f.made + 1 }.goto i
      (.claimed eof f.made)).note (.claims i)) := by
  have hreader := hrec.unstarted hrx
  have hdrain := hrec.undrained hdrained
  refine ⟨precedes_note hrec.precedes hreader, ?_, fun hd => (nomatch hd), ?_⟩
  · intro _ e he
    rcases List.mem_append.mp he with he | he
    · exact hreader e he
    · rw [List.mem_singleton.mp he]
      rfl
  · intro j eof' done hj
    rw [sends_note, sends_goto] at hj
    split_ifs at hj with hji
    · rw [hji]
      refine ⟨List.mem_append_right _ (List.mem_singleton_self _), fun e he => ?_⟩
      rcases List.mem_append.mp he with he | he
      · exact ⟨hdrain e he, pastWait_of_ofReader (hreader e he)⟩
      · rw [List.mem_singleton.mp he]
        exact ⟨rfl, rfl⟩
    · have hdrains : SendStage.drains (f.sends j) = true := by
        rw [show f.sends j = .claimed eof' done from hj]
        rfl
      have hclaimed := h.claimed j hdrains
      rw [hdrained] at hclaimed
      cases hclaimed

theorem recorded_drain (h : Disciplined f) (hrec : Recorded f) {i : ℕ} {eof : ε} {done : ℕ}
    (hs : f.sends i = .claimed eof done) :
    Recorded ((f.goto i (.draining eof done)).note (.calls (some i))) := by
  have hdrains : SendStage.drains (f.sends i) = true := by rw [hs]; rfl
  refine ⟨precedes_note hrec.precedes (hrec.claimed i eof done hs), ?_, ?_, ?_⟩
  · intro hrx e he
    rcases List.mem_append.mp he with he | he
    · exact hrec.unstarted hrx e he
    · rw [List.mem_singleton.mp he]
      rfl
  · intro hd
    have hclaimed := h.claimed i hdrains
    rw [show f.drained = false from hd] at hclaimed
    cases hclaimed
  · intro j eof' done' hj
    have hold := claimed_goto (by exact fun _ _ hno => nomatch hno) j eof' done' hj
    have hji : j = i := h.one j i (by rw [hold]; rfl) hdrains
    rw [hji, sends_note, sends_goto, if_pos rfl] at hj
    cases hj

/-- INTERNAL: what a step does to the record. -/
theorem recorded_move (h : Disciplined f) (hrec : Recorded f) (hmove : Move f f') :
    Recorded f' := by
  have hfree : ReceiveStage.past f.reader = true → ∀ i eof done,
      f.sends i ≠ .claimed eof done := by
    intro hpast i eof done hi
    exact h.channel_ne hpast i done (by rw [hi]; rfl)
  have hstarted : ReceiveStage.past f.reader = true → f.rxStarted ≠ false := by
    intro hpast hrx
    rw [h.begun hrx] at hpast
    cases hpast
  cases hmove with
  | quiet i stage hold hnew =>
      refine recorded_frame hrec rfl id rfl (claimed_goto ?_)
      rintro eof done rfl
      cases hnew
  | claim i eof hrx hdrained => exact recorded_claim h hrec i eof hrx hdrained
  | drain i eof done hs => exact recorded_drain h hrec hs
  | drained i eof done ev rxErr hs =>
      refine recorded_note ?_ (fun _ => trivial) (fun _ => rfl) rfl (fun _ _ _ _ => rfl)
      refine recorded_frame hrec rfl id rfl ?_
      exact claimed_goto (by exact fun _ _ hno => nomatch hno)
  | keep i eof done ev rxErr hs =>
      refine recorded_frame hrec rfl id rfl ?_
      exact claimed_goto (by exact fun _ _ hno => nomatch hno)
  | close i eof done rxErr hs =>
      refine recorded_frame hrec rfl id rfl ?_
      exact claimed_goto (by exact fun _ _ hno => nomatch hno)
  | receive hr =>
      refine recorded_note ?_ (fun _ => trivial) (fun hno => nomatch hno) rfl (fun _ _ _ _ => rfl)
      exact recorded_frame hrec rfl (fun hno => nomatch hno) rfl (fun _ _ _ hi => hi)
  | wake done hr hdone => exact recorded_frame hrec rfl id rfl (fun _ _ _ hi => hi)
  | take ev hr hstash => exact recorded_frame hrec rfl id rfl (fun _ _ _ hi => hi)
  | pass hr hstash => exact recorded_frame hrec rfl id rfl (fun _ _ _ hi => hi)
  | call hr =>
      have hpast : ReceiveStage.past f.reader = true := by rw [hr]; rfl
      refine recorded_note ?_ (fun _ => trivial) (fun hrx => absurd hrx (hstarted hpast)) rfl
        (fun i eof done hi => absurd hi (hfree hpast i eof done))
      exact recorded_frame hrec rfl id rfl (fun _ _ _ hi => hi)
  | answered ev err hr =>
      have hpast : ReceiveStage.past f.reader = true := by rw [hr]; rfl
      refine recorded_note ?_ (fun _ => trivial) (fun hrx => absurd hrx (hstarted hpast)) rfl
        (fun i eof done hi => absurd hi (hfree hpast i eof done))
      exact recorded_frame hrec rfl id rfl (fun _ _ _ hi => hi)
  | returned ev err hr =>
      have hpast : ReceiveStage.past f.reader = true := by rw [hr]; rfl
      refine recorded_note ?_ (fun _ => trivial) (fun hrx => absurd hrx (hstarted hpast)) rfl
        (fun i eof done hi => absurd hi (hfree hpast i eof done))
      exact recorded_frame hrec rfl id rfl (fun _ _ _ hi => hi)

end Order

/-! ## Whole runs -/

/-- The caller is in `inner.Receive`. -/
def Receiving (f : FailoverStream α ε) : Option ℕ → Prop
  | none => f.reader = .receiving
  | some i => ∃ eof done, f.sends i = .draining eof done

theorem inOrder_new : InOrder (new : FailoverStream α ε) := by
  refine ⟨none, fun ev => ?_, rfl⟩
  simp [EventInTransit, new, SendStage.hand, ReceiveStage.hand]

theorem run_disciplined {isEof : ε → Bool} {es : List (StreamStep α ε)} {f : FailoverStream α ε}
    (h : Lib.run (step isEof) new es = some f) : Disciplined f ∧ Recorded f ∧ InOrder f := by
  refine Lib.run_invariant (fun f => Disciplined f ∧ Recorded f ∧ InOrder f) (fun _ => True) ?_
    (fun _ _ => trivial) ⟨disciplined_new, recorded_new, inOrder_new⟩ h
  rintro f e f' - ⟨hdisc, hrec, hin⟩ hstep
  have hmove := move_of_step hstep
  exact ⟨disciplined_move hdisc hmove, recorded_move hdisc hrec hmove,
    inOrder_move hdisc hin hmove⟩

/-- INTERNAL: the inner stream has one receiver at a time. -/
theorem Disciplined.receiving_eq {f : FailoverStream α ε} (h : Disciplined f) {a b : Option ℕ}
    (ha : Receiving f a) (hb : Receiving f b) : a = b := by
  have hmixed : ∀ i, Receiving f (some i) → ¬ Receiving f none := by
    rintro i ⟨eof, done, hi⟩ hr
    exact h.channel_ne (by rw [show f.reader = .receiving from hr]; rfl) i done (by rw [hi]; rfl)
  cases a with
  | none =>
      cases b with
      | none => rfl
      | some j => exact absurd ha (hmixed j hb)
  | some i =>
      cases b with
      | none => exact absurd hb (hmixed i ha)
      | some j =>
          obtain ⟨eof, done, hi⟩ := ha
          obtain ⟨eof', done', hj⟩ := hb
          rw [h.one i j (by rw [hi]; rfl) (by rw [hj]; rfl)]

/-- **The receive discipline.** However the calls interleave, the inner stream has one receiver at
a time. `Send` calls `inner.Receive` at most once, in a drain that it has claimed before any
`Receive` began and that a `Receive` beginning later waits for. What `inner.Receive` has returned
is, in order, what `Receive` has returned, and at most one more event in transit; only an event that
the drain has got together with an error is not counted.
SRC: stream.go:49-100 -/
theorem receive_discipline (isEof : ε → Bool) (es : List (StreamStep α ε))
    {f : FailoverStream α ε} (h : Lib.run (step isEof) new es = some f) :
    (∀ a b, Receiving f a → Receiving f b → a = b) ∧
      (∀ l i l', f.log = l ++ .calls (some i) :: l' → (∀ j, .calls (some j) ∉ l) ∧
        .claims i ∈ l ∧ .calls none ∉ l ∧ ∀ ev err, .returns ev err ∉ l) ∧
      (∀ l i l', f.log = l ++ .claims i :: l' → .begins ∉ l) ∧
      ∃ held : Option α, (∀ ev, EventInTransit f ev ↔ held = some ev) ∧
        f.log.filterMap StreamEntry.returned ++ held.toList = f.log.filterMap StreamEntry.kept := by
  obtain ⟨hdisc, hrec, hin⟩ := run_disciplined h
  refine ⟨fun a b ha hb => hdisc.receiving_eq ha hb, ?_, ?_, hin⟩
  · intro l i l' hlog
    obtain ⟨hclaim, hall⟩ := hrec.precedes l _ l' hlog
    refine ⟨fun j hj => ?_, hclaim, fun hcall => ?_, fun ev err hret => ?_⟩
    · exact Bool.noConfusion (hall _ hj).1
    · exact Bool.noConfusion (hall _ hcall).2
    · exact Bool.noConfusion (hall _ hret).2
  · intro l i l' hlog hbegins
    exact Bool.noConfusion (hrec.precedes l _ l' hlog _ hbegins)

/-- INTERNAL: a `Receive` that begins while a drain is in flight gets the event of the drain. -/
theorem receive_discipline_in_flight : ∃ f : FailoverStream ℕ ℕ,
    Lib.run (step (fun err => err == 0)) new [.send 0, .sent 0 (some 0), .claim 0, .drain 0,
      .receive, .drained 0 (some 7) none, .keep 0, .close 0, .wake, .take, .returned] = some f ∧
      ∃ held : Option ℕ, (∀ ev, EventInTransit f ev ↔ held = some ev) ∧
        f.log.filterMap StreamEntry.returned ++ held.toList =
          f.log.filterMap StreamEntry.kept := by
  refine ⟨_, rfl, ?_⟩
  exact (receive_discipline (fun err => err == 0) [.send 0, .sent 0 (some 0), .claim 0, .drain 0,
      .receive, .drained 0 (some 7) none, .keep 0, .close 0, .wake, .take, .returned] rfl).2.2.2

/-- A `Receive` begins between the claim of a drain and its call, which brings an event together
with an error. -/
def lateDrain : List (StreamStep ℕ ℕ) :=
  [.send 0, .sent 0 (some 0), .claim 0, .receive, .drain 0, .drained 0 (some 7) (some 1), .keep 0,
    .close 0, .wake, .take]

/-- INTERNAL: `Send` calls `inner.Receive` after a `Receive` has begun, and the event that this
call returns is neither returned by `Receive` nor in transit.
SRC: stream.go:67-75 -/
theorem late_drain_drops : ∃ f : FailoverStream ℕ ℕ,
    Lib.run (step (fun err => err == 0)) new lateDrain = some f ∧
      (∃ l l', f.log = l ++ .calls (some 0) :: l' ∧ .begins ∈ l) ∧
      f.log.filterMap StreamEntry.answer = [7] ∧ f.log.filterMap StreamEntry.returned = [] ∧
      ∀ ev, ¬ EventInTransit f ev := by
  refine ⟨_, rfl, ⟨[.claims 0, .begins], _, rfl, by decide⟩, rfl, rfl, ?_⟩
  rintro ev (hstash | ⟨i, hi⟩ | hreader)
  · cases hstash
  · by_cases h0 : i = 0
    · rw [h0] at hi
      cases hi
    · simp [FailoverStream.goto, FailoverStream.claim, note, Function.update, h0, new,
        sends_keep, SendStage.hand] at hi
  · cases hreader

end Tymux.Analysis
