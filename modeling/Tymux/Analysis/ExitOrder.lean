import Tymux.Model.LiveLoop

/-!
# Output before the exit

The loop reports the exit of a pane only in a round that found the receiver empty. So every chunk
broadcast before that poll was forwarded (or skipped, or lost to a lag), and the ones that can be
missed are exactly those that the reader thread broadcast after the poll and before it stored
`exited`: the order of the polls does not cover them.
-/

set_option autoImplicit false

namespace Tymux.Analysis

open Tymux.Model Tymux.Lib

variable {ε : Type}

/-- The `Exited` event is on its way to the client. -/
def Reporting (s : LiveLoop ε) : Prop := ∃ code, s.point = .sending (.exited code)

/-- Every chunk broadcast before the store of `exited` that the loop saw was forwarded, if it was
not lost to a lag and the client does not have it from the replay or the snapshot. -/
def ExitInOrder (s : LiveLoop ε) : Prop :=
  ∀ c ∈ s.sent.take s.exitSeen, c ∈ s.lost ∨ c.1 ≤ s.threshold ∨ .output c ∈ s.delivered

/-- The chunks broadcast between the last poll of the receiver and the store of `exited`. -/
def lateChunks (s : LiveLoop ε) : List (ℕ × List UInt8) :=
  (s.sent.take s.exitSeen).drop s.sentAtPoll

/-! ## The invariant -/

/-- The receiver was found empty in this round. -/
def FoundEmpty : LoopPoint ε → Prop
  | .pollLifecycle | .pollFinalExit | .loadExited _ | .loadRestartPending _ | .pollHeartbeat
  | .sending (.exited _) => True
  | _ => False

/-- The chunk is on its way, or the client is gone. -/
def InTransit (p : LoopPoint ε) (c : ℕ × List UInt8) : Prop := p = .sending (.output c) ∨ p = .ended

/-- What became of a chunk that the receiver returned. -/
def Settled (s : LiveLoop ε) (c : ℕ × List UInt8) : Prop :=
  c ∈ s.lost ∨ c.1 ≤ s.threshold ∨ .output c ∈ s.delivered ∨ InTransit s.point c

/-- The chunks `taken` from the receiver are a prefix of those broadcast. -/
structure LoopInv (s : LiveLoop ε) (taken : List (ℕ × List UInt8)) : Prop where
  split : s.sent = taken ++ s.outputRx
  settled : ∀ c ∈ taken, Settled s c
  lost : ∀ c ∈ s.lost, c ∈ taken
  delivered : ∀ c, .output c ∈ s.delivered ∨ s.point = .sending (.output c) → c ∈ taken
  priming : s.point = .priming → taken = []
  polled : FoundEmpty s.point → taken.length = s.sentAtPoll

/-- The chunks are numbered in order. -/
structure SentInv (s : LiveLoop ε) : Prop where
  increasing : (s.sent.map Prod.fst).Pairwise (· < ·)
  le : ∀ c ∈ s.sent, c.1 ≤ s.outputSeq

/-! ## Steps of the pane -/

theorem sentInv_chunk {s : LiveLoop ε} (h : SentInv s) (payload : List UInt8) :
    SentInv (s.chunk payload) := by
  unfold LiveLoop.chunk
  dsimp only
  split
  · exact ⟨h.increasing, fun c hc => (h.le c hc).trans (Nat.le_succ _)⟩
  · constructor
    · rw [List.map_append, List.pairwise_append]
      refine ⟨h.increasing, List.pairwise_singleton _ _, ?_⟩
      intro a ha b hb
      obtain ⟨c, hc, rfl⟩ := List.mem_map.mp ha
      rw [List.mem_singleton.mp hb]
      exact Nat.lt_succ_of_le (h.le c hc)
    · intro c hc
      rcases List.mem_append.mp hc with hc | hc
      · exact (h.le c hc).trans (Nat.le_succ _)
      · rw [List.mem_singleton.mp hc]

theorem loopInv_chunk {s : LiveLoop ε} {taken : List (ℕ × List UInt8)} (h : LoopInv s taken)
    (payload : List UInt8) : LoopInv (s.chunk payload) taken := by
  unfold LiveLoop.chunk
  dsimp only
  split
  · exact { h with }
  · constructor
    case split => rw [h.split, List.append_assoc]
    case settled => exact h.settled
    case lost => exact h.lost
    case delivered => exact h.delivered
    case priming => exact h.priming
    case polled => exact h.polled

/-! ## Steps of the loop -/

/-- A point with nothing in transit. -/
theorem not_inTransit {p : LoopPoint ε} (hsending : ∀ c, p ≠ .sending (.output c))
    (hended : p ≠ .ended) (c : ℕ × List UInt8) : ¬ InTransit p c := by
  rintro (h | h)
  · exact hsending c h
  · exact hended h

/-- INTERNAL: A step takes the chunks `new` from the receiver, and each of them is settled. -/
theorem LoopInv.take {s s' : LiveLoop ε} {taken new : List (ℕ × List UInt8)} (h : LoopInv s taken)
    (hnone : ∀ c, ¬ InTransit s.point c)
    (hsame : (s'.sent, s'.threshold, s'.delivered) = (s.sent, s.threshold, s.delivered))
    (hrx : s.outputRx = new ++ s'.outputRx) (hlost : s.lost ⊆ s'.lost)
    (hlost' : ∀ c ∈ s'.lost, c ∈ s.lost ∨ c ∈ new) (hsettled : ∀ c ∈ new, Settled s' c)
    (hsending : ∀ c, s'.point = .sending (.output c) → c ∈ new) (hpriming : s'.point ≠ .priming)
    (hpolled : FoundEmpty s'.point → taken.length + new.length = s'.sentAtPoll) :
    LoopInv s' (taken ++ new) := by
  simp only [Prod.mk.injEq] at hsame
  obtain ⟨hsent, hthreshold, hdelivered⟩ := hsame
  constructor
  case split => rw [hsent, h.split, hrx, List.append_assoc]
  case settled =>
    intro c hc
    rcases List.mem_append.mp hc with hc | hc
    · rcases h.settled c hc with hl | ht | hd | hp
      · exact Or.inl (hlost hl)
      · exact Or.inr (Or.inl (ht.trans_eq hthreshold.symm))
      · exact Or.inr (Or.inr (Or.inl (hdelivered ▸ hd)))
      · exact absurd hp (hnone c)
    · exact hsettled c hc
  case lost =>
    intro c hc
    rcases hlost' c hc with hold | hnew
    · exact List.mem_append_left _ (h.lost c hold)
    · exact List.mem_append_right _ hnew
  case delivered =>
    rintro c (hc | hc)
    · rw [hdelivered] at hc
      exact List.mem_append_left _ (h.delivered c (Or.inl hc))
    · exact List.mem_append_right _ (hsending c hc)
  case priming => exact fun hp => absurd hp hpriming
  case polled =>
    intro hp
    rw [List.length_append, hpolled hp]

/-- A step that leaves the channel alone: it stays in a round that found the receiver empty, or
starts a new one. -/
theorem LoopInv.moveTo {s s' : LiveLoop ε} {taken : List (ℕ × List UInt8)} (h : LoopInv s taken)
    (hnone : ∀ c, ¬ InTransit s.point c)
    (hsame : (s'.sent, s'.threshold, s'.delivered) = (s.sent, s.threshold, s.delivered))
    (hchannel : (s'.outputRx, s'.lost, s'.sentAtPoll) = (s.outputRx, s.lost, s.sentAtPoll))
    (hsending : ∀ c, s'.point ≠ .sending (.output c)) (hpriming : s'.point ≠ .priming)
    (hempty : FoundEmpty s'.point → FoundEmpty s.point) : LoopInv s' taken := by
  simp only [Prod.mk.injEq] at hchannel
  obtain ⟨hrx, hlost, hat⟩ := hchannel
  rw [← List.append_nil taken]
  apply h.take hnone hsame
  · rw [hrx, List.nil_append]
  · rw [hlost]
    exact List.Subset.refl _
  · intro c hc
    rw [hlost] at hc
    exact Or.inl hc
  · exact fun c hc => absurd hc List.not_mem_nil
  · exact fun c hc => absurd hc (hsending c)
  · exact hpriming
  · intro hp
    rw [hat, ← h.polled (hempty hp), List.length_nil, Nat.add_zero]

/-- INTERNAL: The poll of the receiver takes the chunks that it returns or that it lost.
SRC: main.rs:1602-1621 -/
theorem loopInv_pollOutput {s : LiveLoop ε} {taken : List (ℕ × List UInt8)} (h : LoopInv s taken)
    (hpoint : s.point = .pollOutput) : ∃ taken', LoopInv s.pollOutput taken' := by
  have hnone : ∀ c, ¬ InTransit s.point c := by
    rw [hpoint]
    exact not_inTransit (fun c hc => by cases hc) (fun hc => by cases hc)
  unfold LiveLoop.pollOutput
  dsimp only
  split
  · -- the oldest chunks are overwritten
    have hrx := (List.take_append_drop (s.outputRx.length - outputChannelCapacity) s.outputRx).symm
    generalize s.outputRx.length - outputChannelCapacity = skipped at hrx ⊢
    refine ⟨taken ++ s.outputRx.take skipped, ?_⟩
    refine h.take hnone rfl hrx (List.subset_append_left _ _) (fun c hc => List.mem_append.mp hc)
      ?_ ?_ ?_ ?_
    · exact fun c hc => Or.inl (List.mem_append_right _ hc)
    · exact fun c hc => by cases hc
    · exact fun hc => by cases hc
    · exact fun hc => hc.elim
  · split
    · -- the receiver is empty: everything broadcast so far was taken
      rename_i hrx
      refine ⟨taken ++ [], h.take hnone rfl rfl (List.Subset.refl _) (fun c hc => Or.inl hc)
        ?_ ?_ ?_ ?_⟩
      · exact fun c hc => absurd hc List.not_mem_nil
      · exact fun c hc => by cases hc
      · exact fun hc => by cases hc
      · intro _
        simp only [h.split, hrx, List.append_nil, List.length_nil, Nat.add_zero]
    · rename_i chunk rest hrx
      split
      · rename_i hle
        refine ⟨taken ++ [chunk], h.take hnone rfl hrx (List.Subset.refl _)
          (fun c hc => Or.inl hc) ?_ ?_ ?_ ?_⟩
        · intro c hc
          rw [List.mem_singleton.mp hc]
          exact Or.inr (Or.inl hle)
        · exact fun c hc => by cases hc
        · exact fun hc => by cases hc
        · exact fun hc => hc.elim
      · refine ⟨taken ++ [chunk], h.take hnone rfl hrx (List.Subset.refl _)
          (fun c hc => Or.inl hc) ?_ ?_ ?_ ?_⟩
        · intro c hc
          rw [List.mem_singleton.mp hc]
          exact Or.inr (Or.inr (Or.inr (Or.inl rfl)))
        · intro c hc
          cases hc
          exact List.mem_singleton_self _
        · exact fun hc => by cases hc
        · exact fun hc => hc.elim

theorem FoundEmpty.not_inTransit {p : LoopPoint ε} (h : FoundEmpty p) (c : ℕ × List UInt8) :
    ¬ InTransit p c := by
  rintro (rfl | rfl)
  · exact h
  · exact h

/-- A poll that is not of the receiver. -/
structure QuietPoll (s s' : LiveLoop ε) : Prop where
  from_empty : FoundEmpty s.point
  same : (s'.sent, s'.threshold, s'.delivered) = (s.sent, s.threshold, s.delivered)
  channel : (s'.outputRx, s'.lost, s'.sentAtPoll) = (s.outputRx, s.lost, s.sentAtPoll)
  sending : ∀ c, s'.point ≠ .sending (.output c)
  priming : s'.point ≠ .priming

/-- INTERNAL: Only the first poll of a round touches the receiver.
SRC: main.rs:1600-1649 -/
theorem quietPoll_of_poll {s s' : LiveLoop ε} {due : Bool} (hstep : s.poll due = some s')
    (hne : s.point ≠ .pollOutput) : QuietPoll s s' := by
  unfold LiveLoop.poll at hstep
  split at hstep
  · rename_i hpoint
    exact absurd hpoint hne
  · rename_i hpoint
    rw [← Option.some_inj.mp hstep]
    unfold LiveLoop.pollLifecycle
    split <;> exact ⟨by rw [hpoint]; trivial, rfl, rfl, by simp, by simp⟩
  · rename_i hpoint
    rw [← Option.some_inj.mp hstep]
    unfold LiveLoop.pollFinalExit
    split_ifs <;> exact ⟨by rw [hpoint]; trivial, rfl, rfl, by simp, by simp⟩
  · rename_i hpoint
    rw [← Option.some_inj.mp hstep]
    unfold LiveLoop.loadExited LiveLoop.checkFailed
    split_ifs <;> exact ⟨by rw [hpoint]; trivial, rfl, rfl, by simp, by simp⟩
  · rename_i hpoint
    rw [← Option.some_inj.mp hstep]
    unfold LiveLoop.loadRestartPending LiveLoop.checkFailed
    split_ifs <;> exact ⟨by rw [hpoint]; trivial, rfl, rfl, by simp, by simp⟩
  · rename_i hpoint
    rw [← Option.some_inj.mp hstep]
    unfold LiveLoop.pollHeartbeat
    split_ifs <;> exact ⟨by rw [hpoint]; trivial, rfl, rfl, by simp, by simp⟩
  · cases hstep
  · cases hstep
  · cases hstep

theorem loopInv_poll {s s' : LiveLoop ε} {taken : List (ℕ × List UInt8)} {due : Bool}
    (h : LoopInv s taken) (hstep : s.poll due = some s') : ∃ taken', LoopInv s' taken' := by
  by_cases hpoint : s.point = .pollOutput
  · have hs' : s.pollOutput = s' := by
      unfold LiveLoop.poll at hstep
      rw [hpoint] at hstep
      exact Option.some_inj.mp hstep
    rw [← hs']
    exact loopInv_pollOutput h hpoint
  · have hquiet := quietPoll_of_poll hstep hpoint
    exact ⟨taken, h.moveTo hquiet.from_empty.not_inTransit hquiet.same hquiet.channel
      hquiet.sending hquiet.priming fun _ => hquiet.from_empty⟩

/-- INTERNAL: A completed send delivers what was on its way.
SRC: main.rs:1613-1619 -/
theorem loopInv_sendOk {s s' : LiveLoop ε} {taken : List (ℕ × List UInt8)} (h : LoopInv s taken)
    (hstep : s.sendOk = some s') : LoopInv s' taken := by
  obtain ⟨event, hpoint, hdelivered, hnext⟩ : ∃ event, s.point = .sending event ∧
      s'.delivered = s.delivered ++ [event] ∧
      (s'.sent, s'.threshold, s'.outputRx, s'.lost, s'.point) =
        (s.sent, s.threshold, s.outputRx, s.lost, s'.point) ∧
      (s'.point = .pollOutput ∨ s'.point = .ended) := by
    unfold LiveLoop.sendOk at hstep
    split at hstep
    · rename_i code hpoint
      rw [← Option.some_inj.mp hstep]
      exact ⟨_, hpoint, rfl, rfl, Or.inr rfl⟩
    · rename_i event _ hpoint
      rw [← Option.some_inj.mp hstep]
      exact ⟨event, hpoint, rfl, rfl, Or.inl rfl⟩
    · cases hstep
  obtain ⟨hsame, hto⟩ := hnext
  simp only [Prod.mk.injEq, and_true] at hsame
  obtain ⟨hsent, hthreshold, hrx, hlost⟩ := hsame
  have hidle : ∀ c, s'.point ≠ .sending (.output c) := by
    intro c hc
    rcases hto with hp | hp
    · rw [hp] at hc
      cases hc
    · rw [hp] at hc
      cases hc
  constructor
  case split => rw [hsent, hrx, h.split]
  case settled =>
    intro c hc
    unfold Settled
    rw [hlost, hthreshold, hdelivered]
    rcases h.settled c hc with hl | ht | hd | hp
    · exact Or.inl hl
    · exact Or.inr (Or.inl ht)
    · exact Or.inr (Or.inr (Or.inl (List.mem_append_left _ hd)))
    · rcases hp with hp | hp
      · rw [hpoint] at hp
        cases hp
        exact Or.inr (Or.inr (Or.inl (List.mem_append_right _ (List.mem_singleton_self _))))
      · rw [hpoint] at hp
        cases hp
  case lost =>
    rw [hlost]
    exact h.lost
  case delivered =>
    rintro c (hc | hc)
    · rw [hdelivered] at hc
      rcases List.mem_append.mp hc with hold | hnew
      · exact h.delivered c (Or.inl hold)
      · apply h.delivered c
        right
        rw [hpoint, List.mem_singleton.mp hnew]
    · exact absurd hc (hidle c)
  case priming =>
    intro hp
    rcases hto with hto | hto
    · rw [hto] at hp
      cases hp
    · rw [hto] at hp
      cases hp
  case polled =>
    intro hp
    rcases hto with hto | hto
    · rw [hto] at hp
      exact hp.elim
    · rw [hto] at hp
      exact hp.elim

theorem loopInv_sendErr {s s' : LiveLoop ε} {taken : List (ℕ × List UInt8)} (h : LoopInv s taken)
    (hstep : s.sendErr = some s') : LoopInv s' taken := by
  unfold LiveLoop.sendErr at hstep
  split at hstep
  · rw [← Option.some_inj.mp hstep]
    constructor
    case split => exact h.split
    case settled => exact fun c _ => Or.inr (Or.inr (Or.inr (Or.inr rfl)))
    case lost => exact h.lost
    case delivered =>
      rintro c (hc | hc)
      · exact h.delivered c (Or.inl hc)
      · cases hc
    case priming =>
      intro hp
      cases hp
    case polled => exact fun hp => hp.elim
  · cases hstep

theorem loopInv_goLive {s s' : LiveLoop ε} {taken : List (ℕ × List UInt8)} {threshold : ℕ}
    (h : LoopInv s taken) (hstep : s.goLive threshold = some s') : LoopInv s' taken := by
  unfold LiveLoop.goLive at hstep
  split at hstep
  · rename_i hpoint
    have htaken : taken = [] := h.priming hpoint
    rw [← Option.some_inj.mp hstep]
    constructor
    case split => exact h.split
    case settled =>
      intro c hc
      rw [htaken] at hc
      exact absurd hc List.not_mem_nil
    case lost => exact h.lost
    case delivered =>
      rintro c (hc | hc)
      · exact h.delivered c (Or.inl hc)
      · cases hc
    case priming =>
      intro hp
      cases hp
    case polled => exact fun hp => hp.elim
  · cases hstep

/-! ## Runs -/

/-- The state of the loop, as far as the invariants look at it. -/
def LiveLoop.view (s : LiveLoop ε) :=
  (s.sent, s.outputRx, s.lost, s.threshold, s.delivered, s.point, s.sentAtPoll, s.outputSeq)

def LoopConsistent (s : LiveLoop ε) : Prop := SentInv s ∧ ∃ taken, LoopInv s taken

theorem LoopConsistent.congr {s s' : LiveLoop ε} (h : LoopConsistent s)
    (hview : LiveLoop.view s' = LiveLoop.view s) : LoopConsistent s' := by
  simp only [LiveLoop.view, Prod.mk.injEq] at hview
  obtain ⟨hsent, hrx, hlost, hthreshold, hdelivered, hpoint, hat, hseq⟩ := hview
  obtain ⟨⟨hincreasing, hle⟩, taken, hinv⟩ := h
  constructor
  · constructor
    · rwa [hsent]
    · rwa [hsent, hseq]
  · refine ⟨taken, ?_⟩
    constructor
    case split => rw [hsent, hrx, hinv.split]
    case settled =>
      unfold Settled
      rw [hlost, hthreshold, hdelivered, hpoint]
      exact hinv.settled
    case lost =>
      rw [hlost]
      exact hinv.lost
    case delivered =>
      rw [hdelivered, hpoint]
      exact hinv.delivered
    case priming =>
      rw [hpoint]
      exact hinv.priming
    case polled =>
      rw [hpoint, hat]
      exact hinv.polled

/-- The loop itself never broadcasts. -/
theorem sentInv_of_sent {s s' : LiveLoop ε} (h : SentInv s)
    (hsame : (s'.sent, s'.outputSeq) = (s.sent, s.outputSeq)) : SentInv s' := by
  simp only [Prod.mk.injEq] at hsame
  obtain ⟨hsent, hseq⟩ := hsame
  constructor
  · rw [hsent]
    exact h.increasing
  · rw [hsent, hseq]
    exact h.le

theorem poll_sent {s s' : LiveLoop ε} {due : Bool} (hstep : s.poll due = some s') :
    (s'.sent, s'.outputSeq) = (s.sent, s.outputSeq) := by
  unfold LiveLoop.poll at hstep
  split at hstep
  · rw [← Option.some_inj.mp hstep]
    unfold LiveLoop.pollOutput
    dsimp only
    split
    · rfl
    · split
      · rfl
      · split <;> rfl
  · rw [← Option.some_inj.mp hstep]
    unfold LiveLoop.pollLifecycle
    split <;> rfl
  · rw [← Option.some_inj.mp hstep]
    unfold LiveLoop.pollFinalExit
    split_ifs <;> rfl
  · rw [← Option.some_inj.mp hstep]
    unfold LiveLoop.loadExited LiveLoop.checkFailed
    split_ifs <;> rfl
  · rw [← Option.some_inj.mp hstep]
    unfold LiveLoop.loadRestartPending LiveLoop.checkFailed
    split_ifs <;> rfl
  · rw [← Option.some_inj.mp hstep]
    unfold LiveLoop.pollHeartbeat
    split_ifs <;> rfl
  · cases hstep
  · cases hstep
  · cases hstep

/-- INTERNAL: Every step of the pane and of the loop keeps the invariants. -/
theorem loopConsistent_step {s s' : LiveLoop ε} {e : LoopEvent ε} (h : LoopConsistent s)
    (hstep : s.step e = some s') : LoopConsistent s' := by
  obtain ⟨hsent, taken, hinv⟩ := id h
  cases e with
  | chunk payload =>
      rw [← Option.some_inj.mp hstep]
      exact ⟨sentInv_chunk hsent payload, taken, loopInv_chunk hinv payload⟩
  | reap code =>
      rw [← Option.some_inj.mp hstep]
      exact h.congr rfl
  | storeExited =>
      unfold LiveLoop.step LiveLoop.storeExited at hstep
      dsimp only at hstep
      split at hstep
      · cases hstep
      · rw [← Option.some_inj.mp hstep]
        exact h.congr rfl
  | respawn =>
      unfold LiveLoop.step LiveLoop.respawn at hstep
      dsimp only at hstep
      split at hstep
      · rw [← Option.some_inj.mp hstep]
        exact h.congr rfl
      · cases hstep
  | setRestartPending pending =>
      rw [← Option.some_inj.mp hstep]
      exact h.congr rfl
  | notifyWaiters =>
      rw [← Option.some_inj.mp hstep]
      exact h.congr rfl
  | emitLifecycle event =>
      rw [← Option.some_inj.mp hstep]
      exact h.congr rfl
  | goLive threshold =>
      have hsame : (s'.sent, s'.outputSeq) = (s.sent, s.outputSeq) := by
        unfold LiveLoop.step LiveLoop.goLive at hstep
        dsimp only at hstep
        split at hstep
        · rw [← Option.some_inj.mp hstep]
          rfl
        · cases hstep
      exact ⟨sentInv_of_sent hsent hsame, taken, loopInv_goLive hinv hstep⟩
  | poll due => exact ⟨sentInv_of_sent hsent (poll_sent hstep), loopInv_poll hinv hstep⟩
  | sendOk =>
      have hsame : (s'.sent, s'.outputSeq) = (s.sent, s.outputSeq) := by
        unfold LiveLoop.step LiveLoop.sendOk at hstep
        dsimp only at hstep
        split at hstep
        · rw [← Option.some_inj.mp hstep]
        · rw [← Option.some_inj.mp hstep]
          rfl
        · cases hstep
      exact ⟨sentInv_of_sent hsent hsame, taken, loopInv_sendOk hinv hstep⟩
  | sendErr =>
      have hsame : (s'.sent, s'.outputSeq) = (s.sent, s.outputSeq) := by
        unfold LiveLoop.step LiveLoop.sendErr at hstep
        dsimp only at hstep
        split at hstep
        · rw [← Option.some_inj.mp hstep]
        · cases hstep
      exact ⟨sentInv_of_sent hsent hsame, taken, loopInv_sendErr hinv hstep⟩

theorem loopConsistent_new (outputSeq : ℕ) (exited restartPending : Bool) :
    LoopConsistent (LiveLoop.new outputSeq exited restartPending : LiveLoop ε) := by
  constructor
  · exact ⟨List.Pairwise.nil, fun c hc => absurd hc List.not_mem_nil⟩
  · refine ⟨[], ?_⟩
    constructor
    case split => rfl
    case settled => exact fun c hc => absurd hc List.not_mem_nil
    case lost => exact fun c hc => hc
    case delivered =>
      rintro c (hc | hc)
      · cases hc
      · cases hc
    case priming => exact fun _ => rfl
    case polled => exact fun hp => hp.elim

/-- INTERNAL: Whenever the loop reports the exit, the output before it was forwarded if and only
if the reader thread broadcast nothing for the client between the last poll of the receiver and
the store of `exited`.
SRC: main.rs:1593-1650, pane.rs:586-647 -/
theorem exitInOrder_iff {outputSeq : ℕ} {exited restartPending : Bool} {es : List (LoopEvent ε)}
    {s : LiveLoop ε} (hrun : run LiveLoop.step (.new outputSeq exited restartPending) es = some s)
    (hreport : Reporting s) :
    ExitInOrder s ↔ ∀ c ∈ lateChunks s, c.1 ≤ s.threshold := by
  obtain ⟨hsent, taken, hinv⟩ : LoopConsistent s :=
    run_invariant LoopConsistent (fun _ => True) (fun _ _ _ _ h hstep => loopConsistent_step h hstep)
      (fun _ _ => trivial) (loopConsistent_new outputSeq exited restartPending) hrun
  obtain ⟨code, hpoint⟩ := hreport
  have hempty : FoundEmpty s.point := by
    rw [hpoint]
    trivial
  have hlength : taken.length = s.sentAtPoll := hinv.polled hempty
  constructor
  · intro horder c hc
    have hmem : c ∈ s.sent.take s.exitSeen := List.mem_of_mem_drop hc
    have hrx : c ∈ s.outputRx := by
      have hdrop : c ∈ s.sent.drop s.sentAtPoll := by
        unfold lateChunks at hc
        rw [List.drop_take] at hc
        exact List.mem_of_mem_take hc
      rwa [hinv.split, ← hlength, List.drop_left] at hdrop
    -- a chunk still in the receiver has a higher number than every chunk taken from it
    have hnot : c ∉ taken := by
      intro htaken
      have hlt := hsent.increasing
      rw [hinv.split, List.map_append, List.pairwise_append] at hlt
      have := hlt.2.2 c.1 (List.mem_map_of_mem htaken) c.1 (List.mem_map_of_mem hrx)
      omega
    rcases horder c hmem with hl | ht | hd
    · exact absurd (hinv.lost c hl) hnot
    · exact ht
    · exact absurd (hinv.delivered c (Or.inl hd)) hnot
  · intro hlate c hc
    by_cases htaken : c ∈ taken
    · rcases hinv.settled c htaken with hl | ht | hd | hp
      · exact Or.inl hl
      · exact Or.inr (Or.inl ht)
      · exact Or.inr (Or.inr hd)
      · exact absurd hp (hempty.not_inTransit c)
    · right
      left
      apply hlate
      unfold lateChunks
      have hsplit : c ∈ taken.take s.exitSeen ++ s.outputRx.take (s.exitSeen - taken.length) := by
        rw [hinv.split, List.take_append] at hc
        exact hc
      rcases List.mem_append.mp hsplit with hc | hc
      · exact absurd (List.mem_of_mem_take hc) htaken
      · rw [List.drop_take, hinv.split, ← hlength, List.drop_left]
        exact hc

/-- The loop forwards a chunk and then reports the exit. -/
def forwardedRun : List (LoopEvent Unit) :=
  [.goLive 0, .chunk [104, 105], .reap (some 0), .storeExited, .poll false, .sendOk,
    .poll false, .poll false, .poll false, .poll false, .poll false]

theorem exitInOrder_iff_forwarded :
    ∃ s, run LiveLoop.step (.new 0 false false) forwardedRun = some s ∧ Reporting s ∧
      (ExitInOrder s ↔ ∀ c ∈ lateChunks s, c.1 ≤ s.threshold) := by
  obtain ⟨s, hs⟩ : ∃ s, run LiveLoop.step (.new 0 false false) forwardedRun = some s := ⟨_, rfl⟩
  have hreport : Reporting s := by
    cases hs
    exact ⟨_, rfl⟩
  exact ⟨s, hs, hreport, exitInOrder_iff hs hreport⟩

/-- The receiver is polled, then the last chunk is broadcast and `exited` is stored, then the
final exit is polled. -/
def lateRun : List (LoopEvent Unit) :=
  [.goLive 0, .poll false, .chunk [104, 105], .reap (some 0), .storeExited, .poll false,
    .poll false, .poll false, .poll false]

theorem not_exitInOrder_late :
    ∃ s, run LiveLoop.step (.new 0 false false) lateRun = some s ∧ Reporting s ∧ ¬ ExitInOrder s := by
  refine ⟨_, rfl, ⟨some 0, rfl⟩, ?_⟩
  intro h
  rcases h (1, [104, 105]) (by decide) with hl | ht | hd
  · exact absurd hl (by decide)
  · exact absurd ht (by decide)
  · exact absurd hd (by decide)

end Tymux.Analysis
