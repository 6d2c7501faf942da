import Tymux.Model.Selecting
import Tymux.Lib.Keyed
import Tymux.Lib.Total

/-!
# One re-probe per interval

A claim moves `nextUnixProbe` to one interval after it, and stays there: a claim that is handed back
restores what was due before it, and only where nothing has been scheduled since. So a claim that is
not handed back keeps every later one an interval away (`Spaced`), whatever the other calls do with
the claims that they still hold.
-/

set_option autoImplicit false

namespace Tymux.Analysis.ReprobeClaims

open Tymux.Model Tymux.Lib SelectingClient

/-! ## What a run shows -/

/-- The client and what its clock has said last. -/
structure Clocked where
  client : SelectingClient
  clock : ℕ

/-- The clock does not go back. -/
def Forward (t : ℕ) : SelectingEvent → Prop
  | .locked _ now later => t ≤ now ∧ now ≤ later
  | _ => True

instance (t : ℕ) : ∀ e, Decidable (Forward t e)
  | .locked _ now later => inferInstanceAs (Decidable (t ≤ now ∧ now ≤ later))
  | .invoke _ | .attach _ | .observe _ _ _ | .probed _ _ _ | .answered _ _ => isTrue trivial

def reading (t : ℕ) : SelectingEvent → ℕ
  | .locked _ _ later => later
  | _ => t

def clockedStep (s : Clocked) (e : SelectingEvent) : Option Clocked :=
  if Forward s.clock e then (step s.client e).map fun s' => ⟨s', reading s.clock e⟩ else none

/-- Where the call stands. -/
def stage (s : SelectingClient) (c : ℕ) : Option SelectingStage :=
  (s.calls.lookup c).map SelectingCall.stage

/-- A re-probe: the attempt that has claimed it, when it was due, and when it was claimed. -/
structure Reprobe where
  call : ℕ
  retry : Bool
  due : ℕ
  claimedAt : ℕ

/-- The step claims the re-probe.
SRC: selecting.go:199-202 -/
structure Claims (s : Clocked) (e : SelectingEvent) (s' : Clocked) (p : Reprobe) : Prop where
  event : ∃ now, e = .locked p.call now p.claimedAt
  before : stage s.client p.call = some (.pick p.retry)
  due : s.client.nextUnixProbe = p.due
  after : ∃ claimed, stage s'.client p.call = some (.reprobing p.retry p.due claimed)

/-- The re-probe ends by the cancellation of its own caller.
SRC: selecting.go:211-212 -/
def Cancels (p : Reprobe) (s s' : SelectingClient) : Prop :=
  (∃ prev claimed, stage s p.call = some (.reprobing p.retry prev claimed)) ∧
    ∃ prev claimed, stage s' p.call = some (.returningClaim p.retry prev claimed)

/-- The step hands the claim back, or would.
SRC: selecting.go:212-216 -/
structure Returns (s : Clocked) (e : SelectingEvent) (p : Reprobe) : Prop where
  event : ∃ now later, e = .locked p.call now later
  before : ∃ prev claimed, stage s.client p.call = some (.returningClaim p.retry prev claimed)

/-- A probe is scheduled: another claim, or a fall back to TCP.
SRC: selecting.go:202, 242-244 -/
def Schedules (s s' : SelectingClient) : Prop :=
  (∃ c retry prev claimed, stage s c = some (.pick retry) ∧
    stage s' c = some (.reprobing retry prev claimed)) ∨ (s.useTcp = false ∧ s'.useTcp = true)

/-- The call holds a claim that it may still hand back. -/
def Outstanding (s : SelectingClient) (c : ℕ) (retry : Bool) (prev claimed : ℕ) : Prop :=
  stage s c = some (.reprobing retry prev claimed) ∨
    stage s c = some (.returningClaim retry prev claimed)

section

variable {s s' : SelectingClient} {c : ℕ} {call : SelectingCall}

/-! ## What a step does to the schedule -/

theorem stage_setCall (s : SelectingClient) (c c' : ℕ) (call : SelectingCall) :
    stage (s.setCall c call) c' = if c' = c then some call.stage else stage s c' := by
  unfold stage setCall
  by_cases hc : c' = c
  · rw [if_pos hc, hc, AList.lookup_insert]
    rfl
  · rw [if_neg hc, AList.lookup_insert_ne hc]

/-- The stage is not one of a call that holds a claim. -/
def Free : SelectingStage → Prop
  | .reprobing _ _ _ | .returningClaim _ _ _ => False
  | _ => True

/-- Only `c` has moved, and it holds no claim now. -/
structure Moves (s s' : SelectingClient) (c : ℕ) : Prop where
  here : ∀ st, stage s' c = some st → Free st
  others : ∀ c', c' ≠ c → stage s' c' = stage s c'

theorem Moves.outstanding (h : Moves s s' c) {c' : ℕ} {retry : Bool} {prev claimed : ℕ}
    (hout : Outstanding s' c' retry prev claimed) : c' ≠ c ∧ Outstanding s c' retry prev claimed := by
  have hne : c' ≠ c := by
    rintro rfl
    obtain hreprobing | hreturning := hout
    · exact h.here _ hreprobing
    · exact h.here _ hreturning
  unfold Outstanding at hout ⊢
  rw [h.others c' hne] at hout
  exact ⟨hne, hout⟩

theorem moves_setCall (h : Free call.stage) (hcalls : s'.calls = s.calls) :
    Moves s (s'.setCall c call) c := by
  have hstage : ∀ c', stage s' c' = stage s c' := by
    intro c'
    unfold stage
    rw [hcalls]
  refine ⟨fun st hst => ?_, fun c' hne => ?_⟩
  · rw [stage_setCall, if_pos rfl, Option.some_inj] at hst
    exact hst ▸ h
  · rw [stage_setCall, if_neg hne, hstage]

/-- INTERNAL: what a step may do to the schedule, and to the claims that calls hold. -/
inductive Effect (s : SelectingClient) : SelectingEvent → SelectingClient → Prop
  | claim {c now later : ℕ} {retry : Bool} {s' : SelectingClient}
      (hdue : s.nextUnixProbe ≤ now) (hbefore : stage s c = some (.pick retry))
      (hnext : s'.nextUnixProbe = later + s.reprobeInterval)
      (hafter : stage s' c =
        some (.reprobing retry s.nextUnixProbe (later + s.reprobeInterval)))
      (hothers : ∀ c', c' ≠ c → stage s' c' = stage s c') : Effect s (.locked c now later) s'
  | fallBack {c now later : ℕ} {s' : SelectingClient}
      (htcp : s.useTcp = false ∧ s'.useTcp = true)
      (hnext : s'.nextUnixProbe = now + s.reprobeInterval) (hmoves : Moves s s' c) :
      Effect s (.locked c now later) s'
  | hand {c now later : ℕ} {retry : Bool} {prev claimed : ℕ} {s' : SelectingClient}
      (hbefore : stage s c = some (.returningClaim retry prev claimed))
      (hclaimed : s.nextUnixProbe = claimed) (hnext : s'.nextUnixProbe = prev)
      (hmoves : Moves s s' c) : Effect s (.locked c now later) s'
  | keep {e : SelectingEvent} {s' : SelectingClient}
      (hnext : s'.nextUnixProbe = s.nextUnixProbe)
      (hout : ∀ c retry prev claimed, Outstanding s' c retry prev claimed →
        Outstanding s c retry prev claimed) : Effect s e s'

theorem Effect.of_moves {e : SelectingEvent} (hnext : s'.nextUnixProbe = s.nextUnixProbe)
    (hmoves : Moves s s' c) : Effect s e s' :=
  .keep hnext fun _ _ _ _ hout => (hmoves.outstanding hout).2

theorem stage_eq_some (hcall : s.calls.lookup c = some call) : stage s c = some call.stage := by
  unfold stage
  rw [hcall]
  rfl

theorem effect_send (hcall : s.calls.lookup c = some call) (e : SelectingEvent) (retry : Bool) :
    (s.send c call retry).reprobeInterval = s.reprobeInterval ∧ Effect s e (s.send c call retry) := by
  refine ⟨rfl, .of_moves rfl (moves_setCall ?_ rfl)⟩
  obtain ⟨mode, st, history⟩ := call
  cases mode with
  | attach => trivial
  | invoke => trivial
  | observe => trivial

theorem moves_failedOver (call : SelectingCall) (hcalls : s'.calls = s.calls) :
    Moves s (s'.failedOver c call) c := by
  unfold failedOver
  split
  · exact moves_setCall trivial hcalls
  · exact moves_setCall trivial hcalls

@[simp] theorem nextUnixProbe_failedOver (s : SelectingClient) (c : ℕ) (call : SelectingCall) :
    (s.failedOver c call).nextUnixProbe = s.nextUnixProbe := by
  unfold failedOver
  split
  · rfl
  · rfl

@[simp] theorem reprobeInterval_failedOver (s : SelectingClient) (c : ℕ) (call : SelectingCall) :
    (s.failedOver c call).reprobeInterval = s.reprobeInterval := by
  unfold failedOver
  split
  · rfl
  · rfl

@[simp] theorem useTcp_failedOver (s : SelectingClient) (c : ℕ) (call : SelectingCall) :
    (s.failedOver c call).useTcp = s.useTcp := by
  unfold failedOver
  split
  · rfl
  · rfl

theorem switchTo_unix (s : SelectingClient) (now : ℕ) :
    (s.switchTo .unix now).calls = s.calls ∧
      (s.switchTo .unix now).nextUnixProbe = s.nextUnixProbe ∧
      (s.switchTo .unix now).reprobeInterval = s.reprobeInterval := by
  unfold switchTo
  split
  · exact ⟨rfl, rfl, rfl⟩
  · exact ⟨rfl, rfl, rfl⟩

/-- SRC: selecting.go:197-225, 235-255, 295-315 -/
theorem effect_lockedStep (hcall : s.calls.lookup c = some call) {now later : ℕ}
    (hstep : s.lockedStep c call now later = some s') :
    s'.reprobeInterval = s.reprobeInterval ∧ Effect s (.locked c now later) s' := by
  have hstage := stage_eq_some hcall
  cases hst : call.stage with
  | pick retry =>
      simp only [lockedStep, hst] at hstep
      rw [hst] at hstage
      split at hstep
      · rename_i hdue
        cases hstep
        refine ⟨rfl, .claim (Nat.le_of_not_lt hdue.2.2) hstage rfl ?_ ?_⟩
        · unfold goto
          rw [stage_setCall, if_pos rfl]
        · intro c' hne
          unfold goto
          rw [stage_setCall, if_neg hne]
          rfl
      · cases hstep
        exact effect_send hcall _ retry
  | reprobed retry =>
      simp only [lockedStep, hst, Option.some_inj] at hstep
      subst hstep
      obtain ⟨hcalls, hnext, hinterval⟩ := switchTo_unix s now
      exact ⟨hinterval, .of_moves hnext (moves_setCall trivial hcalls)⟩
  | returningClaim retry prev claimed =>
      simp only [lockedStep, hst, Option.some_inj] at hstep
      rw [hst] at hstage
      subst hstep
      by_cases hclaimed : s.nextUnixProbe = claimed
      · rw [if_pos hclaimed]
        exact ⟨rfl, .hand hstage hclaimed rfl (moves_setCall trivial rfl)⟩
      · rw [if_neg hclaimed]
        exact ⟨rfl, .of_moves rfl (moves_setCall trivial rfl)⟩
  | rereading retry =>
      simp only [lockedStep, hst, Option.some_inj] at hstep
      subst hstep
      exact effect_send hcall _ retry
  | failover kind =>
      simp only [lockedStep, hst] at hstep
      split at hstep
      · cases hstep
        exact ⟨reprobeInterval_failedOver .., .of_moves (nextUnixProbe_failedOver ..)
          (moves_failedOver call rfl)⟩
      · cases kind with
        | unix =>
            cases hstep
            refine ⟨rfl, .of_moves rfl (moves_setCall ?_ rfl)⟩
            dsimp only
            split
            · trivial
            · trivial
        | tcp =>
            cases hstep
            refine ⟨rfl, .of_moves rfl (moves_setCall ?_ rfl)⟩
            dsimp only
            split
            · trivial
            · trivial
  | switching target =>
      simp only [lockedStep, hst, Option.some_inj] at hstep
      subst hstep
      cases target with
      | unix =>
          obtain ⟨hcalls, hnext, hinterval⟩ := switchTo_unix s now
          refine ⟨?_, .of_moves ?_ (moves_failedOver call hcalls)⟩
          · rw [reprobeInterval_failedOver, hinterval]
          · rw [nextUnixProbe_failedOver, hnext]
      | tcp =>
          cases htcp : s.useTcp with
          | true =>
              have hsame : s.switchTo .tcp now = s := by
                unfold switchTo active
                rw [htcp]
                rfl
              rw [hsame]
              exact ⟨reprobeInterval_failedOver .., .of_moves (nextUnixProbe_failedOver ..)
                (moves_failedOver call rfl)⟩
          | false =>
              have hswitched : s.switchTo .tcp now =
                  { s with useTcp := true, nextUnixProbe := now + s.reprobeInterval } := by
                unfold switchTo active
                rw [htcp]
                rfl
              rw [hswitched]
              refine ⟨reprobeInterval_failedOver .., .fallBack ⟨htcp, useTcp_failedOver ..⟩
                (nextUnixProbe_failedOver ..) (moves_failedOver call rfl)⟩
  | reprobing retry prev claimed => simp [lockedStep, hst] at hstep
  | calling retry kind => simp [lockedStep, hst] at hstep
  | probingTcp => simp [lockedStep, hst] at hstep
  | streaming kind => simp [lockedStep, hst] at hstep
  | done => simp [lockedStep, hst] at hstep

/-- SRC: selecting.go:203-218, 303-306 -/
theorem effect_probed (hcall : s.calls.lookup c = some call) {err : Option TransportError}
    {cancelled : Bool} (e : SelectingEvent) (hstep : s.probed c call err cancelled = some s') :
    s'.reprobeInterval = s.reprobeInterval ∧ Effect s e s' := by
  have hstage := stage_eq_some hcall
  cases hst : call.stage with
  | reprobing retry prev claimed =>
      rw [hst] at hstage
      simp only [probed, hst] at hstep
      cases err with
      | none =>
          cases hstep
          exact ⟨rfl, .of_moves rfl (moves_setCall trivial rfl)⟩
      | some err =>
          dsimp only at hstep
          split at hstep
          · cases hstep
            exact ⟨rfl, .of_moves rfl (moves_setCall trivial rfl)⟩
          · split at hstep
            · cases hstep
              refine ⟨rfl, .keep rfl fun c' retry' prev' claimed' hout => ?_⟩
              unfold Outstanding goto at hout
              rw [stage_setCall] at hout
              by_cases hc : c' = c
              · rw [if_pos hc] at hout
                obtain hout | hout := hout
                · cases hout
                · cases hout
                  exact Or.inl (hc ▸ hstage)
              · rw [if_neg hc] at hout
                exact hout
            · cases hstep
              exact ⟨rfl, .of_moves rfl (moves_setCall trivial rfl)⟩
  | probingTcp =>
      simp only [probed, hst, Option.some_inj] at hstep
      subst hstep
      refine ⟨rfl, .of_moves rfl (moves_setCall ?_ rfl)⟩
      dsimp only
      split
      · trivial
      · trivial
  | pick retry => simp [probed, hst] at hstep
  | reprobed retry => simp [probed, hst] at hstep
  | returningClaim retry prev claimed => simp [probed, hst] at hstep
  | rereading retry => simp [probed, hst] at hstep
  | calling retry kind => simp [probed, hst] at hstep
  | failover kind => simp [probed, hst] at hstep
  | switching target => simp [probed, hst] at hstep
  | streaming kind => simp [probed, hst] at hstep
  | done => simp [probed, hst] at hstep

/-- SRC: selecting.go:325-336 -/
theorem effect_answered {err : Option TransportError} (e : SelectingEvent)
    (hstep : s.answered c call err = some s') :
    s'.reprobeInterval = s.reprobeInterval ∧ Effect s e s' := by
  cases hst : call.stage with
  | calling retry kind =>
      simp only [answered, hst] at hstep
      cases err with
      | none =>
          cases hstep
          exact ⟨rfl, .of_moves rfl (moves_setCall trivial rfl)⟩
      | some err =>
          cases hstep
          refine ⟨rfl, .of_moves rfl (moves_setCall ?_ rfl)⟩
          dsimp only
          split
          · trivial
          · trivial
  | _ => simp [answered, hst] at hstep

/-- SRC: stream.go:37-42 -/
theorem effect_observe {o : ℕ} {err : TransportError} (e : SelectingEvent)
    (hstep : s.observe c call o err = some s') :
    s'.reprobeInterval = s.reprobeInterval ∧ Effect s e s' := by
  cases hst : call.stage with
  | streaming kind =>
      simp only [observe, hst] at hstep
      split at hstep
      · cases hstep
      · cases hstep
        have hnoted : Moves s (s.setCall c ⟨call.mode, .streaming kind,
            call.history ++ noted kind err⟩) c := moves_setCall trivial rfl
        refine ⟨rfl, .keep rfl fun c' retry prev claimed hout => ?_⟩
        refine (hnoted.outstanding (Moves.outstanding (moves_setCall ?_ rfl) hout).2).2
        dsimp only
        split
        · trivial
        · trivial
  | _ => simp [observe, hst] at hstep

theorem effect_begin {mode : SelectingMode} (e : SelectingEvent) (hstep : s.begin c mode = some s') :
    s'.reprobeInterval = s.reprobeInterval ∧ Effect s e s' := by
  simp only [begin] at hstep
  split at hstep
  · cases hstep
  · cases hstep
    refine ⟨rfl, .of_moves rfl (moves_setCall ?_ rfl)⟩
    dsimp only
    split
    · trivial
    · trivial

theorem effect_step {e : SelectingEvent} (hstep : step s e = some s') :
    s'.reprobeInterval = s.reprobeInterval ∧ Effect s e s' := by
  cases e with
  | invoke c => exact effect_begin _ hstep
  | attach c => exact effect_begin _ hstep
  | observe c o err =>
      obtain ⟨call, hcall, hstep⟩ := Option.bind_eq_some_iff.mp hstep
      exact effect_observe _ hstep
  | locked c now later =>
      obtain ⟨call, hcall, hstep⟩ := Option.bind_eq_some_iff.mp hstep
      exact effect_lockedStep hcall hstep
  | probed c err cancelled =>
      obtain ⟨call, hcall, hstep⟩ := Option.bind_eq_some_iff.mp hstep
      exact effect_probed hcall _ hstep
  | answered c err =>
      obtain ⟨call, hcall, hstep⟩ := Option.bind_eq_some_iff.mp hstep
      exact effect_answered _ hstep

end

/-! ## The claims that calls hold -/

section

variable {interval : ℕ} {s s' : Clocked} {e : SelectingEvent} {p : Reprobe}

/-- No claim is due later than one interval from now; of two that are held, one was claimed when the
other was due already. -/
structure ClaimInv (interval : ℕ) (s : Clocked) : Prop where
  every : s.client.reprobeInterval = interval
  next : s.client.nextUnixProbe ≤ s.clock + interval
  held : ∀ c retry prev claimed, Outstanding s.client c retry prev claimed →
    prev < claimed ∧ claimed ≤ s.client.nextUnixProbe
  apart : ∀ c retry prev claimed c' retry' prev' claimed',
    Outstanding s.client c retry prev claimed → Outstanding s.client c' retry' prev' claimed' →
      c ≠ c' → claimed ≤ prev' ∨ claimed' ≤ prev

theorem clockedStep_eq_some (hstep : clockedStep s e = some s') :
    Forward s.clock e ∧ step s.client e = some s'.client ∧ s'.clock = reading s.clock e := by
  unfold clockedStep at hstep
  split at hstep
  · rename_i hforward
    obtain ⟨client, hclient, rfl⟩ := Option.map_eq_some_iff.mp hstep
    exact ⟨hforward, hclient, rfl⟩
  · cases hstep

theorem le_reading {t : ℕ} (h : Forward t e) : t ≤ reading t e := by
  cases e with
  | locked c now later => exact h.1.trans h.2
  | _ => exact Nat.le_refl t

theorem claimInv_step (hpos : 0 < interval) (h : ClaimInv interval s)
    (hstep : clockedStep s e = some s') : ClaimInv interval s' := by
  obtain ⟨hforward, hclient, hclock⟩ := clockedStep_eq_some hstep
  obtain ⟨hinterval, heffect⟩ := effect_step hclient
  have hnext := h.next
  have hle := le_reading hforward
  have hsame := hinterval.trans h.every
  cases heffect with
  | @claim c now later retry _ hdue hbefore hnext' hafter hothers =>
      rw [h.every] at hnext' hafter
      have hread : s'.clock = later := hclock
      have hordered : now ≤ later := hforward.2
      have hold : ∀ c' retry' prev' claimed', Outstanding s'.client c' retry' prev' claimed' →
          (c' = c ∧ prev' = s.client.nextUnixProbe ∧ claimed' = later + interval) ∨
            (c' ≠ c ∧ Outstanding s.client c' retry' prev' claimed') := by
        intro c' retry' prev' claimed' hout
        unfold Outstanding at hout ⊢
        by_cases hc : c' = c
        · rw [hc, hafter] at hout
          refine Or.inl ⟨hc, ?_⟩
          obtain hout | hout := hout
          · cases hout
            exact ⟨rfl, rfl⟩
          · cases hout
        · rw [hothers c' hc] at hout
          exact Or.inr ⟨hc, hout⟩
      refine ⟨hsame, by omega, fun c' retry' prev' claimed' hout => ?_, ?_⟩
      · obtain ⟨-, rfl, rfl⟩ | ⟨-, hout⟩ := hold _ _ _ _ hout
        · omega
        · have hheld := h.held _ _ _ _ hout
          omega
      · intro c' retry' prev' claimed' c'' retry'' prev'' claimed'' hout hout' hne
        obtain ⟨rfl, rfl, rfl⟩ | ⟨hc', hout⟩ := hold _ _ _ _ hout
        · obtain ⟨rfl, -, -⟩ | ⟨-, hout'⟩ := hold _ _ _ _ hout'
          · exact absurd rfl hne
          · exact Or.inr (h.held _ _ _ _ hout').2
        · obtain ⟨rfl, rfl, rfl⟩ | ⟨-, hout'⟩ := hold _ _ _ _ hout'
          · exact Or.inl (h.held _ _ _ _ hout).2
          · exact h.apart _ _ _ _ _ _ _ _ hout hout' hne
  | @fallBack c now later _ htcp hnext' hmoves =>
      rw [h.every] at hnext'
      have hread : s'.clock = later := hclock
      have hnow : s.clock ≤ now := hforward.1
      have hordered : now ≤ later := hforward.2
      refine ⟨hsame, by omega, fun c' retry' prev' claimed' hout => ?_, ?_⟩
      · have hheld := h.held _ _ _ _ (hmoves.outstanding hout).2
        omega
      · intro c' retry' prev' claimed' c'' retry'' prev'' claimed'' hout hout' hne
        exact h.apart _ _ _ _ _ _ _ _ (hmoves.outstanding hout).2 (hmoves.outstanding hout').2 hne
  | @hand c now later retry prev claimed _ hbefore hclaimed hnext' hmoves =>
      have hhand : Outstanding s.client c retry prev claimed := Or.inr hbefore
      have hlt := h.held _ _ _ _ hhand
      refine ⟨hsame, by omega, fun c' retry' prev' claimed' hout => ?_, ?_⟩
      · -- a claim that is due after the one before was made before that one
        obtain ⟨hne, hout⟩ := hmoves.outstanding hout
        have hheld := h.held _ _ _ _ hout
        have hapart := h.apart _ _ _ _ _ _ _ _ hhand hout hne.symm
        omega
      · intro c' retry' prev' claimed' c'' retry'' prev'' claimed'' hout hout' hne
        exact h.apart _ _ _ _ _ _ _ _ (hmoves.outstanding hout).2 (hmoves.outstanding hout').2 hne
  | keep hnext' hout =>
      refine ⟨hsame, by omega, fun c' retry' prev' claimed' hout' => ?_, ?_⟩
      · rw [hnext']
        exact h.held _ _ _ _ (hout _ _ _ _ hout')
      · intro c' retry' prev' claimed' c'' retry'' prev'' claimed'' hout₁ hout₂ hne
        exact h.apart _ _ _ _ _ _ _ _ (hout _ _ _ _ hout₁) (hout _ _ _ _ hout₂) hne

/-- INTERNAL: while `p` is not cancelled, no probe is due before one interval after its claim, and no
claim that is still held can bring that back. -/
structure Spaced (interval : ℕ) (p : Reprobe) (s : Clocked) : Prop where
  inv : ClaimInv interval s
  next : p.claimedAt + interval ≤ s.client.nextUnixProbe
  held : ∀ c retry prev claimed, Outstanding s.client c retry prev claimed →
    (c = p.call ∧ retry = p.retry ∧ stage s.client c = some (.reprobing retry prev claimed)) ∨
      claimed < p.claimedAt + interval ∨ p.claimedAt + interval ≤ prev

/-- INTERNAL: what a claim finds and leaves. -/
theorem Claims.effect (hclaims : Claims s e s' p) (hstep : clockedStep s e = some s') :
    s.client.nextUnixProbe ≤ p.claimedAt ∧
      s'.client.nextUnixProbe = p.claimedAt + s.client.reprobeInterval ∧
      stage s'.client p.call =
        some (.reprobing p.retry p.due (p.claimedAt + s.client.reprobeInterval)) ∧
      ∀ c, c ≠ p.call → stage s'.client c = stage s.client c := by
  obtain ⟨hforward, hclient, -⟩ := clockedStep_eq_some hstep
  obtain ⟨-, heffect⟩ := effect_step hclient
  obtain ⟨now, hevent⟩ := hclaims.event
  obtain ⟨claimed, hafter⟩ := hclaims.after
  have hbefore := hclaims.before
  have hdue := hclaims.due
  cases heffect with
  | claim hdue' hpick hnext hreprobing hothers =>
      cases hevent
      rw [hbefore] at hpick
      cases hpick
      rw [hdue] at hreprobing
      exact ⟨hdue'.trans hforward.2, hnext, hreprobing, hothers⟩
  | fallBack htcp hnext hmoves =>
      cases hevent
      exact absurd (hmoves.here _ hafter) id
  | hand hreturning hclaimed hnext hmoves =>
      cases hevent
      rw [hbefore] at hreturning
      cases hreturning
  | keep hnext hout =>
      have hheld := hout _ _ _ _ (Or.inl hafter)
      unfold Outstanding at hheld
      rw [hbefore] at hheld
      obtain hheld | hheld := hheld
      · cases hheld
      · cases hheld

theorem spaced_claims (hpos : 0 < interval) (h : ClaimInv interval s)
    (hstep : clockedStep s e = some s') (hclaims : Claims s e s' p) : Spaced interval p s' := by
  obtain ⟨hdue, hnext, hafter, hothers⟩ := hclaims.effect hstep
  rw [h.every] at hnext hafter
  refine ⟨claimInv_step hpos h hstep, hnext.ge, fun c retry prev claimed hout => ?_⟩
  by_cases hc : c = p.call
  · subst hc
    unfold Outstanding at hout
    rw [hafter] at hout
    obtain hout | hout := hout
    · cases hout
      exact Or.inl ⟨rfl, rfl, hafter⟩
    · cases hout
  · unfold Outstanding at hout
    rw [hothers c hc] at hout
    have hle := (h.held _ _ _ _ hout).2
    refine Or.inr (Or.inl ?_)
    omega

theorem spaced_step (hpos : 0 < interval) (h : Spaced interval p s)
    (hcancels : ¬ Cancels p s.client s'.client) (hstep : clockedStep s e = some s') :
    Spaced interval p s' := by
  have hinv := claimInv_step hpos h.inv hstep
  obtain ⟨hforward, hclient, -⟩ := clockedStep_eq_some hstep
  obtain ⟨-, heffect⟩ := effect_step hclient
  have hnext := h.next
  cases heffect with
  | @claim c now later retry _ hdue hpick hnext' hreprobing hothers =>
      have hinterval := h.inv.every
      have hordered : now ≤ later := hforward.2
      refine ⟨hinv, by omega, fun c' retry' prev' claimed' hout => ?_⟩
      by_cases hc : c' = c
      · subst hc
        unfold Outstanding at hout
        rw [hreprobing] at hout
        obtain hout | hout := hout
        · cases hout
          exact Or.inr (Or.inr hnext)
        · cases hout
      · unfold Outstanding at hout
        rw [hothers c' hc] at hout ⊢
        exact h.held _ _ _ _ hout
  | @fallBack c now later _ htcp hnext' hmoves =>
      have hinterval := h.inv.every
      have hle := h.inv.next
      have hnow : s.clock ≤ now := hforward.1
      refine ⟨hinv, by omega, fun c' retry' prev' claimed' hout => ?_⟩
      obtain ⟨hne, hout⟩ := hmoves.outstanding hout
      rw [hmoves.others c' hne]
      exact h.held _ _ _ _ hout
  | @hand c now later retry prev claimed _ hreturning hclaimed hnext' hmoves =>
      have hback : p.claimedAt + interval ≤ prev := by
        obtain ⟨-, -, hreprobing⟩ | hlt | hle := h.held _ _ _ _ (Or.inr hreturning)
        · rw [hreturning] at hreprobing
          cases hreprobing
        · omega
        · exact hle
      refine ⟨hinv, by omega, fun c' retry' prev' claimed' hout => ?_⟩
      obtain ⟨hne, hout⟩ := hmoves.outstanding hout
      rw [hmoves.others c' hne]
      exact h.held _ _ _ _ hout
  | keep hnext' hkept =>
      refine ⟨hinv, by omega, fun c' retry' prev' claimed' hout => ?_⟩
      obtain ⟨rfl, rfl, hreprobing⟩ | hother := h.held _ _ _ _ (hkept _ _ _ _ hout)
      · obtain hstill | hreturning := hout
        · exact Or.inl ⟨rfl, rfl, hstill⟩
        · exact absurd ⟨⟨_, _, hreprobing⟩, _, _, hreturning⟩ hcancels
      · exact Or.inr hother

/-- INTERNAL: while the call holds the claim `p` and nothing is scheduled, the claim is what the next
probe waits for. -/
structure Waiting (interval : ℕ) (p : Reprobe) (s : Clocked) : Prop where
  inv : ClaimInv interval s
  held : ∀ retry prev claimed, Outstanding s.client p.call retry prev claimed →
    prev = p.due ∧ claimed = s.client.nextUnixProbe

theorem waiting_claims (hpos : 0 < interval) (h : ClaimInv interval s)
    (hstep : clockedStep s e = some s') (hclaims : Claims s e s' p) : Waiting interval p s' := by
  obtain ⟨-, hnext, hafter, -⟩ := hclaims.effect hstep
  refine ⟨claimInv_step hpos h hstep, fun retry prev claimed hout => ?_⟩
  unfold Outstanding at hout
  rw [hafter] at hout
  obtain hout | hout := hout
  · cases hout
    exact ⟨rfl, hnext.symm⟩
  · cases hout

theorem waiting_step (hpos : 0 < interval) (h : Waiting interval p s)
    (hlocked : ∀ now later, e ≠ .locked p.call now later)
    (hschedules : ¬ Schedules s.client s'.client) (hstep : clockedStep s e = some s') :
    Waiting interval p s' := by
  have hinv := claimInv_step hpos h.inv hstep
  obtain ⟨-, hclient, -⟩ := clockedStep_eq_some hstep
  obtain ⟨-, heffect⟩ := effect_step hclient
  cases heffect with
  | claim hdue hpick hnext hreprobing hothers =>
      exact absurd (Or.inl ⟨_, _, _, _, hpick, hreprobing⟩) hschedules
  | fallBack htcp hnext hmoves => exact absurd (Or.inr htcp) hschedules
  | @hand c now later retry prev claimed _ hreturning hclaimed hnext hmoves =>
      -- two claims that are held are not due at the same time
      refine ⟨hinv, fun retry' prev' claimed' hout => ?_⟩
      obtain ⟨hne, hout⟩ := hmoves.outstanding hout
      have hhand : Outstanding s.client c retry prev claimed := Or.inr hreturning
      have hlt := h.inv.held _ _ _ _ hhand
      have hlt' := h.inv.held _ _ _ _ hout
      have hsame := (h.held _ _ _ hout).2
      have hapart := h.inv.apart _ _ _ _ _ _ _ _ hhand hout hne.symm
      omega
  | keep hnext hout =>
      refine ⟨hinv, fun retry prev claimed hout' => ?_⟩
      rw [hnext]
      exact h.held _ _ _ (hout _ _ _ _ hout')

/-- SRC: selecting.go:213-216 -/
theorem nextUnixProbe_of_returns {retry : Bool} {prev claimed c now later : ℕ}
    (hbefore : stage s.client c = some (.returningClaim retry prev claimed))
    (hstep : clockedStep s (.locked c now later) = some s') :
    s'.client.nextUnixProbe =
      if s.client.nextUnixProbe = claimed then prev else s.client.nextUnixProbe := by
  obtain ⟨-, hclient, -⟩ := clockedStep_eq_some hstep
  obtain ⟨call, hcall, hlocked⟩ := Option.bind_eq_some_iff.mp hclient
  have hstage : call.stage = .returningClaim retry prev claimed := by
    rw [stage_eq_some hcall, Option.some_inj] at hbefore
    exact hbefore
  simp only [lockedStep, hstage, Option.some_inj] at hlocked
  rw [← hlocked]
  split
  · rfl
  · rfl

theorem claimInv_new (unix tcp : Bool) (interval : ℕ) :
    ClaimInv interval ⟨new unix tcp interval, 0⟩ := by
  refine ⟨rfl, Nat.zero_le _, ?_, ?_⟩
  · intro c retry prev claimed hout
    obtain hout | hout := hout
    · cases hout
    · cases hout
  · intro c retry prev claimed c' retry' prev' claimed' hout
    obtain hout | hout := hout
    · cases hout
    · cases hout

theorem reprobeIntervalOf_pos (opt : ℤ) : 0 < reprobeIntervalOf opt := by
  unfold reprobeIntervalOf
  split
  · decide
  · omega

/-! ## Runs -/

/-- INTERNAL: **One re-probe per interval.** For any calls that share the client, in any order and
with any outcomes: a claim is an interval after every one before it that its own caller has not
cancelled, and what a cancelled claim hands back is due when it was, unless a probe has been
scheduled since.
SRC: selecting.go:195-226, 235-255, 292-315 -/
theorem one_reprobe_per_interval (unix tcp : Bool) (opt : ℤ) {es₁ es₂ : List SelectingEvent}
    {e₁ e₂ : SelectingEvent} {s₁ s₁' s₂ s₂' : Clocked}
    (hrun₁ : run clockedStep ⟨new unix tcp (reprobeIntervalOf opt), 0⟩ es₁ = some s₁)
    (hstep₁ : clockedStep s₁ e₁ = some s₁') (hclaims : Claims s₁ e₁ s₁' p)
    (hrun₂ : run clockedStep s₁' es₂ = some s₂) (hstep₂ : clockedStep s₂ e₂ = some s₂') :
    (∀ q, Claims s₂ e₂ s₂' q →
      Along clockedStep (fun s e => ∀ s', clockedStep s e = some s' →
        ¬ Cancels p s.client s'.client) s₁' es₂ →
      p.claimedAt + reprobeIntervalOf opt ≤ q.claimedAt) ∧
    (Returns s₂ e₂ p → (∀ e ∈ es₂, ∀ now later, e ≠ .locked p.call now later) →
      Along clockedStep (fun s e => ∀ s', clockedStep s e = some s' →
        ¬ Schedules s.client s'.client) s₁' es₂ →
      s₂'.client.nextUnixProbe = p.due) := by
  have hpos := reprobeIntervalOf_pos opt
  have hinv : ClaimInv (reprobeIntervalOf opt) s₁ :=
    run_invariant (ClaimInv (reprobeIntervalOf opt)) (fun _ => True)
      (fun _ _ _ _ h hstep => claimInv_step hpos h hstep) (fun _ _ => trivial)
      (claimInv_new unix tcp _) hrun₁
  refine ⟨fun q hclaims' halong => ?_, fun hreturns hlocked halong => ?_⟩
  · have hspaced : Spaced (reprobeIntervalOf opt) p s₂ :=
      run_invariant_along (Spaced (reprobeIntervalOf opt) p)
        (fun s e s' h hcancels hstep => spaced_step hpos h (hcancels s' hstep) hstep)
        (spaced_claims hpos hinv hstep₁ hclaims) halong hrun₂
    exact hspaced.next.trans (hclaims'.effect hstep₂).1
  · have hwaiting : Waiting (reprobeIntervalOf opt) p s₂ :=
      run_invariant_along (Waiting (reprobeIntervalOf opt) p)
        (fun s e s' h hP hstep => waiting_step hpos h hP.1 (hP.2 s' hstep) hstep)
        (waiting_claims hpos hinv hstep₁ hclaims)
        ((along_of_forall clockedStep hlocked).and halong) hrun₂
    obtain ⟨now, later, rfl⟩ := hreturns.event
    obtain ⟨prev, claimed, hbefore⟩ := hreturns.before
    obtain ⟨hprev, hclaimed⟩ := hwaiting.held _ _ _ (Or.inr hbefore)
    rw [nextUnixProbe_of_returns hbefore hstep₂, if_pos hclaimed.symm, hprev]

/-! ## Two claims -/

/-- Nothing listens at the endpoint. -/
def refused : TransportError := ⟨.other, true, false, false, false, false⟩

/-- The client has fallen back to TCP, and two more calls have come in. -/
def fallenBack : List SelectingEvent :=
  [.invoke 0, .locked 0 0 0, .answered 0 (some refused), .locked 0 1 1, .probed 0 none false,
    .locked 0 2 2, .locked 0 3 3, .answered 0 none, .invoke 1, .invoke 2]

/-- The probe of the first of them is due at 32 and claimed at 101. While it is under way the second
claims one at 131; where it is cancelled instead, the next probe is due at 32 again. -/
theorem one_reprobe_per_interval_claimed :
    ∃ s₁ s₁' s₂ s₃ s₄ : Clocked,
      run clockedStep ⟨new true true (reprobeIntervalOf 30), 0⟩ fallenBack = some s₁ ∧
      clockedStep s₁ (.locked 1 100 101) = some s₁' ∧
      clockedStep s₁' (.locked 2 131 131) = some s₂ ∧
      clockedStep s₁' (.probed 1 (some refused) true) = some s₃ ∧
      clockedStep s₃ (.locked 1 102 102) = some s₄ ∧
      101 + reprobeIntervalOf 30 ≤ 131 ∧ s₄.client.nextUnixProbe = 32 := by
  have hall : ((run clockedStep ⟨new true true (reprobeIntervalOf 30), 0⟩ fallenBack).any fun s₁ =>
      decide (stage s₁.client 1 = some (.pick false) ∧ stage s₁.client 2 = some (.pick false) ∧
        s₁.client.nextUnixProbe = 32) &&
      (clockedStep s₁ (.locked 1 100 101)).any fun s₁' =>
        decide (stage s₁'.client 1 = some (.reprobing false 32 131) ∧ s₁'.client.useTcp = true ∧
          stage s₁'.client 2 = some (.pick false) ∧ s₁'.client.nextUnixProbe = 131) &&
        ((clockedStep s₁' (.locked 2 131 131)).any fun s₂ =>
          decide (stage s₂.client 2 = some (.reprobing false 131 161))) &&
        (clockedStep s₁' (.probed 1 (some refused) true)).any fun s₃ =>
          decide (stage s₃.client 1 = some (.returningClaim false 32 131)) &&
          (clockedStep s₃ (.locked 1 102 102)).isSome) = true := by
    decide +kernel
  obtain ⟨s₁, hrun, hall⟩ := (Option.any_eq_true _ _).mp hall
  obtain ⟨hs₁, hall⟩ := (Bool.and_eq_true _ _).mp hall
  obtain ⟨s₁', hstep₁, hall⟩ := (Option.any_eq_true _ _).mp hall
  obtain ⟨hall, hcancelled⟩ := (Bool.and_eq_true _ _).mp hall
  obtain ⟨hs₁', hclaimed⟩ := (Bool.and_eq_true _ _).mp hall
  obtain ⟨s₂, hstep₂, hs₂⟩ := (Option.any_eq_true _ _).mp hclaimed
  obtain ⟨s₃, hstep₃, hall⟩ := (Option.any_eq_true _ _).mp hcancelled
  obtain ⟨hs₃, hreturned⟩ := (Bool.and_eq_true _ _).mp hall
  obtain ⟨s₄, hstep₄⟩ := Option.isSome_iff_exists.mp hreturned
  obtain ⟨hpick₁, hpick₂, hdue⟩ := of_decide_eq_true hs₁
  obtain ⟨hreprobing, htcp, hpick₂', hnext⟩ := of_decide_eq_true hs₁'
  have hfirst : Claims s₁ (.locked 1 100 101) s₁' ⟨1, false, 32, 101⟩ :=
    ⟨⟨100, rfl⟩, hpick₁, hdue, 131, hreprobing⟩
  have hsecond : Claims s₁' (.locked 2 131 131) s₂ ⟨2, false, 131, 131⟩ :=
    ⟨⟨131, rfl⟩, hpick₂', hnext, 161, of_decide_eq_true hs₂⟩
  have hkept : ¬ Schedules s₁'.client s₃.client := by
    obtain ⟨-, heffect⟩ := effect_step (clockedStep_eq_some hstep₃).2.1
    rintro (⟨c, retry, prev, claimed, hpick, hafter⟩ | ⟨hunix, -⟩)
    · cases heffect with
      | keep _ hout =>
          have hheld := hout c retry prev claimed (Or.inl hafter)
          unfold Outstanding at hheld
          rw [hpick] at hheld
          obtain hheld | hheld := hheld
          · cases hheld
          · cases hheld
    · rw [htcp] at hunix
      cases hunix
  have hrun₃ : run clockedStep s₁' [.probed 1 (some refused) true] = some s₃ := by
    rw [run_cons_of_step clockedStep hstep₃]
    rfl
  have hrun₂ : run clockedStep s₁' [] = some s₁' := rfl
  have hlaw := one_reprobe_per_interval true true 30 hrun hstep₁ hfirst hrun₂ hstep₂
  have hlaw' := one_reprobe_per_interval true true 30 hrun hstep₁ hfirst hrun₃ hstep₄
  refine ⟨s₁, s₁', s₂, s₃, s₄, hrun, hstep₁, hstep₂, hstep₃, hstep₄,
    hlaw.1 _ hsecond trivial, hlaw'.2 ⟨⟨102, 102, rfl⟩, 32, 131, of_decide_eq_true hs₃⟩ ?_ ?_⟩
  · intro e he now later
    rw [List.mem_singleton.mp he]
    exact SelectingEvent.noConfusion
  · refine ⟨fun s' hs' => ?_, fun _ _ => trivial⟩
    rw [hstep₃, Option.some_inj] at hs'
    exact hs' ▸ hkept

end

end Tymux.Analysis.ReprobeClaims
