import Tymux.Model.Selecting
import Tymux.Lib.Keyed
import Tymux.Lib.Total

/-!
# A denied call and the TCP listener

`pick` switches the client to Unix when its re-probe is denied, and then reads the choice in another
section. What the call is made over is up to whoever has the lock in between. A refused dial of its
own Unix attempt takes a denied call to TCP as well, since `failover` does not know of the re-probe.
Where neither happens (`Heeds`), no denied call is made over TCP. No call is ever made more than
twice, and the second time only after a refused dial.
-/

set_option autoImplicit false

namespace Tymux.Analysis.DeniedCalls

open Tymux.Model Tymux.Lib SelectingClient

/-! ## What a call may do -/

/-- Over TCP, a call is not made once it was denied. -/
def DeniedMeansDenied (history : List CallEvent) : Prop :=
  ∀ before after, history = before ++ .denied :: after → .sent .tcp ∉ after

def isSent : CallEvent → Bool
  | .sent _ => true
  | _ => false

/-- A call is made at most twice, and again only after a refused dial. -/
structure SentTwice (history : List CallEvent) : Prop where
  twice : history.countP isSent ≤ 2
  again : ∀ before kind after, history = before ++ .sent kind :: after →
    before.countP isSent = 0 ∨ .dialRefused ∈ before

/-- The next attempt is the first, or follows a refused dial. -/
def Pending (call : SelectingCall) (retry : Bool) : Prop :=
  call.history.countP isSent = retry.toNat ∧ (retry = true → .dialRefused ∈ call.history)

/-- The attempts that a call has made, by where it stands. -/
def Attempts (call : SelectingCall) : Prop :=
  match call.mode with
  | .observe => call.history.countP isSent = 0 ∧
      match call.stage with
      | .failover _ | .probingTcp | .switching _ | .done => True
      | _ => False
  | _ =>
    match call.stage with
    | .pick retry | .reprobing retry _ _ | .reprobed retry | .returningClaim retry _ _
    | .rereading retry => Pending call retry
    | .calling retry _ => retry = false → call.history.countP isSent = 1
    | .failover _ | .probingTcp | .switching _ => Pending call true
    | .streaming _ | .done => True

/-- Where a denied call may stand: the client is on Unix when it reads the choice, or it has been
made over Unix. -/
def Denied (useTcp : Bool) : SelectingStage → Prop
  | .reprobed _ | .done | .streaming _ => True
  | .rereading _ => useTcp = false
  | .calling _ kind => kind = .unix
  | _ => False

structure CallInv (call : SelectingCall) : Prop where
  sent : SentTwice call.history
  attempts : Attempts call

structure HeedInv (useTcp : Bool) (call : SelectingCall) : Prop where
  denied : DeniedMeansDenied call.history
  stage : .denied ∈ call.history → Denied useTcp call.stage

def AllCalls (P : SelectingCall → Prop) (s : SelectingClient) : Prop :=
  ∀ c call, s.calls.lookup c = some call → P call

/-- What a step needs for a denied call to stay off TCP. -/
structure Heeds (s : SelectingClient) (e : SelectingEvent) : Prop where
  /-- The client is not switched to TCP while a denied call is about to read the choice. -/
  switches : ∀ c now later call, e = .locked c now later → s.calls.lookup c = some call →
    call.stage = .switching .tcp →
      ∀ c' call' retry, s.calls.lookup c' = some call' → .denied ∈ call'.history →
        call'.stage ≠ .rereading retry
  /-- The first attempt of a denied call over Unix does not fail with a refused dial. -/
  attempts : ∀ c call err, e = .answered c (some err) → s.calls.lookup c = some call →
    call.stage = .calling false .unix → err.isDialRefused .unix = true →
      .denied ∉ call.history ∧ err.deniedAccess = false

section

variable {s s' : SelectingClient}

/-! ## Histories -/

theorem sentTwice_append_other {history more : List CallEvent} (h : SentTwice history)
    (hmore : ∀ e ∈ more, isSent e = false) : SentTwice (history ++ more) := by
  have hzero : more.countP isSent = 0 := by
    rw [List.countP_eq_zero]
    intro e he
    rw [hmore e he]
    exact Bool.false_ne_true
  refine ⟨?_, ?_⟩
  · rw [List.countP_append, hzero, Nat.add_zero]
    exact h.twice
  · intro before kind after heq
    obtain ⟨rest, rfl, hrest⟩ | ⟨rest, rfl, hrest⟩ := List.append_eq_append_iff.mp heq
    · have hmem : CallEvent.sent kind ∈ more := by
        rw [hrest]
        exact List.mem_append_right _ List.mem_cons_self
      cases hmore _ hmem
    · cases rest with
      | nil =>
          have hmem : CallEvent.sent kind ∈ more := by
            rw [← List.nil_append more, ← hrest]
            exact List.mem_cons_self
          cases hmore _ hmem
      | cons e rest =>
          rw [List.cons_append, List.cons.injEq] at hrest
          exact h.again before kind rest (by rw [hrest.1])

theorem sentTwice_send {history : List CallEvent} (h : SentTwice history) {retry : Bool}
    (hcount : history.countP isSent = retry.toNat)
    (hrefused : retry = true → .dialRefused ∈ history) (kind : Kind) :
    SentTwice (history ++ [.sent kind]) := by
  refine ⟨?_, ?_⟩
  · rw [List.countP_append, hcount]
    cases retry with
    | true => exact Nat.le_refl 2
    | false => exact Nat.le_succ 1
  · intro before kind' after heq
    rw [List.append_eq_append_iff] at heq
    obtain ⟨rest, rfl, hrest⟩ | ⟨rest, rfl, hrest⟩ := heq
    · cases rest with
      | nil =>
          cases retry with
          | true => exact Or.inr (by simpa using hrefused rfl)
          | false => exact Or.inl (by simpa using hcount)
      | cons e rest => simp at hrest
    · cases rest with
      | nil =>
          cases retry with
          | true => exact Or.inr (by simpa using hrefused rfl)
          | false => exact Or.inl (by simpa using hcount)
      | cons e rest =>
          rw [List.cons_append, List.cons.injEq] at hrest
          exact h.again before kind' rest (by rw [hrest.1])

theorem deniedMeansDenied_append_other {history more : List CallEvent}
    (h : DeniedMeansDenied history) (hmore : ∀ e ∈ more, isSent e = false) :
    DeniedMeansDenied (history ++ more) := by
  have hunsent : CallEvent.sent .tcp ∉ more := fun hmem => nomatch hmore _ hmem
  intro before after heq
  obtain ⟨rest, -, hrest⟩ | ⟨rest, hhistory, hrest⟩ := List.append_eq_append_iff.mp heq
  · intro hmem
    apply hunsent
    rw [hrest]
    exact List.mem_append_right _ (List.mem_cons_of_mem _ hmem)
  · cases rest with
    | nil =>
        intro hmem
        apply hunsent
        rw [← List.nil_append more, ← hrest]
        exact List.mem_cons_of_mem _ hmem
    | cons e rest =>
        rw [List.cons_append, List.cons.injEq] at hrest
        rw [hrest.2, List.mem_append, not_or]
        exact ⟨h before rest (by rw [hhistory, hrest.1]), hunsent⟩

theorem deniedMeansDenied_send {history : List CallEvent} (h : DeniedMeansDenied history)
    {kind : Kind} (hkind : .denied ∈ history → kind = .unix) :
    DeniedMeansDenied (history ++ [.sent kind]) := by
  by_cases hdenied : .denied ∈ history
  · rw [hkind hdenied]
    intro before after heq
    obtain ⟨rest, -, hrest⟩ | ⟨rest, hhistory, hrest⟩ := List.append_eq_append_iff.mp heq
    · cases rest with
      | nil => simp at hrest
      | cons e rest => simp at hrest
    · cases rest with
      | nil => simp at hrest
      | cons e rest =>
          rw [List.cons_append, List.cons.injEq] at hrest
          rw [hrest.2, List.mem_append, not_or]
          exact ⟨h before rest (by rw [hhistory, hrest.1]), by simp⟩
  · intro before after heq
    have hmem : CallEvent.denied ∈ history ++ [.sent kind] := by
      rw [heq]
      exact List.mem_append_right _ List.mem_cons_self
    obtain hold | hnew := List.mem_append.mp hmem
    · exact absurd hold hdenied
    · simp at hnew

theorem isSent_of_mem_noted {kind : Kind} {err : TransportError} :
    ∀ e ∈ noted kind err, isSent e = false := by
  intro e he
  unfold noted at he
  rw [List.mem_append] at he
  obtain he | he := he
  · split at he
    · rw [List.mem_singleton.mp he]
      rfl
    · cases he
  · split at he
    · rw [List.mem_singleton.mp he]
      rfl
    · cases he

theorem countP_append_noted (history : List CallEvent) (kind : Kind) (err : TransportError) :
    (history ++ noted kind err).countP isSent = history.countP isSent := by
  have hzero : (noted kind err).countP isSent = 0 := by
    rw [List.countP_eq_zero]
    intro e he
    rw [isSent_of_mem_noted e he]
    exact Bool.false_ne_true
  rw [List.countP_append, hzero, Nat.add_zero]

theorem dialRefused_mem_noted {kind : Kind} {err : TransportError}
    (h : err.isDialRefused kind = true) : .dialRefused ∈ noted kind err := by
  unfold noted
  rw [if_pos h]
  exact List.mem_append_right _ (List.mem_singleton_self _)

theorem denied_mem_noted {kind : Kind} {err : TransportError} (h : .denied ∈ noted kind err) :
    kind = .unix ∧ err.deniedAccess = true := by
  unfold noted at h
  rw [List.mem_append] at h
  obtain h | h := h
  · split at h
    · rename_i hdenied
      exact hdenied
    · cases h
  · split at h
    · cases List.mem_singleton.mp h
    · cases h

theorem AllCalls.set {P : SelectingCall → Prop} (h : AllCalls P s) (c : ℕ) {call : SelectingCall}
    (hcall : P call) : AllCalls P (s.setCall c call) := by
  intro c' call' hlookup
  obtain ⟨rfl, rfl⟩ | hold := lookup_of_insert hlookup
  · exact hcall
  · exact h c' call' hold

@[simp] theorem calls_switchTo (s : SelectingClient) (target : Kind) (now : ℕ) :
    (s.switchTo target now).calls = s.calls := by
  unfold switchTo
  split
  · rfl
  · cases target with
    | unix => rfl
    | tcp => rfl

theorem AllCalls.congr {P : SelectingCall → Prop} (h : AllCalls P s) (hcalls : s'.calls = s.calls) :
    AllCalls P s' := by
  intro c call hlookup
  rw [hcalls] at hlookup
  exact h c call hlookup

/-! ## At most two attempts -/

variable {c : ℕ} {call : SelectingCall}

theorem attempts_picking (call : SelectingCall) (retry : Bool)
    (h : Attempts { call with stage := .pick retry }) :
    call.mode ≠ .observe ∧ Pending call retry := by
  obtain ⟨mode, stage, history⟩ := call
  cases mode with
  | observe => exact absurd h.2 id
  | _ => exact ⟨nofun, h⟩

theorem attempts_failing (call : SelectingCall) (h : Attempts { call with stage := .probingTcp }) :
    if call.mode = .observe then call.history.countP isSent = 0 else Pending call true := by
  obtain ⟨mode, stage, history⟩ := call
  cases mode with
  | observe => exact h.1
  | _ => exact h

/-- INTERNAL: in the middle of `pick`. -/
theorem callInv_picking (hsent : SentTwice call.history) (hmode : call.mode ≠ .observe)
    {retry : Bool} (hpending : Pending call retry) :
    CallInv { call with stage := .pick retry } ∧
      (∀ prev claimed, CallInv { call with stage := .reprobing retry prev claimed }) ∧
      CallInv { call with stage := .reprobed retry } ∧
      (∀ prev claimed, CallInv { call with stage := .returningClaim retry prev claimed }) ∧
      CallInv { call with stage := .rereading retry } := by
  obtain ⟨mode, stage, history⟩ := call
  cases mode with
  | observe => exact absurd rfl hmode
  | _ =>
      exact ⟨⟨hsent, hpending⟩, fun _ _ => ⟨hsent, hpending⟩, ⟨hsent, hpending⟩,
        fun _ _ => ⟨hsent, hpending⟩, ⟨hsent, hpending⟩⟩

/-- INTERNAL: in the middle of `failover`. -/
theorem callInv_failing (hsent : SentTwice call.history)
    (hcount : if call.mode = .observe then call.history.countP isSent = 0 else Pending call true) :
    (∀ kind, CallInv { call with stage := .failover kind }) ∧
      CallInv { call with stage := .probingTcp } ∧
      (∀ target, CallInv { call with stage := .switching target }) ∧
      CallInv { call with stage := .done } := by
  obtain ⟨mode, stage, history⟩ := call
  cases mode with
  | observe =>
      exact ⟨fun _ => ⟨hsent, hcount, trivial⟩, ⟨hsent, hcount, trivial⟩,
        fun _ => ⟨hsent, hcount, trivial⟩, ⟨hsent, hcount, trivial⟩⟩
  | _ =>
      exact ⟨fun _ => ⟨hsent, hcount⟩, ⟨hsent, hcount⟩, fun _ => ⟨hsent, hcount⟩, ⟨hsent, trivial⟩⟩

theorem callInv_send (h : AllCalls CallInv s) (hsent : SentTwice call.history)
    (hmode : call.mode ≠ .observe) {retry : Bool} (hpending : Pending call retry) :
    AllCalls CallInv (s.send c call retry) := by
  have htwice := sentTwice_send hsent hpending.1 hpending.2 s.active
  obtain ⟨mode, stage, history⟩ := call
  apply h.set
  cases mode with
  | observe => exact absurd rfl hmode
  | attach => exact ⟨htwice, trivial⟩
  | invoke =>
      refine ⟨htwice, fun hretry => ?_⟩
      have hcount := hpending.1
      rw [hretry] at hcount
      rw [List.countP_append, hcount]
      rfl

theorem callInv_failedOver (h : AllCalls CallInv s) (hsent : SentTwice call.history)
    (hcount : if call.mode = .observe then call.history.countP isSent = 0 else Pending call true) :
    AllCalls CallInv (s.failedOver c call) := by
  unfold failedOver
  split
  · exact h.set c (callInv_failing hsent hcount).2.2.2
  · rename_i hmode
    rw [if_neg hmode] at hcount
    exact h.set c (callInv_picking hsent hmode hcount).1

theorem callInv_locked (h : AllCalls CallInv s) (hcall : CallInv call) {now later : ℕ}
    (hstep : s.lockedStep c call now later = some s') : AllCalls CallInv s' := by
  obtain ⟨hsent, hattempts⟩ := hcall
  obtain ⟨mode, stage, history⟩ := call
  cases stage with
  | pick retry =>
      obtain ⟨hmode, hpending⟩ := attempts_picking ⟨mode, .pick retry, history⟩ retry hattempts
      simp only [lockedStep] at hstep
      split at hstep
      · cases hstep
        exact (h.congr rfl).set c ((callInv_picking hsent hmode hpending).2.1 _ _)
      · cases hstep
        exact callInv_send h hsent hmode hpending
  | reprobed retry =>
      obtain ⟨hmode, hpending⟩ := attempts_picking ⟨mode, .reprobed retry, history⟩ retry hattempts
      cases hstep
      exact (h.congr (calls_switchTo s .unix now)).set c
        (callInv_picking hsent hmode hpending).2.2.2.2
  | returningClaim retry prev claimed =>
      obtain ⟨hmode, hpending⟩ :=
        attempts_picking ⟨mode, .returningClaim retry prev claimed, history⟩ retry hattempts
      cases hstep
      refine AllCalls.set (h.congr ?_) c (callInv_picking hsent hmode hpending).2.2.2.2
      split
      · rfl
      · rfl
  | rereading retry =>
      obtain ⟨hmode, hpending⟩ := attempts_picking ⟨mode, .rereading retry, history⟩ retry hattempts
      cases hstep
      exact callInv_send h hsent hmode hpending
  | failover kind =>
      have hcount := attempts_failing ⟨mode, .failover kind, history⟩ hattempts
      simp only [lockedStep] at hstep
      split at hstep
      · cases hstep
        exact callInv_failedOver h hsent hcount
      · cases kind with
        | unix =>
            cases hstep
            apply h.set
            split
            · exact (callInv_failing hsent hcount).2.1
            · exact (callInv_failing hsent hcount).2.2.2
        | tcp =>
            cases hstep
            apply h.set
            split
            · exact (callInv_failing hsent hcount).2.2.1 .unix
            · exact (callInv_failing hsent hcount).2.2.2
  | switching target =>
      cases hstep
      exact callInv_failedOver (h.congr (calls_switchTo s target now)) hsent
        (attempts_failing ⟨mode, .switching target, history⟩ hattempts)
  | reprobing retry prev claimed => cases hstep
  | calling retry kind => cases hstep
  | probingTcp => cases hstep
  | streaming kind => cases hstep
  | done => cases hstep

theorem callInv_probed (h : AllCalls CallInv s) (hcall : CallInv call)
    {err : Option TransportError} {cancelled : Bool}
    (hstep : s.probed c call err cancelled = some s') : AllCalls CallInv s' := by
  obtain ⟨hsent, hattempts⟩ := hcall
  obtain ⟨mode, stage, history⟩ := call
  cases stage with
  | reprobing retry prev claimed =>
      obtain ⟨hmode, hcount, hrefused⟩ :=
        attempts_picking ⟨mode, .reprobing retry prev claimed, history⟩ retry hattempts
      have hstages := callInv_picking hsent hmode ⟨hcount, hrefused⟩
      cases err with
      | none =>
          cases hstep
          exact h.set c hstages.2.2.1
      | some err =>
          simp only [probed] at hstep
          split at hstep
          · cases hstep
            have hsent' : SentTwice (history ++ [.denied]) :=
              sentTwice_append_other hsent (by simp [isSent])
            have hpending : Pending ⟨mode, .pick retry, history ++ [.denied]⟩ retry := by
              refine ⟨?_, fun hretry => List.mem_append_left _ (hrefused hretry)⟩
              rw [List.countP_append, hcount]
              rfl
            have hstages' := @callInv_picking
              ⟨mode, .reprobed retry, history ++ [CallEvent.denied]⟩ hsent' hmode retry hpending
            exact h.set c hstages'.2.2.1
          · split at hstep
            · cases hstep
              exact h.set c (hstages.2.2.2.1 prev claimed)
            · cases hstep
              exact h.set c hstages.2.2.2.2
  | probingTcp =>
      cases hstep
      have hcount := attempts_failing ⟨mode, .probingTcp, history⟩ hattempts
      have hstages := callInv_failing hsent hcount
      apply h.set
      split
      · exact hstages.2.2.2
      · exact hstages.2.2.1 .tcp
  | pick retry => cases hstep
  | reprobed retry => cases hstep
  | returningClaim retry prev claimed => cases hstep
  | rereading retry => cases hstep
  | calling retry kind => cases hstep
  | failover kind => cases hstep
  | switching target => cases hstep
  | streaming kind => cases hstep
  | done => cases hstep

theorem callInv_answered (h : AllCalls CallInv s) (hcall : CallInv call)
    {err : Option TransportError} (hstep : s.answered c call err = some s') :
    AllCalls CallInv s' := by
  obtain ⟨hsent, hattempts⟩ := hcall
  obtain ⟨mode, stage, history⟩ := call
  cases stage with
  | calling retry kind =>
      have hmode : mode ≠ .observe := by
        rintro rfl
        exact absurd hattempts.2 id
      have hdone : ∀ history' : List CallEvent, SentTwice history' →
          CallInv ⟨mode, .done, history'⟩ := by
        intro history' hsent'
        cases mode with
        | observe => exact absurd rfl hmode
        | _ => exact ⟨hsent', trivial⟩
      cases err with
      | none =>
          cases hstep
          exact h.set c (hdone history hsent)
      | some err =>
          cases hstep
          have hsent' : SentTwice (history ++ noted kind err) :=
            sentTwice_append_other hsent isSent_of_mem_noted
          apply h.set
          cases hretry : !retry && err.isDialRefused kind with
          | false => exact hdone _ hsent'
          | true =>
              rw [Bool.and_eq_true, Bool.not_eq_true'] at hretry
              have hcount : history.countP isSent = 1 := by
                cases mode with
                | observe => exact absurd rfl hmode
                | _ => exact hattempts hretry.1
              have hpending : Pending ⟨mode, .done, history ++ noted kind err⟩ true := by
                refine ⟨?_, fun _ => List.mem_append_right _ (dialRefused_mem_noted hretry.2)⟩
                rw [countP_append_noted, hcount]
                rfl
              have hcall : if mode = .observe then (history ++ noted kind err).countP isSent = 0
                  else Pending ⟨mode, .done, history ++ noted kind err⟩ true := by
                rw [if_neg hmode]
                exact hpending
              exact (callInv_failing hsent' hcall).1 kind
  | pick retry => cases hstep
  | reprobing retry prev claimed => cases hstep
  | reprobed retry => cases hstep
  | returningClaim retry prev claimed => cases hstep
  | rereading retry => cases hstep
  | failover kind => cases hstep
  | probingTcp => cases hstep
  | switching target => cases hstep
  | streaming kind => cases hstep
  | done => cases hstep

theorem sentTwice_nil : SentTwice [] :=
  ⟨Nat.zero_le 2, fun before kind after h => by simp at h⟩

theorem callInv_observe (h : AllCalls CallInv s) (hcall : CallInv call) {o : ℕ}
    {err : TransportError} (hstep : s.observe c call o err = some s') : AllCalls CallInv s' := by
  obtain ⟨hsent, hattempts⟩ := hcall
  obtain ⟨mode, stage, history⟩ := call
  cases stage with
  | streaming kind =>
      have hstream : CallInv ⟨mode, .streaming kind, history ++ noted kind err⟩ := by
        refine ⟨sentTwice_append_other hsent isSent_of_mem_noted, ?_⟩
        cases mode with
        | observe => exact absurd hattempts.2 id
        | _ => trivial
      simp only [observe] at hstep
      split at hstep
      · cases hstep
      · cases hstep
        apply (h.set c hstream).set
        split
        · exact ⟨sentTwice_nil, rfl, trivial⟩
        · exact ⟨sentTwice_nil, rfl, trivial⟩
  | pick retry => cases hstep
  | reprobing retry prev claimed => cases hstep
  | reprobed retry => cases hstep
  | returningClaim retry prev claimed => cases hstep
  | rereading retry => cases hstep
  | calling retry kind => cases hstep
  | failover kind => cases hstep
  | probingTcp => cases hstep
  | switching target => cases hstep
  | done => cases hstep

theorem callInv_begin (h : AllCalls CallInv s) (mode : SelectingMode) (hmode : mode ≠ .observe)
    (hstep : s.begin c mode = some s') : AllCalls CallInv s' := by
  simp only [begin] at hstep
  split at hstep
  · cases hstep
  · cases hstep
    apply h.set
    refine ⟨sentTwice_nil, ?_⟩
    cases mode with
    | observe => exact absurd rfl hmode
    | _ =>
        split
        · exact ⟨rfl, nofun⟩
        · trivial

theorem callInv_step {e : SelectingEvent} (h : AllCalls CallInv s) (hstep : step s e = some s') :
    AllCalls CallInv s' := by
  cases e with
  | invoke c => exact callInv_begin h .invoke nofun hstep
  | attach c => exact callInv_begin h .attach nofun hstep
  | observe c o err =>
      obtain ⟨call, hlookup, hstep⟩ := Option.bind_eq_some_iff.mp hstep
      exact callInv_observe h (h c call hlookup) hstep
  | locked c now later =>
      obtain ⟨call, hlookup, hstep⟩ := Option.bind_eq_some_iff.mp hstep
      exact callInv_locked h (h c call hlookup) hstep
  | probed c err cancelled =>
      obtain ⟨call, hlookup, hstep⟩ := Option.bind_eq_some_iff.mp hstep
      exact callInv_probed h (h c call hlookup) hstep
  | answered c err =>
      obtain ⟨call, hlookup, hstep⟩ := Option.bind_eq_some_iff.mp hstep
      exact callInv_answered h (h c call hlookup) hstep

/-! ## Where the condition holds, a denied call stays off TCP -/

theorem deniedMeansDenied_nil : DeniedMeansDenied [] := fun before after h => by simp at h

theorem HeedInv.off {useTcp : Bool} (h : HeedInv useTcp call) : HeedInv false call := by
  refine ⟨h.denied, fun hdenied => ?_⟩
  have hstage := h.stage hdenied
  obtain ⟨mode, stage, history⟩ := call
  cases stage with
  | rereading retry => rfl
  | _ => exact hstage

theorem AllCalls.off (h : AllCalls (HeedInv s.useTcp) s) : AllCalls (HeedInv false) s :=
  fun c call hlookup => (h c call hlookup).off

/-- INTERNAL: a call that was not denied may go anywhere. -/
theorem HeedInv.go {useTcp : Bool} (h : HeedInv useTcp call) (hdenied : .denied ∉ call.history)
    (useTcp' : Bool) (stage : SelectingStage) : HeedInv useTcp' { call with stage } :=
  ⟨h.denied, fun hmem => absurd hmem hdenied⟩

theorem heedInv_send (h : AllCalls (HeedInv s.useTcp) s) (hcall : DeniedMeansDenied call.history)
    (hdenied : .denied ∈ call.history → s.useTcp = false) (retry : Bool) :
    AllCalls (HeedInv (s.send c call retry).useTcp) (s.send c call retry) := by
  have hunix : .denied ∈ call.history → s.active = .unix := by
    intro hmem
    unfold active
    rw [hdenied hmem]
    rfl
  have hsent := deniedMeansDenied_send hcall hunix
  obtain ⟨mode, stage, history⟩ := call
  apply h.set
  refine ⟨hsent, fun hmem => ?_⟩
  have hmem' : CallEvent.denied ∈ history := by simpa using hmem
  cases mode with
  | attach => trivial
  | _ => exact hunix hmem'

theorem heedInv_failedOver (h : AllCalls (HeedInv s.useTcp) s) {useTcp : Bool}
    (hcall : HeedInv useTcp call) (hdenied : .denied ∉ call.history) :
    AllCalls (HeedInv (s.failedOver c call).useTcp) (s.failedOver c call) := by
  unfold failedOver
  split
  · exact h.set c (hcall.go hdenied _ _)
  · exact h.set c (hcall.go hdenied _ _)

theorem useTcp_switchTo (s : SelectingClient) (target : Kind) (now : ℕ) :
    (s.switchTo target now).useTcp = decide (target = .tcp) := by
  unfold switchTo active
  cases target with
  | unix =>
      cases htcp : s.useTcp with
      | true => rfl
      | false => simp [htcp]
  | tcp =>
      cases htcp : s.useTcp with
      | true => simp [htcp]
      | false => rfl

theorem heedInv_locked (h : AllCalls (HeedInv s.useTcp) s) (hcall : s.calls.lookup c = some call)
    {now later : ℕ} (hheeds : Heeds s (.locked c now later))
    (hstep : s.lockedStep c call now later = some s') : AllCalls (HeedInv s'.useTcp) s' := by
  have hinv := h c call hcall
  have hswitches := hheeds.switches c now later call rfl hcall
  obtain ⟨mode, stage, history⟩ := call
  cases stage with
  | pick retry =>
      simp only [lockedStep] at hstep
      split at hstep
      · cases hstep
        exact AllCalls.set (h.congr rfl) c (hinv.go hinv.stage _ _)
      · cases hstep
        exact heedInv_send h hinv.denied (fun hmem => absurd hmem hinv.stage) retry
  | reprobed retry =>
      cases hstep
      apply AllCalls.set
      · change AllCalls (HeedInv (s.switchTo .unix now).useTcp) _
        rw [useTcp_switchTo]
        exact h.off.congr (calls_switchTo s .unix now)
      · refine ⟨hinv.denied, fun _ => ?_⟩
        exact useTcp_switchTo s .unix now
  | returningClaim retry prev claimed =>
      cases hstep
      apply AllCalls.set
      · split
        · exact h.congr rfl
        · exact h
      · exact hinv.go hinv.stage _ _
  | rereading retry =>
      cases hstep
      exact heedInv_send h hinv.denied hinv.stage retry
  | failover kind =>
      simp only [lockedStep] at hstep
      split at hstep
      · cases hstep
        exact heedInv_failedOver h hinv hinv.stage
      · cases kind with
        | unix =>
            cases hstep
            exact h.set c (hinv.go hinv.stage _ _)
        | tcp =>
            cases hstep
            exact h.set c (hinv.go hinv.stage _ _)
  | switching target =>
      cases hstep
      refine heedInv_failedOver ?_ hinv hinv.stage
      rw [useTcp_switchTo]
      refine AllCalls.congr ?_ (calls_switchTo s target now)
      cases target with
      | unix => exact h.off
      | tcp =>
          intro c' call' hlookup
          refine ⟨(h c' call' hlookup).denied, fun hdenied => ?_⟩
          have hstage := (h c' call' hlookup).stage hdenied
          have hnot := fun retry => hswitches rfl c' call' retry hlookup hdenied
          obtain ⟨mode', stage', history'⟩ := call'
          cases stage' with
          | rereading retry => exact absurd rfl (hnot retry)
          | _ => exact hstage
  | reprobing retry prev claimed => cases hstep
  | calling retry kind => cases hstep
  | probingTcp => cases hstep
  | streaming kind => cases hstep
  | done => cases hstep

theorem heedInv_probed (h : AllCalls (HeedInv s.useTcp) s) (hinv : HeedInv s.useTcp call)
    {err : Option TransportError} {cancelled : Bool}
    (hstep : s.probed c call err cancelled = some s') : AllCalls (HeedInv s'.useTcp) s' := by
  obtain ⟨mode, stage, history⟩ := call
  cases stage with
  | reprobing retry prev claimed =>
      cases err with
      | none =>
          cases hstep
          exact h.set c (hinv.go hinv.stage _ _)
      | some err =>
          simp only [probed] at hstep
          split at hstep
          · cases hstep
            apply h.set
            exact ⟨deniedMeansDenied_append_other hinv.denied (by simp [isSent]), fun _ => trivial⟩
          · split at hstep
            · cases hstep
              exact h.set c (hinv.go hinv.stage _ _)
            · cases hstep
              exact h.set c (hinv.go hinv.stage _ _)
  | probingTcp =>
      cases hstep
      exact h.set c (hinv.go hinv.stage _ _)
  | pick retry => cases hstep
  | reprobed retry => cases hstep
  | returningClaim retry prev claimed => cases hstep
  | rereading retry => cases hstep
  | calling retry kind => cases hstep
  | failover kind => cases hstep
  | switching target => cases hstep
  | streaming kind => cases hstep
  | done => cases hstep

theorem heedInv_answered (h : AllCalls (HeedInv s.useTcp) s) (hcall : s.calls.lookup c = some call)
    {err : Option TransportError} (hheeds : Heeds s (.answered c err))
    (hstep : s.answered c call err = some s') : AllCalls (HeedInv s'.useTcp) s' := by
  have hinv := h c call hcall
  obtain ⟨mode, stage, history⟩ := call
  cases stage with
  | calling retry kind =>
      cases err with
      | none =>
          cases hstep
          exact h.set c ⟨hinv.denied, fun _ => trivial⟩
      | some err =>
          cases hstep
          apply h.set
          refine ⟨deniedMeansDenied_append_other hinv.denied isSent_of_mem_noted, fun hmem => ?_⟩
          cases hretry : !retry && err.isDialRefused kind with
          | false => trivial
          | true =>
              rw [Bool.and_eq_true, Bool.not_eq_true'] at hretry
              obtain ⟨rfl, hrefused⟩ := hretry
              have hkind : kind = .unix := by
                obtain hold | hnew := List.mem_append.mp hmem
                · exact hinv.stage hold
                · exact (denied_mem_noted hnew).1
              subst hkind
              have hnot := hheeds.attempts c _ err rfl hcall rfl hrefused
              obtain hold | hnew := List.mem_append.mp hmem
              · exact absurd hold hnot.1
              · exact absurd (denied_mem_noted hnew).2 (by simp [hnot.2])
  | pick retry => cases hstep
  | reprobing retry prev claimed => cases hstep
  | reprobed retry => cases hstep
  | returningClaim retry prev claimed => cases hstep
  | rereading retry => cases hstep
  | failover kind => cases hstep
  | probingTcp => cases hstep
  | switching target => cases hstep
  | streaming kind => cases hstep
  | done => cases hstep

theorem heedInv_new {useTcp : Bool} {mode : SelectingMode} {stage : SelectingStage} :
    HeedInv useTcp ⟨mode, stage, []⟩ := ⟨deniedMeansDenied_nil, nofun⟩

theorem heedInv_observe (h : AllCalls (HeedInv s.useTcp) s) (hinv : HeedInv s.useTcp call) {o : ℕ}
    {err : TransportError} (hstep : s.observe c call o err = some s') :
    AllCalls (HeedInv s'.useTcp) s' := by
  obtain ⟨mode, stage, history⟩ := call
  cases stage with
  | streaming kind =>
      simp only [observe] at hstep
      split at hstep
      · cases hstep
      · cases hstep
        refine AllCalls.set (h.set c ?_) o heedInv_new
        exact ⟨deniedMeansDenied_append_other hinv.denied isSent_of_mem_noted, fun _ => trivial⟩
  | pick retry => cases hstep
  | reprobing retry prev claimed => cases hstep
  | reprobed retry => cases hstep
  | returningClaim retry prev claimed => cases hstep
  | rereading retry => cases hstep
  | calling retry kind => cases hstep
  | failover kind => cases hstep
  | probingTcp => cases hstep
  | switching target => cases hstep
  | done => cases hstep

theorem heedInv_begin (h : AllCalls (HeedInv s.useTcp) s) {mode : SelectingMode}
    (hstep : s.begin c mode = some s') : AllCalls (HeedInv s'.useTcp) s' := by
  simp only [begin] at hstep
  split at hstep
  · cases hstep
  · cases hstep
    exact h.set c heedInv_new

theorem heedInv_step {e : SelectingEvent} (hheeds : Heeds s e) (h : AllCalls (HeedInv s.useTcp) s)
    (hstep : step s e = some s') : AllCalls (HeedInv s'.useTcp) s' := by
  cases e with
  | invoke c => exact heedInv_begin h hstep
  | attach c => exact heedInv_begin h hstep
  | observe c o err =>
      obtain ⟨call, hlookup, hstep⟩ := Option.bind_eq_some_iff.mp hstep
      exact heedInv_observe h (h c call hlookup) hstep
  | locked c now later =>
      obtain ⟨call, hlookup, hstep⟩ := Option.bind_eq_some_iff.mp hstep
      exact heedInv_locked h hlookup hheeds hstep
  | probed c err cancelled =>
      obtain ⟨call, hlookup, hstep⟩ := Option.bind_eq_some_iff.mp hstep
      exact heedInv_probed h (h c call hlookup) hstep
  | answered c err =>
      obtain ⟨call, hlookup, hstep⟩ := Option.bind_eq_some_iff.mp hstep
      exact heedInv_answered h hlookup hheeds hstep

/-! ## Runs -/

theorem allCalls_new (P : SelectingCall → Prop) (unix tcp : Bool) (reprobeInterval : ℕ) :
    AllCalls P (new unix tcp reprobeInterval) := nofun

/-- For any calls that share the client, in any order and with any outcomes: each is made at most
twice, and again only after a refused dial; where the steps allow for it, none is made over TCP
after it was denied. -/
theorem denied_stays_off_tcp (unix tcp : Bool) (reprobeInterval : ℕ) {es : List SelectingEvent}
    (hrun : run step (new unix tcp reprobeInterval) es = some s) :
    (∀ c call, s.calls.lookup c = some call → SentTwice call.history) ∧
      (Along step Heeds (new unix tcp reprobeInterval) es →
        ∀ c call, s.calls.lookup c = some call → DeniedMeansDenied call.history) := by
  constructor
  · have hinv : AllCalls CallInv s :=
      run_invariant (AllCalls CallInv) (fun _ => True)
        (fun _ _ _ _ h hstep => callInv_step h hstep) (fun _ _ => trivial)
        (allCalls_new _ unix tcp reprobeInterval) hrun
    exact fun c call hlookup => (hinv c call hlookup).sent
  · intro hheeds
    have hinv : AllCalls (HeedInv s.useTcp) s :=
      run_invariant_along (fun s => AllCalls (HeedInv s.useTcp) s)
        (fun _ _ _ h hP hstep => heedInv_step hP h hstep)
        (allCalls_new _ unix tcp reprobeInterval) hheeds hrun
    exact fun c call hlookup => (hinv c call hlookup).denied

end

/-! ## Two runs -/

/-- Nothing listens at the endpoint. -/
def connectionRefused : TransportError := ⟨.other, true, false, false, false, false⟩

/-- The kernel denies access to the socket. -/
def accessDenied : TransportError := ⟨.other, false, false, true, false, false⟩

/-- The Unix socket refuses the call `c`, which is made over TCP then. -/
def failsOver (c : ℕ) : List SelectingEvent :=
  [.invoke c, .locked c 0 0, .answered c (some connectionRefused), .locked c 1 1,
    .probed c none false, .locked c 2 2, .locked c 3 3, .answered c none]

/-- The re-probe of the call `c` is denied, and the client switched to Unix. -/
def probesDenied (c : ℕ) : List SelectingEvent :=
  [.invoke c, .locked c 100 101, .probed c (some accessDenied) false, .locked c 102 102]

def rereads : SelectingStage → Bool
  | .rereading _ => true
  | _ => false

/-- `Heeds`, for a given step. -/
def heedful (s : SelectingClient) : SelectingEvent → Bool
  | .locked c _ _ => (s.calls.lookup c).all fun call =>
      decide (call.stage ≠ .switching .tcp) || s.calls.entries.all fun entry =>
        decide (.denied ∉ entry.2.history) || !rereads entry.2.stage
  | .answered c (some err) => !err.isDialRefused .unix || (!err.deniedAccess &&
      (s.calls.lookup c).all fun call => decide (.denied ∉ call.history))
  | _ => true

theorem heeds_of_heedful (s : SelectingClient) (e : SelectingEvent) (h : heedful s e = true) :
    Heeds s e := by
  refine ⟨?_, ?_⟩
  · rintro c now later call rfl hcall hstage c' call' retry hcall' hdenied hrereading
    simp only [heedful, hcall, hstage, Option.all_some, ne_eq, not_true_eq_false, decide_false,
      Bool.false_or, List.all_eq_true] at h
    have hentry := h ⟨c', call'⟩ (AList.mem_lookup_iff.mp hcall')
    simp [hdenied, hrereading, rereads] at hentry
  · rintro c call err rfl hcall hstage hrefused
    simp only [heedful, hcall, hrefused, Option.all_some, Bool.not_true, Bool.false_or,
      Bool.and_eq_true, Bool.not_eq_true', decide_eq_true_eq] at h
    exact ⟨h.2, h.1⟩

/-- The client has fallen back to TCP when a re-probe is denied: its call goes to the Unix socket,
and the denial is what it returns. -/
theorem denied_stays_off_tcp_reprobe :
    ∃ s call, run step (new true true 30) (failsOver 0 ++ (probesDenied 1 ++
        [.locked 1 103 103, .answered 1 (some accessDenied)])) = some s ∧
      s.calls.lookup 1 = some call ∧ call.history = [.denied, .sent .unix, .denied] ∧
      SentTwice call.history ∧ DeniedMeansDenied call.history := by
  have hrun : ((run step (new true true 30) (failsOver 0 ++ (probesDenied 1 ++
      [.locked 1 103 103, .answered 1 (some accessDenied)]))).any fun s =>
        (s.calls.lookup 1).any fun call =>
          decide (call.history = [.denied, .sent .unix, .denied])) = true := by
    decide +kernel
  have hheedful : Along step (fun s e => heedful s e = true) (new true true 30) (failsOver 0 ++
      (probesDenied 1 ++ [.locked 1 103 103, .answered 1 (some accessDenied)])) := by
    decide +kernel
  obtain ⟨s, hs, hend⟩ := (Option.any_eq_true _ _).mp hrun
  obtain ⟨call, hcall, hhistory⟩ := (Option.any_eq_true _ _).mp hend
  have hlaw := denied_stays_off_tcp true true 30 hs
  exact ⟨s, call, hs, hcall, of_decide_eq_true hhistory, hlaw.1 1 call hcall,
    hlaw.2 (hheedful.mono heeds_of_heedful) 1 call hcall⟩

/-- The re-probe of a call is denied, and another call, whose attempt over Unix is refused only now,
switches the client back to TCP before the first has read the choice. -/
theorem denied_over_tcp :
    ∃ s call, run step (new true true 30) (([.invoke 2, .locked 2 0 0] : List SelectingEvent) ++
        (failsOver 0 ++ (probesDenied 1 ++ [.answered 2 (some connectionRefused), .locked 2 103 103,
          .probed 2 none false, .locked 2 104 104, .locked 1 105 105]))) = some s ∧
      s.calls.lookup 1 = some call ∧ ¬ DeniedMeansDenied call.history := by
  have hrun : ((run step (new true true 30) (([.invoke 2, .locked 2 0 0] : List SelectingEvent) ++
      (failsOver 0 ++ (probesDenied 1 ++ [.answered 2 (some connectionRefused), .locked 2 103 103,
        .probed 2 none false, .locked 2 104 104, .locked 1 105 105])))).any fun s =>
        (s.calls.lookup 1).any fun call =>
          decide (call.history = [.denied, .sent .tcp])) = true := by
    decide +kernel
  obtain ⟨s, hs, hend⟩ := (Option.any_eq_true _ _).mp hrun
  obtain ⟨call, hcall, hhistory⟩ := (Option.any_eq_true _ _).mp hend
  refine ⟨s, call, hs, hcall, fun hdenied => ?_⟩
  exact hdenied [] [.sent .tcp] (of_decide_eq_true hhistory) List.mem_cons_self

end Tymux.Analysis.DeniedCalls
