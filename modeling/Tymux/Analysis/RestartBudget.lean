import Tymux.Model.Restart

/-!
# The restart budget

The budget is checked when a failure is accounted (`afterFailure`) and charged when the
restart fires (`beginRestart`). In between the supervisor sits in `backoff`, which it only
enters with room in the log, and the log holds every automatic restart that any later window
can still see. So a restart that fires finds the room that was left for it.

The log is pruned with `t <= windowStart`, and both `now - windowMs` and the `0` that stands
for "no window" bottom out at `0`. A restart charged at clock reading `0` is therefore
forgotten at once (`budget_exceeded_at_zero`); restarts charged at any later reading are not
(`autoRestarts_withinBudget`).
-/

set_option autoImplicit false

namespace Tymux.Analysis

open Tymux.Model

/-- What drives a supervisor under a constant policy. `runDue` is `run_due` followed by
`do_respawn`, with their clock readings; `respawn` is `do_respawn` for an operator restart. -/
inductive BudgetEvent where
  | started (now : ℕ)
  | exit (now : ℕ) (code signal : Option ℤ) (unit : F64)
  | spawnFailed (now : ℕ) (unit : F64)
  | runDue (now spawnNow : ℕ) (spawned : Bool) (unit : F64)
  | respawn (now : ℕ) (spawned : Bool) (unit : F64)
  | requestStop
  | requestRestart
  | scheduleManualRestartNow (now : ℕ)

namespace BudgetEvent

/-- The clock readings of an event, in order. -/
def readings : BudgetEvent → List ℕ
  | started now => [now]
  | exit now _ _ _ => [now]
  | spawnFailed now _ => [now]
  | runDue now spawnNow _ _ => [now, spawnNow]
  | respawn now _ _ => [now]
  | requestStop => []
  | requestRestart => []
  | scheduleManualRestartNow now => [now]

variable (delayMs : RestartPolicy → ℕ → F64 → ℕ)

/-- `do_respawn`: charge, then start the process or account for the failed start.
SRC: supervision.rs:201-240 -/
def respawnSup (s : PaneSupervisor) (now : ℕ) (automatic spawned : Bool) (unit : F64) :
    PaneSupervisor :=
  let s := s.beginRestart now automatic
  if spawned then s.onStarted now else (s.onSpawnFailed delayMs now unit).1

def apply (s : PaneSupervisor) : BudgetEvent → PaneSupervisor
  | started now => s.onStarted now
  | exit now code signal unit => (s.onExit delayMs now code signal unit).1
  | spawnFailed now unit => (s.onSpawnFailed delayMs now unit).1
  | runDue now spawnNow spawned unit =>
    if s.due now then respawnSup delayMs s spawnNow (s.state = .backoff) spawned unit else s
  | respawn now spawned unit => respawnSup delayMs s now false spawned unit
  | requestStop => s.requestStop.1
  | requestRestart => (s.requestRestart false).1
  | scheduleManualRestartNow now => s.scheduleManualRestartNow now

/-- The time of the automatic restart that an event makes, if it makes one. -/
def charge (s : PaneSupervisor) : BudgetEvent → Option ℕ
  | runDue now spawnNow _ _ => if s.due now && s.state = .backoff then some spawnNow else none
  | _ => none

end BudgetEvent

section Budget

variable (delayMs : RestartPolicy → ℕ → F64 → ℕ)

/-- The times of all automatic restarts of a run, oldest first. -/
def autoRestarts (s : PaneSupervisor) : List BudgetEvent → List ℕ
  | [] => []
  | e :: es => (e.charge s).toList ++ autoRestarts (e.apply delayMs s) es

/-- `x` lies in `(t - windowMs, t]`; with no window every time does. -/
def inWindow (windowMs t x : ℕ) : Bool := windowMs = 0 || (t < x + windowMs && x ≤ t)

/-- At each automatic restart, the restarts in the window that ends there, that one
included, are at most `maxRestarts`. -/
def WithinBudget (policy : RestartPolicy) (autos : List ℕ) : Prop :=
  ∀ past t, past ++ [t] <+: autos →
    ((past ++ [t]).filter (inWindow policy.windowMs t)).length ≤ policy.maxRestarts

/-- No automatic restart is charged at clock reading `0`. -/
def ChargesPositive (s : PaneSupervisor) : List BudgetEvent → Prop
  | [] => True
  | e :: es => (match e with
      | .runDue now spawnNow _ _ => s.due now = true → s.state = .backoff → 0 < spawnNow
      | _ => True) ∧ ChargesPositive (e.apply delayMs s) es

/-- What holds after the restarts `past`, when the clock has reached `clock`. -/
structure BudgetInv (s : PaneSupervisor) (past : List ℕ) (clock : ℕ) : Prop where
  kept : ∀ t, clock ≤ t → (past.filter (inWindow s.policy.windowMs t)).Sublist s.restartLog
  positive : ∀ x ∈ past, 0 < x
  elapsed : ∀ x ∈ past, x ≤ clock
  room : s.state = .backoff → s.restartLog.length < s.policy.maxRestarts

variable {delayMs}

/-! ## The log -/

/-- INTERNAL: a sublist that avoids the predicate survives `dropWhile`. -/
theorem sublist_dropWhile {α : Type*} {p : α → Bool} {l' l : List α} (h : l'.Sublist l)
    (hp : ∀ x ∈ l', p x = false) : l'.Sublist (l.dropWhile p) := by
  induction h with
  | slnil => exact List.Sublist.slnil
  | @cons l₁ l₂ a hs ih =>
      by_cases ha : p a = true
      · rw [List.dropWhile_cons_of_pos ha]
        exact ih hp
      · rw [List.dropWhile_cons_of_neg ha]
        exact hs.cons a
  | @cons_cons l₁ l₂ a hs ih =>
      have ha : p a = false := hp a (List.mem_cons_self ..)
      rw [List.dropWhile_cons_of_neg (by simp [ha])]
      exact hs.cons_cons a

/-- INTERNAL: a positive time that some later window sees is not pruned.
SRC: restart.rs:353-359, 450-452 -/
theorem windowStart_lt_of_inWindow {s : PaneSupervisor} {now t x : ℕ} (hnow : now ≤ t)
    (hpos : 0 < x) (hx : inWindow s.policy.windowMs t x = true) : s.windowStart now < x := by
  unfold PaneSupervisor.windowStart
  by_cases hw : s.policy.windowMs = 0
  · rw [if_pos hw]
    exact hpos
  · rw [if_neg hw]
    simp only [inWindow, hw, decide_false, Bool.false_or, Bool.and_eq_true,
      decide_eq_true_eq] at hx
    omega

/-- INTERNAL: accounting for a failure keeps the invariant and leaves room behind when it
schedules a restart.
SRC: restart.rs:428-461 -/
theorem budgetInv_afterFailure {s : PaneSupervisor} {past : List ℕ} {clock now : ℕ}
    (h : BudgetInv { s with state := .exited } past clock) (hnow : clock ≤ now)
    (code : Option ℤ) (ranFor : Option ℕ) (unit : F64) :
    BudgetInv (s.afterFailure delayMs now code ranFor unit).1 past now := by
  have helapsed : ∀ x ∈ past, x ≤ now := fun x hx => le_trans (h.elapsed x hx) hnow
  have hkept : ∀ t, now ≤ t → (past.filter (inWindow s.policy.windowMs t)).Sublist
      (s.restartLog.dropWhile fun x => x ≤ s.windowStart now) := by
    intro t ht
    apply sublist_dropWhile (h.kept t (le_trans hnow ht))
    intro x hx
    obtain ⟨hmem, hin⟩ := List.mem_filter.mp hx
    have hlt := windowStart_lt_of_inWindow (s := s) ht (h.positive x hmem) hin
    simpa using hlt
  rcases s.afterFailure_cases delayMs now code ranFor unit with
    heq | ⟨failures, heq | ⟨hroom, atMs, heq⟩⟩
  · rw [heq]
    exact ⟨fun t ht => h.kept t (le_trans hnow ht), h.positive, helapsed, by simp⟩
  · rw [heq]
    exact ⟨hkept, h.positive, helapsed, by simp⟩
  · rw [heq]
    exact ⟨hkept, h.positive, helapsed, fun _ => hroom⟩

/-- INTERNAL: the same log and policy in a state other than backoff keep the invariant at any
later clock. -/
theorem BudgetInv.of_not_backoff {s s' : PaneSupervisor} {past : List ℕ} {clock now : ℕ}
    (h : BudgetInv s past clock) (hnow : clock ≤ now) (hpolicy : s'.policy = s.policy)
    (hlog : s'.restartLog = s.restartLog) (hstate : s'.state ≠ .backoff) :
    BudgetInv s' past now where
  kept t ht := by
    rw [hpolicy, hlog]
    exact h.kept t (le_trans hnow ht)
  positive := h.positive
  elapsed x hx := le_trans (h.elapsed x hx) hnow
  room hb := absurd hb hstate

/-- INTERNAL: charging an automatic restart at a positive time.
SRC: restart.rs:468-476 -/
theorem budgetInv_charge {s : PaneSupervisor} {past : List ℕ} {clock now : ℕ}
    (h : BudgetInv s past clock) (hnow : clock ≤ now) (hpos : 0 < now) :
    BudgetInv (s.beginRestart now true) (past ++ [now]) now where
  kept t ht := by
    have hold := h.kept t (le_trans hnow ht)
    rw [List.filter_append]
    exact hold.append List.filter_sublist
  positive x hx := by
    rcases List.mem_append.mp hx with hx | hx
    · exact h.positive x hx
    · rwa [List.mem_singleton.mp hx]
  elapsed x hx := by
    rcases List.mem_append.mp hx with hx | hx
    · exact le_trans (h.elapsed x hx) hnow
    · exact (List.mem_singleton.mp hx).le
  room hb := by cases hb

/-- INTERNAL: the process start that follows a charge keeps the invariant, whatever its
outcome.
SRC: supervision.rs:219-240 -/
theorem budgetInv_respawned {s : PaneSupervisor} {past : List ℕ} {now : ℕ} {automatic : Bool}
    (h : BudgetInv (s.beginRestart now automatic) past now) (spawned : Bool) (unit : F64) :
    BudgetInv (BudgetEvent.respawnSup delayMs s now automatic spawned unit) past now := by
  unfold BudgetEvent.respawnSup
  cases spawned with
  | true => exact h.of_not_backoff (le_refl now) rfl rfl (by simp [PaneSupervisor.onStarted])
  | false =>
      apply budgetInv_afterFailure _ (le_refl now)
      exact h.of_not_backoff (le_refl now) rfl rfl (by simp)

/-! ## Steps and runs -/

/-- INTERNAL: one event keeps the invariant, with its charge appended to the past.
SRC: restart.rs:379-555, supervision.rs:201-275 -/
theorem budgetInv_step {s : PaneSupervisor} {past : List ℕ} {clock : ℕ} (e : BudgetEvent)
    (h : BudgetInv s past clock) (hclock : (clock :: e.readings).Pairwise (· ≤ ·))
    (hpos : ∀ t ∈ e.charge s, 0 < t) :
    BudgetInv (e.apply delayMs s) (past ++ (e.charge s).toList)
      ((clock :: e.readings).getLast (List.cons_ne_nil _ _)) := by
  cases e with
  | started now =>
      have hnow : clock ≤ now := by simpa [BudgetEvent.readings] using hclock
      rw [show (BudgetEvent.charge s _).toList = [] from rfl, List.append_nil]
      exact h.of_not_backoff hnow rfl rfl (by simp [BudgetEvent.apply, PaneSupervisor.onStarted])
  | exit now code signal unit =>
      have hnow : clock ≤ now := by simpa [BudgetEvent.readings] using hclock
      rw [show (BudgetEvent.charge s _).toList = [] from rfl, List.append_nil]
      change BudgetInv (s.onExit delayMs now code signal unit).1 past now
      unfold PaneSupervisor.onExit
      dsimp only
      split_ifs with hstop hrestart
      · exact h.of_not_backoff hnow rfl rfl (by simp)
      · exact h.of_not_backoff hnow rfl rfl (by simp)
      · apply budgetInv_afterFailure _ hnow
        exact h.of_not_backoff (le_refl clock) rfl rfl (by simp)
  | spawnFailed now unit =>
      have hnow : clock ≤ now := by simpa [BudgetEvent.readings] using hclock
      rw [show (BudgetEvent.charge s _).toList = [] from rfl, List.append_nil]
      apply budgetInv_afterFailure _ hnow
      exact h.of_not_backoff (le_refl clock) rfl rfl (by simp)
  | runDue now spawnNow spawned unit =>
      have hnow : clock ≤ spawnNow := by
        simp only [BudgetEvent.readings, List.pairwise_cons, List.mem_cons] at hclock
        exact hclock.1 spawnNow (Or.inr (Or.inl rfl))
      change BudgetInv (if s.due now then _ else s) _ spawnNow
      by_cases hdue : s.due now = true
      · rw [if_pos hdue]
        by_cases hb : s.state = .backoff
        · have hcharge : BudgetEvent.charge s (.runDue now spawnNow spawned unit) =
              some spawnNow := by simp [BudgetEvent.charge, hdue, hb]
          rw [hcharge, Option.toList_some, decide_eq_true hb]
          apply budgetInv_respawned
          exact budgetInv_charge h hnow (hpos spawnNow hcharge)
        · have hcharge : BudgetEvent.charge s (.runDue now spawnNow spawned unit) = none := by
            simp [BudgetEvent.charge, hb]
          rw [hcharge, Option.toList_none, List.append_nil, decide_eq_false hb]
          apply budgetInv_respawned
          exact h.of_not_backoff hnow rfl rfl (by simp [PaneSupervisor.beginRestart])
      · have hcharge : BudgetEvent.charge s (.runDue now spawnNow spawned unit) = none := by
          simp [BudgetEvent.charge, hdue]
        rw [if_neg hdue, hcharge, Option.toList_none, List.append_nil]
        refine ⟨fun t ht => h.kept t (le_trans hnow ht), h.positive, ?_, h.room⟩
        exact fun x hx => le_trans (h.elapsed x hx) hnow
  | respawn now spawned unit =>
      have hnow : clock ≤ now := by simpa [BudgetEvent.readings] using hclock
      rw [show (BudgetEvent.charge s _).toList = [] from rfl, List.append_nil]
      apply budgetInv_respawned
      exact h.of_not_backoff hnow rfl rfl (by simp [PaneSupervisor.beginRestart])
  | requestStop =>
      rw [show (BudgetEvent.charge s _).toList = [] from rfl, List.append_nil]
      exact h.of_not_backoff (le_refl clock) rfl rfl
        (by simp [BudgetEvent.apply, PaneSupervisor.requestStop])
  | requestRestart =>
      rw [show (BudgetEvent.charge s _).toList = [] from rfl, List.append_nil]
      change BudgetInv (s.requestRestart false).1 past clock
      simp only [PaneSupervisor.requestRestart, Bool.false_eq_true, if_false]
      split_ifs with hrunning
      · exact h.of_not_backoff (le_refl clock) rfl rfl (by simp)
      · exact ⟨h.kept, h.positive, h.elapsed, h.room⟩
  | scheduleManualRestartNow now =>
      have hnow : clock ≤ now := by simpa [BudgetEvent.readings] using hclock
      rw [show (BudgetEvent.charge s _).toList = [] from rfl, List.append_nil]
      exact h.of_not_backoff hnow rfl rfl
        (by simp [BudgetEvent.apply, PaneSupervisor.scheduleManualRestartNow])

theorem policy_afterFailure (s : PaneSupervisor) (now : ℕ) (code : Option ℤ)
    (ranFor : Option ℕ) (unit : F64) :
    (s.afterFailure delayMs now code ranFor unit).1.policy = s.policy := by
  rcases s.afterFailure_cases delayMs now code ranFor unit with
    heq | ⟨failures, heq | ⟨-, atMs, heq⟩⟩ <;> rw [heq]

theorem policy_respawnSup (s : PaneSupervisor) (now : ℕ) (automatic spawned : Bool)
    (unit : F64) :
    (BudgetEvent.respawnSup delayMs s now automatic spawned unit).policy = s.policy := by
  cases spawned with
  | true => rfl
  | false => exact policy_afterFailure _ now none none unit

/-- INTERNAL: no event changes the policy. -/
theorem policy_apply (e : BudgetEvent) (s : PaneSupervisor) :
    (e.apply delayMs s).policy = s.policy := by
  cases e with
  | exit now code signal unit =>
      change (s.onExit delayMs now code signal unit).1.policy = s.policy
      unfold PaneSupervisor.onExit
      dsimp only
      split_ifs with hstop hrestart
      · rfl
      · rfl
      · exact policy_afterFailure _ now code _ unit
  | spawnFailed now unit => exact policy_afterFailure _ now none none unit
  | runDue now spawnNow spawned unit =>
      change (if s.due now then _ else s).policy = s.policy
      split_ifs with hdue
      · exact policy_respawnSup s spawnNow _ spawned unit
      · rfl
  | respawn now spawned unit => exact policy_respawnSup s now false spawned unit
  | requestRestart =>
      change (s.requestRestart false).1.policy = s.policy
      simp only [PaneSupervisor.requestRestart, Bool.false_eq_true, if_false]
      split_ifs <;> rfl
  | _ => rfl

/-- INTERNAL: a charge comes from a due supervisor in backoff. -/
theorem charge_eq_some {s : PaneSupervisor} {e : BudgetEvent} {t : ℕ} (h : e.charge s = some t) :
    ∃ now spawned unit, e = .runDue now t spawned unit ∧ s.due now = true ∧
      s.state = .backoff := by
  cases e with
  | runDue now spawnNow spawned unit =>
      unfold BudgetEvent.charge at h
      dsimp only at h
      split_ifs at h with hdue
      simp only [Bool.and_eq_true, decide_eq_true_eq] at hdue
      cases h
      exact ⟨now, spawned, unit, rfl, hdue.1, hdue.2⟩
  | _ => cases h

/-- INTERNAL: an automatic restart finds the room that `afterFailure` left for it.
SRC: restart.rs:450-461 -/
theorem withinBudget_charge {s : PaneSupervisor} {past : List ℕ} {clock : ℕ} (e : BudgetEvent)
    (h : BudgetInv s past clock) (hpast : WithinBudget s.policy past)
    (hnow : ∀ t ∈ e.charge s, clock ≤ t) :
    WithinBudget s.policy (past ++ (e.charge s).toList) := by
  cases hc : e.charge s with
  | none => simpa using hpast
  | some t =>
      obtain ⟨now, spawned, unit, -, -, hb⟩ := charge_eq_some hc
      rw [Option.toList_some]
      intro l x hl
      rcases List.prefix_concat_iff.mp (by simpa using hl) with heq | hshort
      · -- the new restart itself
        have hlog : ((l ++ [x]).filter (inWindow s.policy.windowMs x)).length ≤
            s.restartLog.length + 1 := by
          obtain ⟨rfl, hx⟩ := List.append_inj' heq rfl
          have hxt : x = t := by simpa using hx
          rw [List.filter_append, List.length_append, hxt]
          have hkept := (h.kept t (hnow t hc)).length_le
          have hone := List.length_filter_le (inWindow s.policy.windowMs t) [t]
          rw [List.length_singleton] at hone
          omega
        have hroom := h.room hb
        omega
      · exact hpast l x hshort

theorem le_of_charge {s : PaneSupervisor} {e : BudgetEvent} {clock : ℕ}
    (hclock : (clock :: e.readings).Pairwise (· ≤ ·)) : ∀ t ∈ e.charge s, clock ≤ t := by
  intro t ht
  obtain ⟨now, spawned, unit, rfl, -, -⟩ := charge_eq_some ht
  exact (List.pairwise_cons.mp hclock).1 t (by simp [BudgetEvent.readings])

theorem charge_pos_of_chargesPositive {s : PaneSupervisor} {e : BudgetEvent}
    (hpos : match e with
      | .runDue now spawnNow _ _ => s.due now = true → s.state = .backoff → 0 < spawnNow
      | _ => True) : ∀ t ∈ e.charge s, 0 < t := by
  intro t ht
  obtain ⟨now, spawned, unit, rfl, hdue, hb⟩ := charge_eq_some ht
  exact hpos hdue hb

/-- INTERNAL: a run from a state with `past` behind it keeps the whole history within the
budget. -/
theorem withinBudget_of_inv (es : List BudgetEvent) {s : PaneSupervisor} {past : List ℕ}
    {clock : ℕ} (h : BudgetInv s past clock) (hpast : WithinBudget s.policy past)
    (hclock : (clock :: es.flatMap BudgetEvent.readings).Pairwise (· ≤ ·))
    (hpos : ChargesPositive delayMs s es) :
    WithinBudget s.policy (past ++ autoRestarts delayMs s es) := by
  induction es generalizing s past clock with
  | nil => simpa [autoRestarts] using hpast
  | cons e es ih =>
      rw [List.flatMap_cons] at hclock
      have hsplit : (clock :: e.readings ++ es.flatMap BudgetEvent.readings).Pairwise (· ≤ ·) :=
        hclock
      obtain ⟨hfirst, hrest, hcross⟩ := List.pairwise_append.mp hsplit
      have hcharge : ∀ t ∈ e.charge s, 0 < t := charge_pos_of_chargesPositive hpos.1
      have hstep : BudgetInv (e.apply delayMs s) (past ++ (e.charge s).toList)
          ((clock :: e.readings).getLast (List.cons_ne_nil _ _)) :=
        budgetInv_step e h hfirst hcharge
      have hpolicy : (e.apply delayMs s).policy = s.policy := policy_apply e s
      have hnext : WithinBudget (e.apply delayMs s).policy (past ++ (e.charge s).toList) := by
        rw [hpolicy]
        exact withinBudget_charge e h hpast (le_of_charge hfirst)
      have hclock' : ((clock :: e.readings).getLast (List.cons_ne_nil _ _) ::
          es.flatMap BudgetEvent.readings).Pairwise (· ≤ ·) :=
        List.pairwise_cons.mpr ⟨hcross _ (List.getLast_mem _), hrest⟩
      have hdone := ih hstep hnext hclock' hpos.2
      rwa [hpolicy, List.append_assoc] at hdone

end Budget

/-- The two ways a supervisor comes into being.
SRC: restart.rs:279-319 -/
def Initial (s : PaneSupervisor) : Prop :=
  (∃ policy, s = PaneSupervisor.new policy) ∨ ∃ persisted, s = PaneSupervisor.restore persisted

theorem initial_not_backoff {s : PaneSupervisor} (h : Initial s) : s.state ≠ .backoff := by
  rcases h with ⟨policy, rfl⟩ | ⟨persisted, rfl⟩
  · simp [PaneSupervisor.new]
  · unfold PaneSupervisor.restore
    cases persisted.state <;> simp

/-- INTERNAL: **the restart budget over whole runs.** Under any sequence of events with
nondecreasing clock readings in which no automatic restart is charged at reading `0`, each
automatic restart is one of at most `maxRestarts` in the window that ends at it.
SRC: restart.rs:353-555, supervision.rs:201-275 -/
theorem autoRestarts_withinBudget (delayMs : RestartPolicy → ℕ → F64 → ℕ) (s : PaneSupervisor)
    (hs : Initial s) (es : List BudgetEvent)
    (hclock : (es.flatMap BudgetEvent.readings).Pairwise (· ≤ ·))
    (hpos : ChargesPositive delayMs s es) :
    WithinBudget s.policy (autoRestarts delayMs s es) := by
  have hinv : BudgetInv s [] 0 :=
    ⟨fun t _ => List.nil_sublist _, by simp, by simp, fun hb => absurd hb (initial_not_backoff hs)⟩
  have hempty : WithinBudget s.policy [] := by
    intro past t h
    exact absurd (List.prefix_nil.mp h) (by simp)
  have hclock' : (0 :: es.flatMap BudgetEvent.readings).Pairwise (· ≤ ·) :=
    List.pairwise_cons.mpr ⟨fun x _ => Nat.zero_le x, hclock⟩
  simpa using withinBudget_of_inv es hinv hempty hclock' hpos

/-- A policy that restarts at once, and one time in a second. -/
def oneRestart : RestartPolicy where
  mode := .always
  maxRestarts := 1
  windowMs := 1000
  initialDelayMs := 0
  multiplier := .finite 2
  maxDelayMs := 0
  jitter := .finite 0
  healthyAfterMs := 10000

/-- Start, crash, restart, crash and try again, all at clock reading `t`. -/
def crashTwice (t : ℕ) : List BudgetEvent :=
  [.started t, .exit t (some 1) none (.finite 0), .runDue t t true (.finite 0),
    .exit t (some 1) none (.finite 0), .runDue t t true (.finite 0)]

theorem autoRestarts_withinBudget_crashTwice :
    WithinBudget oneRestart
      (autoRestarts (fun p _ _ => p.initialDelayMs) (.new oneRestart) (crashTwice 7)) ∧
    autoRestarts (fun p _ _ => p.initialDelayMs) (.new oneRestart) (crashTwice 7) = [7] :=
  ⟨autoRestarts_withinBudget _ (.new oneRestart) (Or.inl ⟨_, rfl⟩) (crashTwice 7) (by decide)
    ⟨trivial, trivial, fun _ _ => by decide, trivial, fun _ _ => by decide, trivial⟩,
    by decide⟩

/-- INTERNAL: at clock reading `0` the log forgets every restart, and a budget of one restart
allows two. -/
theorem budget_exceeded_at_zero :
    oneRestart.validate = .ok () ∧
    ((crashTwice 0).flatMap BudgetEvent.readings).Pairwise (· ≤ ·) ∧
    ¬ WithinBudget oneRestart
      (autoRestarts (fun p _ _ => p.initialDelayMs) (.new oneRestart) (crashTwice 0)) := by
  have hautos : autoRestarts (fun p _ _ => p.initialDelayMs) (.new oneRestart) (crashTwice 0) =
      [0, 0] := by decide
  refine ⟨by decide, by decide, ?_⟩
  rw [hautos]
  intro h
  have htwo := h [0] 0 (List.prefix_refl _)
  exact absurd htwo (by decide)

end Tymux.Analysis
