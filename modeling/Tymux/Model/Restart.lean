import Tymux.Model.Basic

/-!
# Restart policy and the lifecycle of one pane

`restart.rs`: the `PaneSupervisor` and its transitions. Everything is pure, as in the source;
the clock reading `now` is an argument. The delay before a restart is floating-point
arithmetic on the policy and a jitter sample, and `delayMs` stands for it: nothing below
depends on its value.
-/

set_option autoImplicit false

namespace Tymux.Model

/-- SRC: restart.rs:93-109 -/
inductive RestartMode where
  | never
  | onFailure
  | always
  | unlessStopped
  deriving DecidableEq, Repr

/-- SRC: restart.rs:111-130 -/
structure RestartPolicy where
  mode : RestartMode
  maxRestarts : ℕ
  windowMs : ℕ
  initialDelayMs : ℕ
  multiplier : F64
  maxDelayMs : ℕ
  jitter : F64
  healthyAfterMs : ℕ
  deriving DecidableEq, Repr

namespace RestartPolicy

/-- SRC: restart.rs:132-145 -/
def default : RestartPolicy where
  mode := .never
  maxRestarts := 5
  windowMs := 60000
  initialDelayMs := 1000
  multiplier := .finite 2
  maxDelayMs := 30000
  -- the `f64` nearest to 0.2
  jitter := .finite (3602879701896397 / 18014398509481984)
  healthyAfterMs := 10000

/-- What `validate` refuses, in the order it looks. The source renders these as text.
SRC: restart.rs:148-165 -/
inductive Invalid where
  | multiplier (got : F64)
  | jitter (got : F64)
  | maxDelay (maxDelayMs initialDelayMs : ℕ)
  deriving DecidableEq, Repr

def validate (p : RestartPolicy) : Except Invalid Unit :=
  if !p.multiplier.isFinite || (match p.multiplier with | .finite x => decide (x < 1) | _ => false)
  then .error (.multiplier p.multiplier)
  else if !p.jitter.isFinite || !p.jitter.inRange 0 1 then .error (.jitter p.jitter)
  else if p.maxDelayMs < p.initialDelayMs then .error (.maxDelay p.maxDelayMs p.initialDelayMs)
  else .ok ()

end RestartPolicy

/-- Where a pane is in its life.
SRC: restart.rs:185-205 -/
inductive LifecycleState where
  | live
  | exited
  | backoff
  | restarting
  | failed
  | stopped
  deriving DecidableEq, Repr

/-- A restart is on its way.
SRC: restart.rs:207-212 -/
def LifecycleState.restartPending : LifecycleState → Bool
  | backoff | restarting => true
  | _ => false

/-- SRC: restart.rs:214-222 -/
structure ExitRecord where
  code : Option ℤ
  signal : Option ℤ
  atMs : ℕ
  deriving DecidableEq, Repr

/-- What the supervisor does about an exit.
SRC: restart.rs:224-237 -/
inductive ExitKind where
  | notRestarted
  | scheduled (delayMs atMs : ℕ)
  | manualRestart
  | failed
  | stopped
  deriving DecidableEq, Repr

/-- SRC: restart.rs:239-248 -/
structure PersistedRestartState where
  policy : RestartPolicy
  state : LifecycleState
  restartCount : ℕ
  restartLogMs : List ℕ
  consecutiveFailures : ℕ
  lastExit : Option ExitRecord
  deriving DecidableEq, Repr

/-- `restartLog` is oldest first.
SRC: restart.rs:263-277 -/
structure PaneSupervisor where
  policy : RestartPolicy
  state : LifecycleState
  restartCount : ℕ
  restartLog : List ℕ
  consecutiveFailures : ℕ
  startedAtMs : Option ℕ
  lastExit : Option ExitRecord
  nextRestartAtMs : Option ℕ
  stopRequested : Bool
  restartRequested : Bool
  deriving DecidableEq, Repr

namespace PaneSupervisor

/-- SRC: restart.rs:279-295 -/
def new (policy : RestartPolicy) : PaneSupervisor where
  policy := policy
  state := .exited
  restartCount := 0
  restartLog := []
  consecutiveFailures := 0
  startedAtMs := none
  lastExit := none
  nextRestartAtMs := none
  stopRequested := false
  restartRequested := false

/-- SRC: restart.rs:297-319 -/
def restore (p : PersistedRestartState) : PaneSupervisor where
  policy := p.policy
  state := match p.state with
    | .stopped => .stopped
    | .failed => .failed
    | _ => .exited
  restartCount := p.restartCount
  restartLog := p.restartLogMs
  consecutiveFailures := p.consecutiveFailures
  startedAtMs := none
  lastExit := p.lastExit
  nextRestartAtMs := none
  stopRequested := false
  restartRequested := false

/-- SRC: restart.rs:319-327 -/
def persisted (s : PaneSupervisor) : PersistedRestartState where
  policy := s.policy
  state := s.state
  restartCount := s.restartCount
  restartLogMs := s.restartLog
  consecutiveFailures := s.consecutiveFailures
  lastExit := s.lastExit

/-- SRC: restart.rs:349-351 -/
def restartPending (s : PaneSupervisor) : Bool := s.state.restartPending

/-- SRC: restart.rs:353-359 -/
def windowStart (s : PaneSupervisor) (now : ℕ) : ℕ :=
  if s.policy.windowMs = 0 then 0 else now - s.policy.windowMs

/-- SRC: restart.rs:379-386 -/
def onStarted (s : PaneSupervisor) (now : ℕ) : PaneSupervisor :=
  { s with
    state := .live
    startedAtMs := some now
    nextRestartAtMs := none
    stopRequested := false
    restartRequested := false }

end PaneSupervisor

/-- Whether the mode restarts a process that ended with `code`.
SRC: restart.rs:435-439, 544-548 -/
def RestartMode.wantsRestart (mode : RestartMode) (code : Option ℤ) : Bool :=
  match mode with
  | never => false
  | onFailure => code ≠ some 0
  | always | unlessStopped => true

namespace PaneSupervisor

/-! ## Failures -/

section Failure

variable (delayMs : RestartPolicy → ℕ → F64 → ℕ)

/-- Decides what follows a run that ended on its own or never started: prune the log to the
window, then either give up or schedule the next restart.
SRC: restart.rs:428-461 -/
def afterFailure (s : PaneSupervisor) (now : ℕ) (code : Option ℤ) (ranFor : Option ℕ)
    (unit : F64) : PaneSupervisor × ExitKind :=
  if !s.policy.mode.wantsRestart code then ({ s with state := .exited }, .notRestarted) else
    let failures := if ranFor.any (fun d => s.policy.healthyAfterMs ≤ d) then 0
      else s.consecutiveFailures
    let log := s.restartLog.dropWhile fun t => t ≤ s.windowStart now
    let s := { s with consecutiveFailures := failures, restartLog := log }
    if s.policy.maxRestarts ≤ log.length then ({ s with state := .failed }, .failed) else
      let delay := delayMs s.policy failures unit
      let atMs := saturatingAdd u64Max now delay
      ({ s with
          consecutiveFailures := saturatingAdd u32Max failures 1
          state := .backoff
          nextRestartAtMs := some atMs }, .scheduled delay atMs)

/-- INTERNAL: everything `afterFailure` can do to the supervisor.
SRC: restart.rs:428-461 -/
theorem afterFailure_cases (s : PaneSupervisor) (now : ℕ) (code : Option ℤ) (ranFor : Option ℕ)
    (unit : F64) :
    (s.afterFailure delayMs now code ranFor unit).1 = { s with state := .exited } ∨
    ∃ failures, let pruned := s.restartLog.dropWhile fun t => t ≤ s.windowStart now
      (s.afterFailure delayMs now code ranFor unit).1 =
          { s with consecutiveFailures := failures, restartLog := pruned, state := .failed } ∨
      pruned.length < s.policy.maxRestarts ∧ ∃ atMs,
        (s.afterFailure delayMs now code ranFor unit).1 =
          { s with
            consecutiveFailures := failures
            restartLog := pruned
            state := .backoff
            nextRestartAtMs := some atMs } := by
  unfold afterFailure
  by_cases hwants : s.policy.mode.wantsRestart code = true
  · right
    rw [hwants, Bool.not_true, if_neg Bool.false_ne_true]
    dsimp only
    by_cases hmax : s.policy.maxRestarts ≤
        (s.restartLog.dropWhile fun t => t ≤ s.windowStart now).length
    · rw [if_pos hmax]
      exact ⟨_, Or.inl rfl⟩
    · rw [if_neg hmax]
      exact ⟨_, Or.inr ⟨Nat.lt_of_not_le hmax, _, rfl⟩⟩
  · left
    rw [if_pos (by simpa using hwants)]

/-- SRC: restart.rs:388-417 -/
def onExit (s : PaneSupervisor) (now : ℕ) (code signal : Option ℤ) (unit : F64) :
    PaneSupervisor × ExitKind :=
  let ranFor := s.startedAtMs.map fun t => now - t
  let s := { s with
    lastExit := some ⟨code, signal, now⟩
    startedAtMs := none
    nextRestartAtMs := none }
  if s.stopRequested then
    ({ s with stopRequested := false, restartRequested := false, state := .stopped }, .stopped)
  else if s.restartRequested then
    ({ s with restartRequested := false, state := .restarting, nextRestartAtMs := some now },
      .manualRestart)
  else s.afterFailure delayMs now code ranFor unit

/-- SRC: restart.rs:419-426 -/
def onSpawnFailed (s : PaneSupervisor) (now : ℕ) (unit : F64) : PaneSupervisor × ExitKind :=
  { s with startedAtMs := none, nextRestartAtMs := none }.afterFailure delayMs now none none unit

end Failure

/-! ## Restarts and operator requests -/

/-- SRC: restart.rs:463-466 -/
def due (s : PaneSupervisor) (now : ℕ) : Bool :=
  s.state.restartPending && s.nextRestartAtMs.any fun t => t ≤ now

/-- SRC: restart.rs:468-476 -/
def beginRestart (s : PaneSupervisor) (now : ℕ) (automatic : Bool) : PaneSupervisor :=
  { s with
    restartCount := saturatingAdd u32Max s.restartCount 1
    restartLog := if automatic then s.restartLog ++ [now] else s.restartLog
    nextRestartAtMs := none
    state := .restarting }

/-- SRC: restart.rs:478-485 -/
def scheduleManualRestartNow (s : PaneSupervisor) (now : ℕ) : PaneSupervisor :=
  { s with
    stopRequested := false
    restartRequested := false
    state := .restarting
    nextRestartAtMs := some now }

/-- Operator stop; the flag says that a live process must be signaled.
SRC: restart.rs:487-501 -/
def requestStop (s : PaneSupervisor) : PaneSupervisor × Bool :=
  let processRunning :=
    ((s.state = .live ∨ s.state = .restarting) && s.startedAtMs.isSome) || s.stopRequested
  ({ s with
      restartRequested := false
      nextRestartAtMs := none
      stopRequested := processRunning || s.stopRequested
      state := .stopped }, processRunning)

/-- Operator restart; the flag says that a live process must be signaled first.
SRC: restart.rs:503-518 -/
def requestRestart (s : PaneSupervisor) (resetBackoff : Bool) : PaneSupervisor × Bool :=
  let s := if resetBackoff then { s with consecutiveFailures := 0, restartLog := [] } else s
  let s := { s with stopRequested := false }
  if s.startedAtMs.isSome then ({ s with restartRequested := true, state := .restarting }, true)
  else (s, false)

/-- SRC: restart.rs:520-527 -/
def resetForStart (s : PaneSupervisor) : PaneSupervisor :=
  { s with
    consecutiveFailures := 0
    restartLog := []
    stopRequested := false
    restartRequested := false
    nextRestartAtMs := none }

/-- SRC: restart.rs:529-537 -/
def resetBudget (s : PaneSupervisor) : PaneSupervisor :=
  { s with
    consecutiveFailures := 0
    restartLog := []
    state := if s.state = .failed then .exited else s.state }

/-- SRC: restart.rs:539-555 -/
def setPolicy (s : PaneSupervisor) (policy : RestartPolicy) : PaneSupervisor :=
  let s := { s with policy := policy }
  if s.state = .backoff && !policy.mode.wantsRestart (s.lastExit.bind ExitRecord.code) then
    { s with state := .exited, nextRestartAtMs := none }
  else s

end PaneSupervisor

end Tymux.Model
