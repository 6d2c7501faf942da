import Tymux.Model.SupervisorTask
import Tymux.Analysis.StopSticky
import Tymux.Lib.Total

/-!
# The supervisor task is awake in time

What is scheduled may only come later than it was (`Later`) as long as nobody notifies the task, so a
task that sleeps sleeps no longer than up to the first pending restart (`Covered`). One call breaks
this: `start` and `restart` report a failed spawn to their caller only, and the restart that the
failure has scheduled is not told to the task (`Announced`). Then the task can sleep on for ever
(`restart_forgotten`).
-/

set_option autoImplicit false

namespace Tymux.Analysis

open Tymux.Lib Tymux.Model Supervision SupervisorTask

variable {delayMs : RestartPolicy → ℕ → F64 → ℕ}

/-! ## What is scheduled -/

/-- When a supervisor's restart is due, if one is pending. -/
def scheduled (sup : PaneSupervisor) : Option ℕ :=
  if sup.restartPending then sup.nextRestartAtMs else none

/-- Every pending restart was pending before, and not for later. -/
def Later (w w' : Supervision) : Prop :=
  ∀ id t', w'.restartAt id = some t' → ∃ t, w.restartAt id = some t ∧ t ≤ t'

theorem restartAt_of_entry {w : Supervision} {id : Uuid} {e : Entry} (he : w.entry id = some e) :
    w.restartAt id = scheduled e.sup := by
  unfold restartAt scheduled
  rw [he, Option.bind_some]

theorem restartAt_congr {w w' : Supervision} {id : Uuid} (h : w'.entry id = w.entry id) :
    w'.restartAt id = w.restartAt id := by
  unfold restartAt
  rw [h]

theorem scheduled_of_next {sup : PaneSupervisor} (h : sup.nextRestartAtMs = none) :
    scheduled sup = none := by
  unfold scheduled
  rw [h, ite_self]

theorem Later.refl (w : Supervision) : Later w w := fun _ t' h => ⟨t', h, le_rfl⟩

/-- INTERNAL: entries may go, and those that stay keep what is scheduled. -/
theorem later_of_restartAt {w w' : Supervision}
    (h : ∀ id, w'.restartAt id = none ∨ w'.restartAt id = w.restartAt id) : Later w w' := by
  intro id t' ht'
  rcases h id with hnone | hsame
  · rw [hnone] at ht'
    cases ht'
  · exact ⟨t', hsame ▸ ht', le_rfl⟩

theorem later_of_entries {w w' : Supervision} (h : ∀ id, w'.entry id = w.entry id) : Later w w' :=
  later_of_restartAt fun id => Or.inr (restartAt_congr (h id))

/-- INTERNAL: a change to the entry of one pane. -/
theorem later_of_entry {w w' : Supervision} (id : Uuid)
    (hothers : ∀ id', id' ≠ id → w'.entry id' = w.entry id')
    (hid : w'.restartAt id = none ∨ w'.restartAt id = w.restartAt id) : Later w w' := by
  refine later_of_restartAt fun id' => ?_
  by_cases heq : id' = id
  · rw [heq]
    exact hid
  · exact Or.inr (restartAt_congr (hothers id' heq))

/-! ## One respawn -/

theorem restartAt_setPane (w : Supervision) (a : ℕ) (p : Pane) (id : Uuid) :
    (w.setPane a p).restartAt id = w.restartAt id :=
  restartAt_congr (entry_setPane ..)

theorem restartAt_setEntry_self (w : Supervision) (id : Uuid) (e : Entry) :
    (w.setEntry id e).restartAt id = scheduled e.sup :=
  restartAt_of_entry (entry_setEntry_self ..)

theorem le_saturatingAdd {t now : ℕ} (hle : t ≤ now) (hclock : now ≤ u64Max) (delay : ℕ) :
    t ≤ saturatingAdd u64Max now delay := by
  unfold saturatingAdd
  omega

/-- INTERNAL: a failed spawn schedules nothing, or something after it.
SRC: restart.rs:419-461 -/
theorem nextRestart_onSpawnFailed (sup : PaneSupervisor) (now : ℕ) (unit : F64) :
    (sup.onSpawnFailed delayMs now unit).1.nextRestartAtMs = none ∨
      ∃ delay, (sup.onSpawnFailed delayMs now unit).1.nextRestartAtMs =
        some (saturatingAdd u64Max now delay) := by
  unfold PaneSupervisor.onSpawnFailed PaneSupervisor.afterFailure
  split
  · exact Or.inl rfl
  · dsimp only
    split
    · exact Or.inl rfl
    · exact Or.inr ⟨_, rfl⟩

theorem le_scheduled_onSpawnFailed {sup : PaneSupervisor} {now t' : ℕ} {unit : F64}
    (hclock : now ≤ u64Max)
    (h : scheduled (sup.onSpawnFailed delayMs now unit).1 = some t') : now ≤ t' := by
  unfold scheduled at h
  split_ifs at h
  rcases @nextRestart_onSpawnFailed delayMs sup now unit with hnone | ⟨delay, hsome⟩
  · rw [hnone] at h
    cases h
  · rw [hsome, Option.some_inj] at h
    exact h ▸ le_saturatingAdd le_rfl hclock delay

/-- INTERNAL: a respawn touches one entry only. It leaves it as it is, or nothing is scheduled in it
any more, or the spawn has failed and what is scheduled is not before it.
SRC: supervision.rs:201-240 -/
theorem doRespawn_cases (w : Supervision) (id : Uuid) (e : Entry) (automatic : Bool)
    (env : RespawnEnv) :
    (∀ id', id' ≠ id → (w.doRespawn delayMs id e automatic env).1.entry id' = w.entry id') ∧
      ((w.doRespawn delayMs id e automatic env).1.entry id = w.entry id ∧
          (∃ err, (w.doRespawn delayMs id e automatic env).2 = .error err) ∨
        (w.doRespawn delayMs id e automatic env).1.restartAt id = none ∨
        ∃ pane message,
          (w.doRespawn delayMs id e automatic env).2 = .error (.paneStart pane message) ∧
          (env.now ≤ u64Max → ∀ t',
            (w.doRespawn delayMs id e automatic env).1.restartAt id = some t' → env.now ≤ t')) := by
  unfold doRespawn
  cases w.upgrade e with
  | none => exact ⟨fun _ _ => rfl, Or.inl ⟨rfl, _, rfl⟩⟩
  | some ap =>
      obtain ⟨a, p⟩ := ap
      dsimp only
      split_ifs
      · exact ⟨fun _ _ => rfl, Or.inl ⟨rfl, _, rfl⟩⟩
      · rcases p.respawnWith env.spawn with ⟨q, _ | _⟩
        · refine ⟨fun id' hid => entry_setEntry_of_ne w _ hid, Or.inr (Or.inr ⟨_, _, rfl, ?_⟩)⟩
          intro hclock t' ht'
          rw [restartAt_setPane, restartAt_setEntry_self] at ht'
          exact le_scheduled_onSpawnFailed hclock ht'
        · refine ⟨fun id' hid => entry_setEntry_of_ne w _ hid, Or.inr (Or.inl ?_)⟩
          exact (restartAt_of_entry (entry_setEntry_self ..)).trans (scheduled_of_next rfl)

/-- INTERNAL: the loop of `run_due` schedules nothing before the clock readings of its spawns.
SRC: supervision.rs:257-266 -/
theorem runDueLoop_restartAt {now : ℕ} (due : List (Uuid × RespawnEnv)) {w : Supervision}
    (hdue : ∀ x ∈ due, now ≤ x.2.now ∧ x.2.now ≤ u64Max) (id : Uuid) :
    (w.runDueLoop delayMs due).restartAt id = w.restartAt id ∨
      id ∈ due.map Prod.fst ∧
        ∀ t', (w.runDueLoop delayMs due).restartAt id = some t' → now ≤ t' := by
  induction due generalizing w with
  | nil => exact Or.inl rfl
  | cons x due ih =>
      obtain ⟨id₀, env⟩ := x
      rw [List.forall_mem_cons] at hdue
      obtain ⟨⟨hnow, hclock⟩, hrest⟩ := hdue
      unfold runDueLoop
      cases he : w.entry id₀ with
      | none =>
          rcases ih hrest (w := w) with hsame | ⟨hmem, hlate⟩
          · exact Or.inl hsame
          · exact Or.inr ⟨List.mem_cons_of_mem _ hmem, hlate⟩
      | some e =>
          dsimp only
          obtain ⟨hothers, hown⟩ := @doRespawn_cases delayMs w id₀ e (e.sup.state = .backoff) env
          rcases ih hrest (w := (w.doRespawn delayMs id₀ e (e.sup.state = .backoff) env).1)
            with hsame | ⟨hmem, hlate⟩
          · rw [hsame]
            by_cases hid : id = id₀
            · subst hid
              rcases hown with ⟨hkeep, -⟩ | hnone | ⟨_, _, -, hlate⟩
              · exact Or.inl (restartAt_congr hkeep)
              · exact Or.inr ⟨List.mem_cons_self, fun t' ht' => by rw [hnone] at ht'; cases ht'⟩
              · exact Or.inr ⟨List.mem_cons_self, fun t' ht' => hnow.trans (hlate hclock t' ht')⟩
            · exact Or.inl (restartAt_congr (hothers id hid))
          · exact Or.inr ⟨List.mem_cons_of_mem _ hmem, hlate⟩

/-- What is due is scheduled for now or earlier. -/
theorem restartAt_of_isDue {w : Supervision} {now : ℕ} {id : Uuid} (h : w.isDue now id = true) :
    ∃ t, w.restartAt id = some t ∧ t ≤ now := by
  unfold isDue at h
  cases he : w.entry id with
  | none =>
      rw [he] at h
      cases h
  | some e =>
      rw [he] at h
      simp only [PaneSupervisor.due, Bool.and_eq_true, Option.any_eq_true, decide_eq_true_eq] at h
      obtain ⟨⟨hpending, t, ht, hle⟩, -⟩ := h
      refine ⟨t, ?_, hle⟩
      rw [restartAt_of_entry he]
      exact (if_pos hpending).trans ht

/-! ## Steps that do not notify -/

/-- What may happen without a word to the task: a `start` or `restart` that fails leaves no restart
behind it, and the clock is a number of 64 bits that does not go back within a call. -/
def Announced (delayMs : RestartPolicy → ℕ → F64 → ℕ) (w : Supervision) : Supervision.Event → Prop
  | .start id env =>
    (w.start delayMs id env).1.restartAt id = none ∨
      (w.start delayMs id env).1.restartAt id = w.restartAt id
  | .restart id resetBackoff kill env =>
    (w.restart delayMs id resetBackoff kill env).2.isOk ∨
      (w.restart delayMs id resetBackoff kill env).1.restartAt id = none ∨
      (w.restart delayMs id resetBackoff kill env).1.restartAt id = w.restartAt id
  | .runDue now due => ∀ x ∈ due, now ≤ x.2.now ∧ x.2.now ≤ u64Max
  | _ => True

/-- INTERNAL: a pane that is handed over has nothing scheduled, unless its exit is accounted for at
once, which notifies.
SRC: supervision.rs:100-114, 136-173 -/
theorem later_installHook {w : Supervision} {a : ℕ} {p : Pane} {sup : PaneSupervisor}
    (hpa : w.paneAt a = some p) (hexit : p.exitChecked = false) (hsup : sup.nextRestartAtMs = none)
    (now : ℕ) (unit : F64) :
    Later w ((w.setEntry p.id ⟨sup, some a⟩).installHook delayMs a now unit) := by
  have hstay : ({ p with hook := true } : Pane).exitChecked = false := hexit
  have hinstalled : (w.setEntry p.id ⟨sup, some a⟩).installHook delayMs a now unit =
      (w.setEntry p.id ⟨sup, some a⟩).setPane a { p with hook := true } := by
    unfold installHook
    rw [paneAt_setEntry, hpa]
    simp only [hstay, Bool.false_eq_true, if_false]
  rw [hinstalled]
  refine later_of_entry p.id (fun id' hid => entry_setEntry_of_ne w _ hid) (Or.inl ?_)
  rw [restartAt_setPane, restartAt_setEntry_self]
  exact scheduled_of_next hsup

theorem later_of_touches {w w' : Supervision} {id : Uuid} (h : Touches id w w')
    (hid : w'.restartAt id = none ∨ w'.restartAt id = w.restartAt id) : Later w w' :=
  later_of_entry _ h.entries hid

/-- INTERNAL: a stop that fails leaves every entry as it is.
SRC: supervision.rs:347-393 -/
theorem later_stop {w : Supervision} {id : Uuid} {kill : Except String Unit}
    (hfailed : (w.stop id kill).2.isOk = false) : Later w (w.stop id kill).1 := by
  have hpane : ∀ a p, Later w (w.setPane a p) := fun a p => later_of_entries fun _ => entry_setPane ..
  have hrefl := Later.refl w
  unfold stop at hfailed ⊢
  cases he : w.entry id <;> grind -ring -linarith [Except.toBool]

/-- INTERNAL: a restart that is carried out on the spot leaves nothing scheduled.
SRC: supervision.rs:395-435 -/
theorem restartAt_of_immediate {w : Supervision} {id : Uuid} {resetBackoff : Bool}
    {kill : Except String Unit} {env : RespawnEnv}
    (h : (w.restart delayMs id resetBackoff kill env).2 = .ok .immediate) :
    (w.restart delayMs id resetBackoff kill env).1.restartAt id = none := by
  have hown := fun w e => (@doRespawn_cases delayMs w id e false env).2
  unfold restart at h ⊢
  cases he : w.entry id <;> grind -ring -linarith

/-- INTERNAL: an operation that does not notify the task schedules nothing earlier than it was.
SRC: supervision.rs:100-275, 322-462 -/
theorem later_of_quiet {w w' : Supervision} {ev : Supervision.Event} (hw : Inv w)
    (hannounced : Announced delayMs w ev) (hquiet : w.wakes delayMs ev = false)
    (hstep : w.step delayMs ev = some w') : Later w w' := by
  cases ev with
  | spawnPane a id =>
      simp only [Supervision.step] at hstep
      split_ifs at hstep
      cases hstep
      exact later_of_entries fun _ => rfl
  | reader a code now unit =>
      obtain ⟨-, hsame | ⟨p, e, hpa, hr, he, hea, -, -⟩⟩ := readerStep_cases delayMs hstep
      · exact later_of_entries hsame
      · -- the exit is accounted for, which notifies
        simp [wakes, hpa, hr, accountExitWakes, he, hea] at hquiet
  | registerLive id a policy now hookNow unit =>
      simp only [Supervision.step] at hstep
      split_ifs at hstep with hid
      obtain ⟨p, hpa, hstep⟩ := Option.bind_eq_some_iff.mp hstep
      split_ifs at hstep
      cases hstep
      have hexit : p.exitChecked = false := by simpa [wakes, hpa] using hquiet
      exact later_installHook hpa hexit rfl hookNow unit
  | registerRestored id persisted policy =>
      cases hstep
      refine later_of_entry id (fun id' hid => entry_setEntry_of_ne w _ hid) (Or.inl ?_)
      refine (restartAt_setEntry_self ..).trans (scheduled_of_next ?_)
      cases persisted <;> rfl
  | adoptStarted id a policy now hookNow unit =>
      simp only [Supervision.step] at hstep
      split_ifs at hstep with hid
      obtain ⟨p, hpa, hstep⟩ := Option.bind_eq_some_iff.mp hstep
      split_ifs at hstep
      cases hstep
      have hexit : p.exitChecked = false := by simpa [wakes, hpa] using hquiet
      exact later_installHook hpa hexit rfl hookNow unit
  | forget id =>
      cases hstep
      refine later_of_touches (forget_spec hw id).2 ?_
      have hgone : (w.eraseEntry id).restartAt id = none := by
        simp [restartAt, entry_eraseEntry_self]
      unfold forget
      cases he : w.entry id <;> grind -ring -linarith [restartAt_setPane]
  | runDue now due =>
      simp only [Supervision.step] at hstep
      split_ifs at hstep with hdue
      cases hstep
      intro id t' ht'
      rcases runDueLoop_restartAt due hannounced id with hsame | ⟨hmem, hlate⟩
      · exact ⟨t', hsame ▸ ht', le_rfl⟩
      · obtain ⟨t, ht, hle⟩ := restartAt_of_isDue (List.of_mem_filter (hdue.mem_iff.mp hmem))
        exact ⟨t, ht, hle.trans (hlate t' ht')⟩
  | setPolicy id policy =>
      cases hstep
      have hfailed : (w.setPolicy id policy).2.isOk = false := hquiet
      have hrefl := Later.refl w
      unfold setPolicy at hfailed ⊢
      cases hvalid : policy.validate <;> cases he : w.entry id <;>
        grind -ring -linarith [Except.toBool]
  | stop id kill =>
      cases hstep
      exact later_stop hquiet
  | restart id resetBackoff kill env =>
      cases hstep
      refine later_of_touches (restart_spec delayMs hw id resetBackoff kill env).2 ?_
      rcases hannounced with hok | hown
      · cases hres : (w.restart delayMs id resetBackoff kill env).2 with
        | error err =>
            rw [hres] at hok
            cases hok
        | ok outcome =>
            cases outcome with
            | immediate => exact Or.inl (restartAt_of_immediate hres)
            | signaled => simp [wakes, hres] at hquiet
      · exact hown
  | start id env =>
      cases hstep
      exact later_of_touches (start_spec delayMs hw id env).2 hannounced
  | resetBudget id =>
      cases hstep
      refine later_of_touches (resetBudget_spec hw id).2 (Or.inr ?_)
      unfold resetBudget
      cases he : w.entry id with
      | none => rfl
      | some e =>
          refine (restartAt_setEntry_self ..).trans (Eq.trans ?_ (restartAt_of_entry he).symm)
          -- neither `failed` nor `exited` has a restart on its way
          unfold scheduled PaneSupervisor.restartPending PaneSupervisor.resetBudget
          by_cases hfailed : e.sup.state = .failed
          · simp [hfailed, LifecycleState.restartPending]
          · simp [hfailed]

/-! ## The task -/

/-- Where the task sleeps without a permit, it sleeps no longer than up to the first pending
restart, or a millisecond past its last run. -/
def Covered (s : SupervisorTask) : Prop :=
  ∀ d, s.stage = .waiting d → s.permit = true ∨
    ∀ id t, s.supervision.restartAt id = some t →
      ∃ due, d = some due ∧ due ≤ max t (s.lastTick + 1)

/-- What other tasks do meets `Announced`. -/
def AnnouncedBy (delayMs : RestartPolicy → ℕ → F64 → ℕ) (s : SupervisorTask) :
    SupervisorTask.Event → Prop
  | .other ev => Announced delayMs s.supervision ev
  | _ => True

theorem nextDue_le {w : Supervision} {id : Uuid} {t : ℕ} (h : w.restartAt id = some t) (now : ℕ) :
    ∃ due, w.nextDue now = some due ∧ due ≤ max t (now + 1) := by
  have hkey : id ∈ w.entries.keys := by
    obtain ⟨e, he, -⟩ := Option.bind_eq_some_iff.mp h
    rw [← AList.mem_keys, ← AList.lookup_isSome]
    exact Option.isSome_of_mem he
  have hmem : max t (now + 1) ∈
      (w.entries.keys.filterMap w.restartAt).map fun at_ => max at_ (now + 1) :=
    List.mem_map.mpr ⟨t, List.mem_filterMap.mpr ⟨id, hkey, h⟩, rfl⟩
  unfold nextDue
  cases hmin : ((w.entries.keys.filterMap w.restartAt).map fun at_ => max at_ (now + 1)).min? with
  | none =>
      rw [List.min?_eq_none_iff] at hmin
      rw [hmin] at hmem
      cases hmem
  | some due => exact ⟨due, rfl, (List.min?_eq_some_iff.mp hmin).2 _ hmem⟩

/-- INTERNAL: one step of the task or of anything else.
SRC: main.rs:465-486 -/
theorem covered_step {s s' : SupervisorTask} {ev : SupervisorTask.Event}
    (hs : Inv s.supervision ∧ Covered s) (hev : AnnouncedBy delayMs s ev)
    (hstep : s.step delayMs ev = some s') : Inv s'.supervision ∧ Covered s' := by
  obtain ⟨hw, hcovered⟩ := hs
  cases ev with
  | other ev =>
      obtain ⟨w, hwstep, rfl⟩ := Option.map_eq_some_iff.mp hstep
      refine ⟨inv_step delayMs ev hw hwstep, ?_⟩
      intro d hd
      rcases hcovered d hd with hpermit | hbefore
      · exact Or.inl (by simp [hpermit])
      · cases hwakes : s.supervision.wakes delayMs ev with
        | true => exact Or.inl (by simp)
        | false =>
            refine Or.inr fun id t' ht' => ?_
            obtain ⟨t, ht, hle⟩ := later_of_quiet hw hev hwakes hwstep id t' ht'
            obtain ⟨due, hdue, hbound⟩ := hbefore id t ht
            exact ⟨due, hdue, hbound.trans (max_le_max hle le_rfl)⟩
  | tick now due =>
      simp only [SupervisorTask.step] at hstep
      split_ifs at hstep
      obtain ⟨w, hwstep, rfl⟩ := Option.map_eq_some_iff.mp hstep
      refine ⟨inv_step delayMs _ hw hwstep, ?_⟩
      intro d hd
      refine Or.inr fun id t ht => ?_
      obtain ⟨first, hfirst, hle⟩ := nextDue_le ht now
      exact ⟨first, (TaskStage.waiting.inj hd).symm.trans hfirst, hle⟩
  | woken =>
      simp only [SupervisorTask.step] at hstep
      cases hstage : s.stage <;> grind -ring -linarith [Covered]
  | timeout clock =>
      simp only [SupervisorTask.step] at hstep
      rcases hstage : s.stage with _ | _ | due <;> grind -ring -linarith [Covered]

/-- A tick is possible whenever the task is about to run. -/
theorem exists_tick {s : SupervisorTask} (hstage : s.stage = .ticking) (now : ℕ) :
    ∃ due, (s.step delayMs (.tick now due)).isSome := by
  let env : RespawnEnv := ⟨now, .ok (), .nan⟩
  refine ⟨(s.supervision.entries.keys.filter (s.supervision.isDue now)).map fun id => (id, env), ?_⟩
  simp [SupervisorTask.step, Supervision.step, hstage, Function.comp_def]

/-- INTERNAL: **the supervisor task is awake in time.** Whatever other tasks do, and in whatever
order, a restart that is pending at `t` does not wait for anybody: at any reading of the clock from
`t` on, and past its last run, the task runs, or has a permit to be woken by, or its timer has
expired. The exception are a `start` and a `restart` whose spawn fails and leaves a restart behind.
SRC: main.rs:465-486, supervision.rs:181-275, 322-451 -/
theorem supervisor_wakes (delayMs : RestartPolicy → ℕ → F64 → ℕ) (evs : List SupervisorTask.Event)
    (hevs : Along (SupervisorTask.step delayMs) (AnnouncedBy delayMs) SupervisorTask.init evs)
    (s : SupervisorTask) (hrun : run (SupervisorTask.step delayMs) SupervisorTask.init evs = some s)
    (id : Uuid) (t : ℕ) (hpending : s.supervision.restartAt id = some t) (clock : ℕ)
    (hclock : max t (s.lastTick + 1) ≤ clock) :
    (∃ due, (s.step delayMs (.tick clock due)).isSome) ∨ (s.step delayMs .woken).isSome ∨
      (s.step delayMs (.timeout clock)).isSome := by
  have hcovered : Inv s.supervision ∧ Covered s := by
    refine run_invariant_along (fun s => Inv s.supervision ∧ Covered s) ?_ ?_ hevs hrun
    · intro s ev s' hs hev hstep
      exact covered_step hs hev hstep
    · exact ⟨inv_init, fun d hd => by cases hd⟩
  cases hstage : s.stage with
  | ticking => exact Or.inl (exists_tick hstage clock)
  | waiting d =>
      refine Or.inr ?_
      rcases hcovered.2 d hstage with hpermit | hbefore
      · exact Or.inl (by simp [SupervisorTask.step, hstage, hpermit])
      · obtain ⟨due, rfl, hle⟩ := hbefore id t hpending
        exact Or.inr (by simp [SupervisorTask.step, hstage, hle.trans hclock])

/-- A pane under a policy that always restarts, and its exit while the task sleeps. -/
def exitWhileAsleep : List SupervisorTask.Event :=
  registerAlways.map .other ++
    [.tick 1 [], .other (.reader 0 none 2 .nan), .other (.reader 0 none 2 .nan),
      .other (.reader 0 none 2 .nan)]

theorem supervisor_wakes_exitWhileAsleep :
    ∃ s, run (SupervisorTask.step fun _ _ _ => 0) SupervisorTask.init exitWhileAsleep = some s ∧
      s.supervision.restartAt 5 = some 2 ∧ s.stage = .waiting none ∧
      ((∃ due, (s.step (fun _ _ _ => 0) (.tick 2 due)).isSome) ∨
        (s.step (fun _ _ _ => 0) .woken).isSome ∨
        (s.step (fun _ _ _ => 0) (.timeout 2)).isSome) := by
  refine ⟨_, rfl, rfl, rfl, supervisor_wakes (fun _ _ _ => 0) exitWhileAsleep ?_ _ rfl 5 2 rfl 2
    (by decide)⟩
  have hquiet : ∀ ev ∈ exitWhileAsleep, ∀ s, AnnouncedBy (fun _ _ _ => 0) s ev := by
    intro ev hev s
    simp only [exitWhileAsleep, registerAlways, List.map_cons, List.map_nil, List.cons_append,
      List.nil_append, List.mem_cons, List.not_mem_nil, or_false] at hev
    rcases hev with rfl | rfl | rfl | rfl | rfl | rfl <;> trivial
  exact (along_of_forall _ hquiet).mono fun s ev hev => hev s

/-- The same pane, stopped, and started again by an operator when its process cannot be spawned. -/
def startThatFails : List SupervisorTask.Event :=
  registerAlways.map .other ++
    [.other (.stop 5 (.ok ())), .other (.reader 0 none 2 .nan), .other (.reader 0 none 2 .nan),
      .other (.reader 0 none 2 .nan), .other (.reader 0 none 2 .nan), .tick 3 [], .woken, .tick 4 [],
      .other (.start 5 ⟨5, .error "no such file", .nan⟩)]

/-- The restart that the failure has scheduled is never carried out: no reading of the clock wakes
the task.
SRC: supervision.rs:226-238, 437-451 -/
theorem restart_forgotten :
    ∃ s, run (SupervisorTask.step fun _ _ _ => 1000) SupervisorTask.init startThatFails = some s ∧
      s.supervision.restartAt 5 = some 1005 ∧
      ∀ clock, ((∀ due, s.step (fun _ _ _ => 1000) (.tick clock due) = none) ∧
        s.step (fun _ _ _ => 1000) .woken = none ∧
        s.step (fun _ _ _ => 1000) (.timeout clock) = none) :=
  ⟨_, rfl, rfl, fun _ => ⟨fun _ => rfl, rfl, rfl⟩⟩

end Tymux.Analysis
