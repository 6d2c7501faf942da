import Tymux.Model.Supervision
import Tymux.Analysis.SupervisorInvariant

/-!
# Supervision over whole runs

The invariant of an entry has two halves: `SupInv` for its supervisor, and `Linked` for the
pane it points to. `Linked` says that the supervisor believes in a running process exactly as
long as the exit of that process has not been accounted for, that is until the reader thread
has run the exit hook. Every event keeps both (`inv_step`), so every reachable state has them
(`supervision_invariant`), and a stopped pane stays stopped (`stop_sticky`).
-/

set_option autoImplicit false

namespace Tymux.Analysis

open Tymux.Model Supervision

/-- The reader thread has not run the exit hook of the current process yet, and will. -/
def Unaccounted (p : Pane) : Prop :=
  p.reader = .running ∨ p.reader = .reaped ∨ p.reader = .checked true

/-- What a supervisor knows about the pane of its entry. -/
structure Linked (id : Uuid) (sup : PaneSupervisor) (p : Pane) : Prop where
  id : p.id = id
  hook : p.hook = true
  retired : p.retired = false
  started : sup.startedAtMs.isSome ↔ Unaccounted p
  terminated : sup.restartRequested = true → p.terminated = true

/-- An accepted signal really went to the process, unless it was already reaped; only a
supervised pane has a hook to run or is ever retired. -/
structure PaneInv (p : Pane) : Prop where
  retired : p.retired = true → p.hook = true
  checked : p.reader = .checked true → p.hook = true
  signaled : p.terminated = true → p.reader = .running → p.lastSignal = some sigterm

structure EntryInv (w : Supervision) (id : Uuid) (e : Entry) : Prop where
  sup : SupInv e.sup
  restored : e.pane = none → e.sup.startedAtMs = none ∧ e.sup.state.restartPending = false
  linked : ∀ a, e.pane = some a → ∃ p, w.paneAt a = some p ∧ Linked id e.sup p

structure Inv (w : Supervision) : Prop where
  entries : ∀ id e, w.entry id = some e → EntryInv w id e
  panes : ∀ a p, w.paneAt a = some p → PaneInv p

theorem inv_init : Inv init where
  entries id e h := by simp [entry, init] at h
  panes a p h := by simp [paneAt, init] at h

/-! ## Frames -/

/-- INTERNAL: a change to one pane and the entry it belongs to keeps the invariant when the two
still agree. Other entries point to other panes. -/
theorem Inv.update {w w' : Supervision} (hw : Inv w) (id : Uuid) (a : ℕ) {p : Pane}
    (hold : ∀ q, w.paneAt a = some q → q.id = id)
    (hentries : ∀ id', id' ≠ id → w'.entry id' = w.entry id')
    (hpanes : ∀ a', a' ≠ a → w'.paneAt a' = w.paneAt a') (hp : w'.paneAt a = some p)
    (hpane : PaneInv p)
    (hnew : ∀ e, w'.entry id = some e → e.pane = some a ∧ SupInv e.sup ∧ Linked id e.sup p) :
    Inv w' where
  entries id' e' h' := by
    by_cases hid : id' = id
    · subst hid
      obtain ⟨hea, hsup, hlink⟩ := hnew e' h'
      refine ⟨hsup, by simp [hea], ?_⟩
      intro a' ha'
      rw [hea, Option.some_inj] at ha'
      exact ⟨p, ha' ▸ hp, hlink⟩
    · rw [hentries id' hid] at h'
      have hold' := hw.entries id' e' h'
      refine ⟨hold'.sup, hold'.restored, ?_⟩
      intro a' ha'
      obtain ⟨q, hq, hl⟩ := hold'.linked a' ha'
      have hne : a' ≠ a := by
        rintro rfl
        exact hid (hl.id.symm.trans (hold q hq))
      exact ⟨q, (hpanes a' hne).trans hq, hl⟩
  panes a' q hq := by
    by_cases ha : a' = a
    · subst ha
      rw [hp, Option.some_inj] at hq
      exact hq ▸ hpane
    · rw [hpanes a' ha] at hq
      exact hw.panes a' q hq

/-- INTERNAL: a change to an entry without a pane. -/
theorem Inv.updateRestored {w w' : Supervision} (hw : Inv w) (id : Uuid) {sup : PaneSupervisor}
    (hentries : ∀ id', id' ≠ id → w'.entry id' = w.entry id')
    (hpanes : ∀ a, w'.paneAt a = w.paneAt a) (he : w'.entry id = some ⟨sup, none⟩)
    (hsup : SupInv sup) (hidle : sup.startedAtMs = none)
    (hpend : sup.state.restartPending = false) : Inv w' where
  entries id' e' h' := by
    by_cases hid : id' = id
    · subst hid
      rw [he, Option.some_inj] at h'
      subst h'
      exact ⟨hsup, fun _ => ⟨hidle, hpend⟩, by simp⟩
    · rw [hentries id' hid] at h'
      have hold := hw.entries id' e' h'
      refine ⟨hold.sup, hold.restored, ?_⟩
      intro a ha
      rw [hpanes a]
      exact hold.linked a ha
  panes a q hq := hw.panes a q ((hpanes a).symm.trans hq)

/-- INTERNAL: a change to one pane alone. -/
theorem Inv.setPane {w : Supervision} (hw : Inv w) {a : ℕ} {p : Pane}
    (hlink : ∀ id e, w.entry id = some e → e.pane = some a → Linked id e.sup p)
    (hpane : PaneInv p) : Inv (w.setPane a p) where
  entries id e h := by
    rw [entry_setPane] at h
    have hold := hw.entries id e h
    refine ⟨hold.sup, hold.restored, ?_⟩
    intro a' ha'
    by_cases ha : a' = a
    · subst ha
      exact ⟨p, paneAt_setPane_self .., hlink id e h ha'⟩
    · obtain ⟨q, hq, hl⟩ := hold.linked a' ha'
      exact ⟨q, (paneAt_setPane_of_ne w p ha).trans hq, hl⟩
  panes a' q hq := by
    by_cases ha : a' = a
    · subst ha
      rw [paneAt_setPane_self, Option.some_inj] at hq
      exact hq ▸ hpane
    · rw [paneAt_setPane_of_ne w p ha] at hq
      exact hw.panes a' q hq

/-- An operation for `id` leaves every other entry and its pane alone and starts processes
for `id` only. -/
structure Touches (id : Uuid) (w w' : Supervision) : Prop where
  entries : ∀ id', id' ≠ id → w'.entry id' = w.entry id'
  panes : ∀ a p, w.paneAt a = some p → p.id ≠ id → w'.paneAt a = some p
  spawned : w'.spawned = w.spawned ∨ w'.spawned = id :: w.spawned

theorem Touches.refl (id : Uuid) (w : Supervision) : Touches id w w :=
  ⟨fun _ _ => rfl, fun _ _ h _ => h, Or.inl rfl⟩

/-- INTERNAL: writing the entry of `id` and one pane of `id` touches nothing else. -/
theorem touches_set {w w' : Supervision} {id : Uuid} {a : ℕ}
    (hold : ∀ q, w.paneAt a = some q → q.id = id)
    (hentries : ∀ id', id' ≠ id → w'.entry id' = w.entry id')
    (hpanes : ∀ a', a' ≠ a → w'.paneAt a' = w.paneAt a')
    (hspawned : w'.spawned = w.spawned ∨ w'.spawned = id :: w.spawned) : Touches id w w' where
  entries := hentries
  panes a' q hq hid := by
    have hne : a' ≠ a := by
      rintro rfl
      exact hid (hold q hq)
    exact (hpanes a' hne).trans hq
  spawned := hspawned

theorem Inv.linked_of_pane {w : Supervision} (hw : Inv w) {id : Uuid} {e : Entry} {a : ℕ}
    {p : Pane} (he : w.entry id = some e) (hea : e.pane = some a) (hpa : w.paneAt a = some p) :
    Linked id e.sup p := by
  obtain ⟨q, hq, hl⟩ := (hw.entries id e he).linked a hea
  rw [hpa, Option.some_inj] at hq
  exact hq ▸ hl

/-- INTERNAL: the pane of an entry, when it has one. -/
theorem Inv.upgrade_eq {w : Supervision} (hw : Inv w) {id : Uuid} {e : Entry}
    (he : w.entry id = some e) :
    (e.pane = none ∧ w.upgrade e = none) ∨
    ∃ a p, e.pane = some a ∧ w.paneAt a = some p ∧ w.upgrade e = some (a, p) ∧
      Linked id e.sup p := by
  cases hp : e.pane with
  | none => exact Or.inl ⟨rfl, by simp [upgrade, hp]⟩
  | some a =>
      obtain ⟨p, hpa, hl⟩ := (hw.entries id e he).linked a hp
      exact Or.inr ⟨a, p, rfl, hpa, by simp [upgrade, hp, hpa], hl⟩

theorem not_isExited_of_unaccounted {p : Pane} (h : Unaccounted p) : p.isExited = false := by
  rcases h with h | h | h <;> simp [Pane.isExited, h]

theorem started_none_of_not_unaccounted {id : Uuid} {sup : PaneSupervisor} {p : Pane}
    (hl : Linked id sup p) (hp : ¬ Unaccounted p) : sup.startedAtMs = none := by
  cases hs : sup.startedAtMs with
  | none => rfl
  | some t => exact absurd (hl.started.mp (by simp [hs])) hp

theorem not_unaccounted_of_isExited {p : Pane} (h : p.isExited = true) : ¬ Unaccounted p := by
  intro hu
  rw [not_isExited_of_unaccounted hu] at h
  cases h

/-- INTERNAL: an idle supervisor agrees with a pane whose exit is accounted for. -/
theorem Idle.linked {id : Uuid} {sup : PaneSupervisor} {p : Pane} (h : Idle sup)
    (hid : p.id = id) (hhook : p.hook = true) (hret : p.retired = false)
    (hp : ¬ Unaccounted p) : Linked id sup p where
  id := hid
  hook := hhook
  retired := hret
  started := by simp [h.started, hp]
  terminated hr := by simp [h.restart] at hr

/-- INTERNAL: the fields of a pane that `Linked` reads. -/
theorem Linked.congr {id : Uuid} {sup : PaneSupervisor} {p q : Pane} (h : Linked id sup p)
    (hid : q.id = p.id) (hhook : q.hook = p.hook) (hret : q.retired = p.retired)
    (hreader : q.reader = p.reader) (hterm : p.terminated = true → q.terminated = true) :
    Linked id sup q where
  id := hid.trans h.id
  hook := hhook.trans h.hook
  retired := hret.trans h.retired
  started := by
    have hu : Unaccounted q ↔ Unaccounted p := by simp only [Unaccounted, hreader]
    rw [hu]
    exact h.started
  terminated hr := hterm (h.terminated hr)

theorem PaneInv.withPending {p : Pane} (h : PaneInv p) (b : Bool) :
    PaneInv { p with restartPending := b } :=
  ⟨h.retired, h.checked, h.signaled⟩

/-! ## Signals -/

/-- INTERNAL: `terminate` keeps what the entry knows about the pane.
SRC: pane.rs:838-896 -/
theorem linked_terminate {id : Uuid} {sup : PaneSupervisor} {p : Pane} (h : Linked id sup p)
    (kill : Except String Unit) : Linked id sup (p.terminate kill).1 := by
  rcases p.terminate_cases kill with ⟨-, e, heq⟩ | ⟨-, heq⟩ | ⟨-, heq⟩
  · rw [heq]
    exact h.congr rfl rfl rfl rfl fun ht => ht
  · rw [heq]
    exact h.congr rfl rfl rfl rfl fun _ => rfl
  · rw [heq]
    exact h.congr rfl rfl rfl rfl fun _ => rfl

theorem paneInv_terminate {p : Pane} (h : PaneInv p) (kill : Except String Unit) :
    PaneInv (p.terminate kill).1 := by
  rcases p.terminate_cases kill with ⟨-, e, heq⟩ | ⟨-, heq⟩ | ⟨hr, heq⟩
  · rw [heq]
    exact ⟨h.retired, h.checked, fun _ _ => rfl⟩
  · rw [heq]
    exact ⟨h.retired, h.checked, fun _ _ => rfl⟩
  · rw [heq]
    exact ⟨h.retired, h.checked, fun _ hr' => absurd hr' hr⟩

section Steps

variable (delayMs : RestartPolicy → ℕ → F64 → ℕ)

/-! ## Exits and registration -/

/-- INTERNAL: the reader thread moves on without running a hook. -/
theorem inv_advance {w : Supervision} (hw : Inv w) {a : ℕ} {p : Pane} (hpa : w.paneAt a = some p)
    (phase : ReaderPhase) (code : Option ℤ) (hrun : phase ≠ .running)
    (hchecked : phase = .checked true → p.hook = true)
    (hsame : ∀ id e, w.entry id = some e → e.pane = some a → Linked id e.sup p →
      (Unaccounted { p with reader := phase, exitCode := code } ↔ Unaccounted p)) :
    Inv (w.setPane a { p with reader := phase, exitCode := code }) := by
  have hpinv := hw.panes a p hpa
  refine hw.setPane ?_ ⟨hpinv.retired, hchecked, fun _ hr => absurd hr hrun⟩
  intro id e he hea
  have hl := hw.linked_of_pane he hea hpa
  exact ⟨hl.id, hl.hook, hl.retired, hl.started.trans (hsame id e he hea hl).symm, hl.terminated⟩

/-- INTERNAL: an exit changes nothing when the entry of the pane's id points elsewhere.
SRC: supervision.rs:184-189 -/
theorem accountExit_of_other {w : Supervision} {a : ℕ} {p : Pane} {code : Option ℤ} {now : ℕ}
    {unit : F64} (h : ¬ ∃ e, w.entry p.id = some e ∧ e.pane = some a) :
    w.accountExit delayMs a p code now unit = w := by
  unfold accountExit
  cases he : w.entry p.id with
  | none => rfl
  | some e =>
      have hne : e.pane ≠ some a := fun hea => h ⟨e, he, hea⟩
      simp [hne]

/-- INTERNAL: the exit hook of the pane that its entry points to.
SRC: supervision.rs:181-199 -/
theorem accountExit_of_entry {w : Supervision} {a : ℕ} {p : Pane} {e : Entry}
    (code : Option ℤ) (now : ℕ) (unit : F64) (he : w.entry p.id = some e) (hea : e.pane = some a) :
    w.accountExit delayMs a p code now unit =
      (w.setEntry p.id ⟨(e.sup.onExit delayMs now code p.lastSignal unit).1, some a⟩).setPane a
        { p with
          restartPending := (e.sup.onExit delayMs now code p.lastSignal unit).1.restartPending } := by
  unfold accountExit
  simp [he, hea]

/-- INTERNAL: the end of a process, seen from its reader thread.
SRC: pane.rs:613-647, supervision.rs:181-199 -/
theorem inv_readerStep {w w' : Supervision} (hw : Inv w) {a : ℕ} {code : Option ℤ} {now : ℕ}
    {unit : F64} (h : w.readerStep delayMs a code now unit = some w') : Inv w' := by
  unfold readerStep at h
  rw [Option.bind_eq_some_iff] at h
  obtain ⟨p, hpa, h⟩ := h
  cases hr : p.reader with
  | running =>
      simp only [hr, Option.some_inj] at h
      subst h
      apply inv_advance hw hpa <;> simp [Unaccounted, hr]
  | reaped =>
      simp only [hr, Option.some_inj] at h
      subst h
      apply inv_advance hw hpa _ p.exitCode (by simp) (by simp)
      intro id e he hea hl
      simp [Unaccounted, hr, hl.hook]
  | checked hook =>
      cases hook with
      | false =>
          simp only [hr, Option.some_inj] at h
          subst h
          apply inv_advance hw hpa _ p.exitCode <;> simp [Unaccounted, hr]
      | true =>
          simp only [hr] at h
          by_cases hmine : ∃ e, w.entry p.id = some e ∧ e.pane = some a
          · obtain ⟨e, he, hea⟩ := hmine
            have hl := hw.linked_of_pane he hea hpa
            obtain ⟨hsup, hidle⟩ :=
              supInv_onExit delayMs e.sup now p.exitCode p.lastSignal unit
            rw [accountExit_of_entry delayMs _ _ _ he hea, paneAt_setPane_self, Option.map_some,
              Option.some_inj] at h
            subst h
            refine hw.update p.id a ?_ ?_ ?_ (paneAt_setPane_self ..) ?_ ?_
            · intro q hq
              rw [hpa, Option.some_inj] at hq
              rw [hq]
            · intro id' hid
              simp [hid]
            · intro a' ha
              simp [ha]
            · exact ⟨(hw.panes a p hpa).retired, by simp, by simp⟩
            · intro e' he'
              simp only [entry_setPane, entry_setEntry_self, Option.some_inj] at he'
              subst he'
              exact ⟨rfl, hsup, hidle.linked rfl hl.hook hl.retired (by simp [Unaccounted])⟩
          · -- the entry belongs to another pane by now
            rw [accountExit_of_other delayMs hmine, hpa, Option.map_some, Option.some_inj] at h
            subst h
            apply inv_advance hw hpa _ p.exitCode (by simp) (by simp)
            intro id e he hea hl
            exact absurd ⟨e, hl.id ▸ he, hea⟩ hmine
  | accounted =>
      simp only [hr, Option.some_inj] at h
      subst h
      apply inv_advance hw hpa _ p.exitCode <;> simp [Unaccounted, hr]
  | exited => simp [hr] at h

/-- INTERNAL: a pane that is handed over starts live, or is accounted for at once when its
reader had already looked for a hook.
SRC: supervision.rs:100-114, 136-151, 165-173 -/
theorem installHook_spec {w : Supervision} (hw : Inv w) {a : ℕ} {p : Pane}
    (hpa : w.paneAt a = some p) (hhook : p.hook = false) (s : PaneSupervisor)
    (now hookNow : ℕ) (unit : F64) :
    Inv ((w.setEntry p.id ⟨s.onStarted now, some a⟩).installHook delayMs a hookNow unit) ∧
      Touches p.id w
        ((w.setEntry p.id ⟨s.onStarted now, some a⟩).installHook delayMs a hookNow unit) := by
  have hpinv := hw.panes a p hpa
  have hret : p.retired = false := by
    rw [Bool.eq_false_iff]
    intro hr
    have := hpinv.retired hr
    simp [hhook] at this
  have hnotChecked : p.reader ≠ .checked true := by
    intro hr
    have := hpinv.checked hr
    simp [hhook] at this
  have hold : ∀ q, w.paneAt a = some q → q.id = p.id := by
    intro q hq
    rw [hpa, Option.some_inj] at hq
    rw [hq]
  unfold installHook
  simp only [paneAt_setEntry, hpa]
  by_cases hx : Pane.exitChecked { p with hook := true } = true
  · rw [if_pos hx]
    have hgone : ¬ Unaccounted p := by
      unfold Pane.exitChecked at hx
      unfold Unaccounted
      cases hr : p.reader <;> simp_all
    obtain ⟨hsup, hidle⟩ :=
      supInv_onExit delayMs (s.onStarted now) hookNow p.exitCode p.lastSignal unit
    rw [accountExit_of_entry delayMs _ _ _ (e := ⟨s.onStarted now, some a⟩) (by simp) rfl]
    constructor
    · refine hw.update _ a hold ?_ ?_ (paneAt_setPane_self ..) ?_ ?_
      · intro id' hid
        simp [hid]
      · intro a' ha
        simp [ha]
      · exact ⟨fun _ => rfl, fun _ => rfl, hpinv.signaled⟩
      · intro e he
        simp only [entry_setPane, entry_setEntry_self, Option.some_inj] at he
        subst he
        exact ⟨rfl, hsup, hidle.linked rfl rfl hret hgone⟩
    · refine touches_set hold ?_ ?_ (Or.inl rfl)
      · intro id' hid
        simp [hid]
      · intro a' ha
        simp [ha]
  · rw [if_neg hx]
    have hrun : Unaccounted p := by
      unfold Pane.exitChecked at hx
      unfold Unaccounted
      cases hr : p.reader <;> simp_all
    constructor
    · refine hw.update _ a hold ?_ ?_ (paneAt_setPane_self ..) ?_ ?_
      · intro id' hid
        simp [hid]
      · intro a' ha
        simp [ha]
      · exact ⟨fun _ => rfl, fun _ => rfl, hpinv.signaled⟩
      · intro e he
        simp only [entry_setPane, entry_setEntry_self, Option.some_inj] at he
        subst he
        refine ⟨rfl, supInv_onStarted s now, rfl, rfl, hret, ?_, ?_⟩
        · exact iff_of_true rfl hrun
        · intro hr
          simp [PaneSupervisor.onStarted] at hr
    · refine touches_set hold ?_ ?_ (Or.inl rfl)
      · intro id' hid
        simp [hid]
      · intro a' ha
        simp [ha]

/-! ## Restarts -/

/-- INTERNAL: `doRespawn` for an entry without pending operator requests whose pane, if it has
one, has published its exit. The entry may have been rewritten since the invariant held.
SRC: supervision.rs:201-240 -/
theorem doRespawn_spec {w₀ w : Supervision} (hw : Inv w₀) {id : Uuid} {e₀ e : Entry}
    (he₀ : w₀.entry id = some e₀) (hpane : e.pane = e₀.pane)
    (hentries : ∀ id', id' ≠ id → w.entry id' = w₀.entry id')
    (hpanes : ∀ a, w.paneAt a = w₀.paneAt a) (hspawned : w.spawned = w₀.spawned)
    (he : w.entry id = some e) (hstop : e.sup.stopRequested = false)
    (hrestart : e.sup.restartRequested = false)
    (hexited : ∀ a p, e.pane = some a → w.paneAt a = some p → p.isExited = true)
    (hnone : e.pane = none →
      SupInv e.sup ∧ e.sup.startedAtMs = none ∧ e.sup.state.restartPending = false)
    (automatic : Bool) (env : RespawnEnv) :
    Inv (w.doRespawn delayMs id e automatic env).1 ∧
      Touches id w₀ (w.doRespawn delayMs id e automatic env).1 := by
  cases hp : e.pane with
  | none =>
      have hup : w.upgrade e = none := by simp [upgrade, hp]
      obtain ⟨hsup, hidle, hpend⟩ := hnone hp
      have he' : w.entry id = some ⟨e.sup, none⟩ := by rw [he, ← hp]
      simp only [doRespawn, hup]
      exact ⟨hw.updateRestored id hentries hpanes he' hsup hidle hpend,
        ⟨hentries, fun a p h _ => (hpanes a).trans h, Or.inl hspawned⟩⟩
  | some a =>
      obtain ⟨p, hpa, hl⟩ := (hw.entries id e₀ he₀).linked a (hpane ▸ hp)
      have hpa' : w.paneAt a = some p := (hpanes a).trans hpa
      have hup : w.upgrade e = some (a, p) := by simp [upgrade, hp, hpa']
      have hx := hexited a p hp hpa'
      have hold : ∀ q, w₀.paneAt a = some q → q.id = id := by
        intro q hq
        rw [hpa, Option.some_inj] at hq
        exact hq ▸ hl.id
      have hgone := not_unaccounted_of_isExited hx
      have hpinv := hw.panes a p hpa
      simp only [doRespawn, hup, hl.retired, Bool.false_eq_true, if_false, Pane.respawnWith, hx,
        Bool.not_true]
      cases env.spawn with
      | error message =>
          obtain ⟨hsup, hidle⟩ := supInv_onSpawnFailed delayMs
            (s := e.sup.beginRestart env.now automatic) hstop hrestart env.now env.unit
          constructor
          · refine hw.update _ a hold ?_ ?_ (paneAt_setPane_self ..) (hpinv.withPending _) ?_
            · intro id' hid
              simp [hid, hentries id' hid]
            · intro a' ha
              simp [ha, hpanes a']
            · intro e' he'
              simp only [entry_setPane, entry_setEntry_self, Option.some_inj] at he'
              subst he'
              exact ⟨hp, hsup, hidle.linked hl.id hl.hook hl.retired hgone⟩
          · refine touches_set hold ?_ ?_ (Or.inl hspawned)
            · intro id' hid
              simp [hid, hentries id' hid]
            · intro a' ha
              simp [ha, hpanes a']
      | ok u =>
          constructor
          · refine hw.update _ a hold ?_ ?_ (paneAt_setPane_self ..) ?_ ?_
            · intro id' hid
              exact (entry_setEntry_of_ne w _ hid).trans (hentries id' hid)
            · intro a' ha
              exact (paneAt_setPane_of_ne _ _ ha).trans (hpanes a')
            · exact ⟨fun _ => hl.hook, fun _ => hl.hook, by simp⟩
            · intro e' he'
              have heq : e' = ⟨(e.sup.beginRestart env.now automatic).onStarted env.now, e.pane⟩ :=
                (Option.some_inj.mp ((entry_setEntry_self w id _).symm.trans he')).symm
              subst heq
              refine ⟨hp, supInv_onStarted _ _, hl.id, hl.hook, rfl, ?_, ?_⟩
              · exact iff_of_true rfl (Or.inl rfl)
              · intro hr
                simp [PaneSupervisor.onStarted] at hr
          · refine touches_set hold ?_ ?_ ?_
            · intro id' hid
              exact (entry_setEntry_of_ne w _ hid).trans (hentries id' hid)
            · intro a' ha
              exact (paneAt_setPane_of_ne _ _ ha).trans (hpanes a')
            · right
              change p.id :: w.spawned = id :: w₀.spawned
              rw [hl.id, hspawned]

/-- The pane of the entry has published its exit. -/
def Published (w : Supervision) (id : Uuid) : Prop :=
  ∀ e, w.entry id = some e → ∃ a p, e.pane = some a ∧ w.paneAt a = some p ∧ p.isExited = true

theorem published_of_isDue {w : Supervision} {now : ℕ} {id : Uuid} (h : w.isDue now id = true) :
    Published w id := by
  intro e he
  simp only [isDue, he, Bool.and_eq_true] at h
  obtain ⟨-, hx⟩ := h
  cases hp : e.pane with
  | none => simp [upgrade, hp] at hx
  | some a =>
      cases hpa : w.paneAt a with
      | none => simp [upgrade, hp, hpa] at hx
      | some p =>
          simp only [upgrade, hp, hpa, Option.bind_some, Option.map_some, Option.any_some] at hx
          exact ⟨a, p, rfl, hpa, hx⟩

/-- INTERNAL: an operation for another id keeps the exit published. -/
theorem Published.touches {w w' : Supervision} (hw : Inv w) {id id' : Uuid}
    (h : Published w id') (ht : Touches id w w') (hne : id' ≠ id) : Published w' id' := by
  intro e he
  rw [ht.entries id' hne] at he
  obtain ⟨a, p, hea, hpa, hx⟩ := h e he
  have hl := hw.linked_of_pane he hea hpa
  exact ⟨a, p, hea, ht.panes a p hpa (hl.id ▸ hne), hx⟩

/-- INTERNAL: `doRespawn` on the entry as it stands. -/
theorem doRespawn_of_published {w : Supervision} (hw : Inv w) {id : Uuid} {e : Entry}
    (he : w.entry id = some e) (hpub : Published w id) (automatic : Bool) (env : RespawnEnv) :
    Inv (w.doRespawn delayMs id e automatic env).1 ∧
      Touches id w (w.doRespawn delayMs id e automatic env).1 := by
  obtain ⟨a, p, hea, hpa, hx⟩ := hpub e he
  have hl := hw.linked_of_pane he hea hpa
  have hidle := (hw.entries id e he).sup.idle
    (started_none_of_not_unaccounted hl (not_unaccounted_of_isExited hx))
  refine doRespawn_spec delayMs hw he rfl (fun _ _ => rfl) (fun _ => rfl) rfl he hidle.stop
    hidle.restart ?_ (by simp [hea]) automatic env
  intro a' p' hea' hpa'
  rw [hea, Option.some_inj] at hea'
  rw [← hea', hpa, Option.some_inj] at hpa'
  exact hpa' ▸ hx

/-- INTERNAL: the loop of `run_due` keeps the invariant, leaves all entries alone that it does
not visit, and starts processes only for those it visits.
SRC: supervision.rs:257-266 -/
theorem runDueLoop_spec (due : List (Uuid × RespawnEnv)) {w : Supervision} (hw : Inv w)
    (hnodup : (due.map Prod.fst).Nodup) (hpub : ∀ id ∈ due.map Prod.fst, Published w id) :
    Inv (w.runDueLoop delayMs due) ∧ ∀ id, id ∉ due.map Prod.fst →
      (w.runDueLoop delayMs due).entry id = w.entry id ∧
      (w.runDueLoop delayMs due).spawned.count id = w.spawned.count id := by
  induction due generalizing w with
  | nil => exact ⟨hw, fun id _ => ⟨rfl, rfl⟩⟩
  | cons d rest ih =>
      obtain ⟨id, env⟩ := d
      simp only [List.map_cons, List.nodup_cons, List.mem_cons, forall_eq_or_imp] at hnodup hpub
      obtain ⟨hfresh, hnodup⟩ := hnodup
      obtain ⟨hpub₁, hpub⟩ := hpub
      cases he : w.entry id with
      | none =>
          simp only [runDueLoop, he, List.map_cons, List.mem_cons, not_or]
          obtain ⟨hinv, hframe⟩ := ih hw hnodup hpub
          exact ⟨hinv, fun id' hid' => hframe id' hid'.2⟩
      | some e =>
          simp only [runDueLoop, he, List.map_cons, List.mem_cons, not_or]
          obtain ⟨hinv, ht⟩ :=
            doRespawn_of_published delayMs hw he hpub₁ (e.sup.state = .backoff) env
          have hpub' : ∀ id' ∈ rest.map Prod.fst,
              Published (w.doRespawn delayMs id e (e.sup.state = .backoff) env).1 id' := by
            intro id' hid'
            apply (hpub id' hid').touches hw ht
            rintro rfl
            exact hfresh hid'
          obtain ⟨hinv', hframe⟩ := ih hinv hnodup hpub'
          refine ⟨hinv', ?_⟩
          intro id' hid'
          obtain ⟨hentry, hcount⟩ := hframe id' hid'.2
          refine ⟨hentry.trans (ht.entries id' hid'.1), hcount.trans ?_⟩
          rcases ht.spawned with hs | hs
          · rw [hs]
          · rw [hs, List.count_cons_of_ne (Ne.symm hid'.1)]

/-! ## Operator requests -/

/-- INTERNAL: rewriting the supervisor of an entry, and of its pane only what `Linked` does not
read. -/
theorem inv_setEntry {w : Supervision} (hw : Inv w) {id : Uuid} {e : Entry} {a : ℕ} {p q : Pane}
    (he : w.entry id = some e) (hea : e.pane = some a) (hpa : w.paneAt a = some p)
    (sup : PaneSupervisor) (w' : Supervision)
    (hentries : ∀ id', id' ≠ id → w'.entry id' = w.entry id')
    (hentry : w'.entry id = some ⟨sup, some a⟩)
    (hpanes : ∀ a', a' ≠ a → w'.paneAt a' = w.paneAt a') (hq : w'.paneAt a = some q)
    (hspawned : w'.spawned = w.spawned) (hqinv : PaneInv q) (hsup : SupInv sup)
    (hlink : Linked id sup q) : Inv w' ∧ Touches id w w' := by
  have hl := hw.linked_of_pane he hea hpa
  have hold : ∀ r, w.paneAt a = some r → r.id = id := by
    intro r hr
    rw [hpa, Option.some_inj] at hr
    exact hr ▸ hl.id
  refine ⟨hw.update _ a hold hentries hpanes hq hqinv ?_,
    touches_set hold hentries hpanes (Or.inl hspawned)⟩
  intro e' he'
  rw [hentry, Option.some_inj] at he'
  subst he'
  exact ⟨rfl, hsup, hlink⟩

/-- INTERNAL: a stop that succeeds leaves the pane `stopped`.
SRC: supervision.rs:347-393 -/
theorem stop_spec {w : Supervision} (hw : Inv w) (id : Uuid) (kill : Except String Unit) :
    Inv (w.stop id kill).1 ∧ Touches id w (w.stop id kill).1 ∧
      (w.stop id kill).1.spawned = w.spawned ∧
      ((w.stop id kill).1.stateOf id = some .stopped ∨
        (∃ err, (w.stop id kill).2 = .error err) ∧ (w.stop id kill).1.stateOf id = w.stateOf id) := by
  unfold stop
  cases he : w.entry id with
  | none => exact ⟨hw, Touches.refl id w, rfl, Or.inr ⟨⟨_, rfl⟩, rfl⟩⟩
  | some e =>
      have hsup := (hw.entries id e he).sup
      have hstopped : e.sup.requestStop.1.state = .stopped := rfl
      dsimp only
      rcases hw.upgrade_eq he with ⟨hnone, hup⟩ | ⟨a, p, hea, hpa, hup, hl⟩
      · obtain ⟨hidle, -⟩ := (hw.entries id e he).restored hnone
        have hinv : Inv (w.setEntry id { e with sup := e.sup.requestStop.1 }) := by
          refine hw.updateRestored id ?_ (fun _ => rfl) ?_ (supInv_requestStop hsup) hidle rfl
          · intro id' hid
            exact entry_setEntry_of_ne w _ hid
          · rw [entry_setEntry_self, hnone]
        simp only [hup]
        refine ⟨hinv, ⟨?_, fun _ _ h _ => h, Or.inl rfl⟩, rfl, Or.inl ?_⟩
        · intro id' hid
          exact entry_setEntry_of_ne w _ hid
        · simp [stateOf, hstopped]
      · have hpinv := hw.panes a p hpa
        have hlink : Linked id e.sup.requestStop.1 { p with restartPending := false } :=
          ⟨hl.id, hl.hook, hl.retired, hl.started, by simp [PaneSupervisor.requestStop]⟩
        simp only [hup]
        by_cases hsig : e.sup.requestStop.2 = true
        · have hrun : Unaccounted p := by
            rw [requestStop_signals hsup] at hsig
            exact hl.started.mp hsig
          have hx : Pane.isExited { p with restartPending := false } = false :=
            not_isExited_of_unaccounted hrun
          simp only [hsig, Bool.not_true, Bool.false_eq_true, if_false, hx]
          have hlink' := linked_terminate hlink kill
          have hpinv' := paneInv_terminate (hpinv.withPending false) kill
          rcases hterm : Pane.terminate { p with restartPending := false } kill with ⟨q, err | u⟩
          · -- the signal failed: the entry is put back as it was
            rw [hterm] at hpinv'
            have hback : Linked id e.sup { q with restartPending := e.sup.restartPending } := by
              have hq := linked_terminate (p := { p with restartPending := false })
                (hl.congr rfl rfl rfl rfl fun ht => ht) kill
              rw [hterm] at hq
              exact hq.congr rfl rfl rfl rfl fun ht => ht
            have hset := inv_setEntry hw he hea hpa e.sup
              (w.setPane a { q with restartPending := e.sup.restartPending }) (fun _ _ => rfl)
              (by rw [entry_setPane, he, ← hea]) (fun a' ha => paneAt_setPane_of_ne w _ ha)
              (paneAt_setPane_self ..) rfl (hpinv'.withPending _) hsup hback
            exact ⟨hset.1, hset.2, rfl, Or.inr ⟨⟨_, rfl⟩, rfl⟩⟩
          · rw [hterm] at hlink' hpinv'
            have hset := inv_setEntry hw he hea hpa e.sup.requestStop.1
              ((w.setEntry id { e with sup := e.sup.requestStop.1 }).setPane a q)
              (fun id' hid => entry_setEntry_of_ne w _ hid)
              (by rw [entry_setPane, entry_setEntry_self, hea])
              (fun a' ha => paneAt_setPane_of_ne _ _ ha) (paneAt_setPane_self ..) rfl hpinv'
              (supInv_requestStop hsup) hlink'
            exact ⟨hset.1, hset.2, rfl, Or.inl (by simp [stateOf, hstopped])⟩
        · have hsig' : e.sup.requestStop.2 = false := by simpa using hsig
          simp only [hsig', Bool.not_false, if_true]
          have hset := inv_setEntry hw he hea hpa e.sup.requestStop.1
            ((w.setEntry id { e with sup := e.sup.requestStop.1 }).setPane a
              { p with restartPending := false })
            (fun id' hid => entry_setEntry_of_ne w _ hid)
            (by rw [entry_setPane, entry_setEntry_self, hea])
            (fun a' ha => paneAt_setPane_of_ne _ _ ha) (paneAt_setPane_self ..) rfl
            (hpinv.withPending false) (supInv_requestStop hsup) hlink
          exact ⟨hset.1, hset.2, rfl, Or.inl (by simp [stateOf, hstopped])⟩

theorem runningPane_eq {w : Supervision} {e : Entry} {a : ℕ} {p : Pane}
    (hup : w.upgrade e = some (a, p)) :
    w.runningPane e = if p.isExited then none else some (a, p) := by
  unfold runningPane
  rw [hup]
  cases hx : p.isExited <;> simp [Option.filter, hx]

/-- INTERNAL: an operator restart, of a running process, of one whose exit is accounted for but
not published, and of a dead one.
SRC: supervision.rs:395-435 -/
theorem restart_spec {w : Supervision} (hw : Inv w) (id : Uuid) (reset : Bool)
    (kill : Except String Unit) (env : RespawnEnv) :
    Inv (w.restart delayMs id reset kill env).1 ∧
      Touches id w (w.restart delayMs id reset kill env).1 := by
  unfold restart
  cases he : w.entry id with
  | none => exact ⟨hw, Touches.refl id w⟩
  | some e =>
      have hinv := hw.entries id e he
      dsimp only
      rcases hw.upgrade_eq he with ⟨hnone, hup⟩ | ⟨a, p, hea, hpa, hup, hl⟩
      · -- restored from disk: there is nothing to signal and nothing to respawn
        obtain ⟨hidle, hpend⟩ := hinv.restored hnone
        obtain ⟨hsig, hsup, hidle'⟩ := requestRestart_of_idle hinv.sup hidle reset
        have hpend' : (e.sup.requestRestart reset).1.state.restartPending = false := by
          cases reset <;> simpa [PaneSupervisor.requestRestart, hidle] using hpend
        have hrun : w.runningPane e = none := by simp [runningPane, hup]
        have hgo := doRespawn_spec delayMs hw (w := w.setEntry id
            { e with sup := (e.sup.requestRestart reset).1 })
          (e := { e with sup := (e.sup.requestRestart reset).1 }) he rfl
          (fun id' hid => entry_setEntry_of_ne w _ hid) (fun _ => rfl) rfl
          (entry_setEntry_self ..) hidle'.stop hidle'.restart (by simp [hnone])
          (fun _ => ⟨hsup, hidle'.started, hpend'⟩) false env
        simp only [hsig, Bool.false_eq_true, if_false, hrun]
        split <;> rename_i heq <;> rw [heq] at hgo <;> exact hgo
      · have hpinv := hw.panes a p hpa
        cases hs : e.sup.startedAtMs.isSome with
        | true =>
            obtain ⟨hsig, hsup, hsame⟩ := requestRestart_of_started hinv.sup hs reset
            have hx := not_isExited_of_unaccounted (hl.started.mp hs)
            simp only [hsig, if_true, runningPane_eq hup, hx, Bool.false_eq_true, if_false]
            have hlink := linked_terminate hl kill
            have hpinv' := paneInv_terminate hpinv kill
            rcases p.terminate_cases kill with ⟨-, err, heq⟩ | hok
            · rw [heq] at hlink hpinv' ⊢
              exact inv_setEntry hw he hea hpa e.sup _ (fun _ _ => rfl)
                (by rw [entry_setPane, he, ← hea]) (fun a' ha => paneAt_setPane_of_ne w _ ha)
                (paneAt_setPane_self ..) rfl hpinv' hinv.sup hlink
            · have hterm : ∃ q, p.terminate kill = (q, .ok ()) ∧ q.terminated = true := by
                rcases hok with ⟨-, heq⟩ | ⟨-, heq⟩
                · exact ⟨_, heq, rfl⟩
                · exact ⟨_, heq, rfl⟩
              obtain ⟨q, heq, hq⟩ := hterm
              rw [heq] at hlink hpinv' ⊢
              refine inv_setEntry hw he hea hpa (e.sup.requestRestart reset).1 _
                (fun id' hid => entry_setEntry_of_ne w _ hid)
                (by rw [entry_setPane, entry_setEntry_self, hea])
                (fun a' ha => paneAt_setPane_of_ne _ _ ha) (paneAt_setPane_self ..) rfl hpinv'
                hsup ⟨hlink.id, hlink.hook, hlink.retired, ?_, fun _ => hq⟩
              rw [hsame]
              exact hlink.started
        | false =>
            have hnone : e.sup.startedAtMs = none := by simpa using hs
            obtain ⟨hsig, hsup, hidle⟩ := requestRestart_of_idle hinv.sup hnone reset
            have hgone : ¬ Unaccounted p := by
              intro hu
              have := hl.started.mpr hu
              simp [hnone] at this
            simp only [hsig, Bool.false_eq_true, if_false, runningPane_eq hup]
            cases hx : p.isExited with
            | false =>
                simp only [Bool.false_eq_true, if_false]
                refine inv_setEntry hw he hea hpa _ _
                  (fun id' hid => entry_setEntry_of_ne w _ hid)
                  (by rw [entry_setPane, entry_setEntry_self, hea])
                  (fun a' ha => paneAt_setPane_of_ne _ _ ha) (paneAt_setPane_self ..) rfl
                  (hpinv.withPending true)
                  (supInv_scheduleManualRestartNow hidle.started env.now) ?_
                exact Idle.linked ⟨hidle.started, rfl, rfl⟩ hl.id hl.hook hl.retired hgone
            | true =>
                have hgo := doRespawn_spec delayMs hw (w := w.setEntry id
                    { e with sup := (e.sup.requestRestart reset).1 })
                  (e := { e with sup := (e.sup.requestRestart reset).1 }) he rfl
                  (fun id' hid => entry_setEntry_of_ne w _ hid) (fun _ => rfl) rfl
                  (entry_setEntry_self ..) hidle.stop hidle.restart
                  (by
                    intro a' p' hea' hpa'
                    rw [hea, Option.some_inj] at hea'
                    rw [paneAt_setEntry, ← hea', hpa, Option.some_inj] at hpa'
                    exact hpa' ▸ hx)
                  (by simp [hea]) false env
                simp only [if_true]
                split <;> rename_i heq <;> rw [heq] at hgo <;> exact hgo

/-- INTERNAL: an operator start never finds a running process to lose.
SRC: supervision.rs:437-451 -/
theorem start_spec {w : Supervision} (hw : Inv w) (id : Uuid) (env : RespawnEnv) :
    Inv (w.start delayMs id env).1 ∧ Touches id w (w.start delayMs id env).1 := by
  unfold start
  cases he : w.entry id with
  | none => exact ⟨hw, Touches.refl id w⟩
  | some e =>
      have hinv := hw.entries id e he
      dsimp only
      by_cases hrun : (w.runningPane e).isSome = true
      · rw [if_pos hrun]
        exact ⟨hw, Touches.refl id w⟩
      · rw [if_neg hrun]
        refine doRespawn_spec delayMs hw (e := { e with sup := e.sup.resetForStart }) he rfl
          (fun id' hid => entry_setEntry_of_ne w _ hid) (fun _ => rfl) rfl
          (entry_setEntry_self ..) rfl rfl ?_ ?_ false env
        · intro a p hea hpa
          rw [paneAt_setEntry] at hpa
          have hup : w.upgrade e = some (a, p) := by
            have hea' : e.pane = some a := hea
            simp [upgrade, hea', hpa]
          rw [runningPane_eq hup] at hrun
          cases hx : p.isExited with
          | true => rfl
          | false => simp [hx] at hrun
        · intro hnone
          obtain ⟨hidle, hpend⟩ := hinv.restored hnone
          have hidle' : Idle e.sup.resetForStart := ⟨hidle, rfl, rfl⟩
          refine ⟨hidle'.supInv ?_ hpend.symm, hidle, hpend⟩
          intro hlive
          have := hinv.sup.live hlive
          simp [hidle] at this

/-- INTERNAL: a policy change.
SRC: supervision.rs:322-345 -/
theorem setPolicy_spec {w : Supervision} (hw : Inv w) (id : Uuid) (policy : RestartPolicy) :
    Inv (w.setPolicy id policy).1 ∧ Touches id w (w.setPolicy id policy).1 := by
  unfold setPolicy
  cases policy.validate with
  | error invalid => exact ⟨hw, Touches.refl id w⟩
  | ok u =>
      cases he : w.entry id with
      | none => exact ⟨hw, Touches.refl id w⟩
      | some e =>
          have hinv := hw.entries id e he
          obtain ⟨hsup, hstarted, hrestart⟩ := supInv_setPolicy hinv.sup policy
          dsimp only
          rcases hw.upgrade_eq he with ⟨hnone, hup⟩ | ⟨a, p, hea, hpa, hup, hl⟩
          · obtain ⟨hidle, hpend⟩ := hinv.restored hnone
            have hstate : (e.sup.setPolicy policy).state = e.sup.state := by
              have hb : e.sup.state ≠ .backoff := by
                intro hb
                simp [hb, LifecycleState.restartPending] at hpend
              simp [PaneSupervisor.setPolicy, hb]
            rw [hup]
            refine ⟨hw.updateRestored id (fun id' hid => entry_setEntry_of_ne w _ hid)
              (fun _ => rfl) (by rw [entry_setEntry_self, hnone]) hsup (hstarted.trans hidle)
              (by rw [hstate]; exact hpend), ⟨?_, fun _ _ h _ => h, Or.inl rfl⟩⟩
            intro id' hid
            exact entry_setEntry_of_ne w _ hid
          · rw [hup]
            refine inv_setEntry hw he hea hpa _ _ (fun id' hid => entry_setEntry_of_ne w _ hid)
              (by rw [entry_setPane, entry_setEntry_self, hea])
              (fun a' ha => paneAt_setPane_of_ne _ _ ha) (paneAt_setPane_self ..) rfl
              ((hw.panes a p hpa).withPending _) hsup ⟨hl.id, hl.hook, hl.retired, ?_, ?_⟩
            · rw [hstarted]
              exact hl.started
            · intro hr
              rw [hrestart] at hr
              exact hl.terminated hr

theorem resetBudget_spec {w : Supervision} (hw : Inv w) (id : Uuid) :
    Inv (w.resetBudget id).1 ∧ Touches id w (w.resetBudget id).1 := by
  unfold resetBudget
  cases he : w.entry id with
  | none => exact ⟨hw, Touches.refl id w⟩
  | some e =>
      have hinv := hw.entries id e he
      dsimp only
      rcases hw.upgrade_eq he with ⟨hnone, hup⟩ | ⟨a, p, hea, hpa, hup, hl⟩
      · obtain ⟨hidle, hpend⟩ := hinv.restored hnone
        have hpend' : e.sup.resetBudget.state.restartPending = false := by
          simp only [PaneSupervisor.resetBudget]
          split_ifs
          · rfl
          · exact hpend
        refine ⟨hw.updateRestored id (fun id' hid => entry_setEntry_of_ne w _ hid)
          (fun _ => rfl) (by rw [entry_setEntry_self, hnone]) (supInv_resetBudget hinv.sup) hidle
          hpend', ⟨?_, fun _ _ h _ => h, Or.inl rfl⟩⟩
        intro id' hid
        exact entry_setEntry_of_ne w _ hid
      · exact inv_setEntry hw he hea hpa _ _ (fun id' hid => entry_setEntry_of_ne w _ hid)
          (by rw [entry_setEntry_self, hea]) (fun _ _ => rfl) hpa rfl (hw.panes a p hpa)
          (supInv_resetBudget hinv.sup) ⟨hl.id, hl.hook, hl.retired, hl.started, hl.terminated⟩

/-- INTERNAL: a forgotten pane is retired and its entry is gone.
SRC: supervision.rs:153-163 -/
theorem forget_spec {w : Supervision} (hw : Inv w) (id : Uuid) :
    Inv (w.forget id) ∧ Touches id w (w.forget id) := by
  unfold forget
  cases he : w.entry id with
  | none => exact ⟨hw, Touches.refl id w⟩
  | some e =>
      dsimp only
      rcases hw.upgrade_eq he with ⟨hnone, hup⟩ | ⟨a, p, hea, hpa, hup, hl⟩
      · rw [hup]
        refine ⟨⟨?_, hw.panes⟩, ⟨?_, fun _ _ h _ => h, Or.inl rfl⟩⟩
        · intro id' e' he'
          by_cases hid : id' = id
          · subst hid
            simp at he'
          · rw [entry_eraseEntry_of_ne w hid] at he'
            have hold := hw.entries id' e' he'
            exact ⟨hold.sup, hold.restored, hold.linked⟩
        · intro id' hid
          exact entry_eraseEntry_of_ne w hid
      · rw [hup]
        have hold : ∀ q, w.paneAt a = some q → q.id = id := by
          intro q hq
          rw [hpa, Option.some_inj] at hq
          exact hq ▸ hl.id
        have hpinv := hw.panes a p hpa
        have hentries : ∀ id', id' ≠ id → ((w.eraseEntry id).setPane a
            { p with retired := true, restartPending := false }).entry id' = w.entry id' := by
          intro id' hid
          simp [hid]
        have hpanes : ∀ a', a' ≠ a → ((w.eraseEntry id).setPane a
            { p with retired := true, restartPending := false }).paneAt a' = w.paneAt a' := by
          intro a' ha
          simp [ha]
        refine ⟨hw.update _ a hold hentries hpanes (paneAt_setPane_self ..)
          ⟨fun _ => hl.hook, hpinv.checked, hpinv.signaled⟩ ?_,
          touches_set hold hentries hpanes (Or.inl rfl)⟩
        intro e' he'
        simp at he'

/-! ## Runs -/

/-- INTERNAL: every event keeps the invariant.
SRC: supervision.rs:100-462 -/
theorem inv_step {w w' : Supervision} (ev : Event) (hw : Inv w)
    (h : w.step delayMs ev = some w') : Inv w' := by
  cases ev with
  | spawnPane a id =>
      simp only [step] at h
      split_ifs at h with hfree
      cases h
      have hnone : w.paneAt a = none := by simpa using hfree
      have hset : Inv (w.setPane a (Pane.new id)) := by
        refine hw.setPane ?_ ⟨by simp [Pane.new], by simp [Pane.new], by simp [Pane.new]⟩
        intro id' e he hea
        obtain ⟨p, hp, -⟩ := (hw.entries id' e he).linked a hea
        simp [hnone] at hp
      exact ⟨fun id' e he => ⟨(hset.entries id' e he).sup, (hset.entries id' e he).restored,
        (hset.entries id' e he).linked⟩, hset.panes⟩
  | reader a code now unit => exact inv_readerStep delayMs hw h
  | registerLive id a policy now hookNow unit =>
      simp only [step] at h
      split_ifs at h with hid
      obtain ⟨p, hpa, h⟩ := Option.bind_eq_some_iff.mp h
      split_ifs at h with hhook
      cases h
      exact (installHook_spec delayMs hw hpa (by simpa using hhook) _ now hookNow unit).1
  | registerRestored id persisted policy =>
      cases h
      unfold registerRestored
      refine hw.updateRestored id (fun id' hid => entry_setEntry_of_ne w _ hid)
        (fun _ => rfl) (entry_setEntry_self ..) ?_ ?_ ?_
      · cases persisted with
        | none => exact supInv_new policy
        | some p => exact supInv_restore p
      · cases persisted <;> rfl
      · cases persisted with
        | none => rfl
        | some p =>
            dsimp only
            unfold PaneSupervisor.restore
            cases p.state <;> rfl
  | adoptStarted id a policy now hookNow unit =>
      simp only [step] at h
      split_ifs at h with hid
      obtain ⟨p, hpa, h⟩ := Option.bind_eq_some_iff.mp h
      split_ifs at h with hhook
      cases h
      exact (installHook_spec delayMs hw hpa (by simpa using hhook) _ now hookNow unit).1
  | forget id =>
      cases h
      exact (forget_spec hw id).1
  | runDue now due =>
      simp only [step] at h
      split_ifs at h with hdue
      cases h
      refine (runDueLoop_spec delayMs due hw ?_ ?_).1
      · exact hdue.nodup_iff.mpr (w.entries.keys_nodup.filter _)
      · intro id hid
        exact published_of_isDue (List.of_mem_filter (hdue.mem_iff.mp hid))
  | setPolicy id policy =>
      cases h
      exact (setPolicy_spec hw id policy).1
  | stop id kill =>
      cases h
      exact (stop_spec hw id kill).1
  | restart id reset kill env =>
      cases h
      exact (restart_spec delayMs hw id reset kill env).1
  | start id env =>
      cases h
      exact (start_spec delayMs hw id env).1
  | resetBudget id =>
      cases h
      exact (resetBudget_spec hw id).1

theorem inv_run {w w' : Supervision} {evs : List Event} (hw : Inv w)
    (h : Lib.run (step delayMs) w evs = some w') : Inv w' :=
  Lib.run_invariant Inv (fun _ => True)
    (fun _ ev _ _ hs hstep => inv_step delayMs ev hs hstep) (fun _ _ => trivial) hw h

/-! ## Pending restarts -/

/-- The reader thread of the pane at `a` alone can bring about a state in which `run_due` finds
the entry due from some time on. -/
def CanAct (w : Supervision) (id : Uuid) (a : ℕ) : Prop :=
  ∃ evs w' t, (∀ ev ∈ evs, ∃ code now unit, ev = Event.reader a code now unit) ∧
    Lib.run (step delayMs) w evs = some w' ∧ ∀ now, t ≤ now → w'.isDue now id = true

theorem canAct_of_readerStep {w : Supervision} {id : Uuid} {a : ℕ} (code : Option ℤ) (now : ℕ)
    (unit : F64) (w' : Supervision) (hstep : w.readerStep delayMs a code now unit = some w')
    (h : CanAct delayMs w' id a) : CanAct delayMs w id a := by
  obtain ⟨evs, w'', t, hevs, hrun, hdue⟩ := h
  refine ⟨.reader a code now unit :: evs, w'', t, ?_, ?_, hdue⟩
  · intro ev hev
    rcases List.mem_cons.mp hev with rfl | hev
    · exact ⟨code, now, unit, rfl⟩
    · exact hevs ev hev
  · have hstep' : w.step delayMs (.reader a code now unit) = some w' := hstep
    rw [Lib.run_cons_of_step (step delayMs) hstep']
    exact hrun

variable {delayMs}

/-- INTERNAL: with a restart time set, the reader only has to publish the exit. -/
theorem canAct_of_next {w : Supervision} {id : Uuid} {e : Entry} {a : ℕ} {p : Pane}
    (he : w.entry id = some e) (hea : e.pane = some a) (hpa : w.paneAt a = some p)
    (hsup : SupInv e.sup) (hnext : e.sup.nextRestartAtMs.isSome = true)
    (hp : ¬ Unaccounted p) : CanAct delayMs w id a := by
  obtain ⟨t, ht⟩ := Option.isSome_iff_exists.mp hnext
  have hpend := (hsup.next hnext).2
  have hexited : ∀ {w : Supervision} {p : Pane}, w.entry id = some e → w.paneAt a = some p →
      p.reader = .exited → CanAct delayMs w id a := by
    intro w p he hpa hr
    refine ⟨[], w, t, by simp, rfl, ?_⟩
    intro now hnow
    simp [isDue, he, PaneSupervisor.due, hpend, ht, upgrade, hea, hpa, Pane.isExited, hr, hnow]
  have haccounted : ∀ {w : Supervision} {p : Pane}, w.entry id = some e → w.paneAt a = some p →
      p.reader = .accounted → CanAct delayMs w id a := by
    intro w p he hpa hr
    apply canAct_of_readerStep delayMs none 0 .nan
      (w.setPane a { p with reader := .exited })
    · simp [readerStep, hpa, hr]
    · exact hexited he (paneAt_setPane_self ..) rfl
  cases hr : p.reader with
  | running => exact absurd (Or.inl hr) hp
  | reaped => exact absurd (Or.inr (Or.inl hr)) hp
  | checked hook =>
      cases hook with
      | true => exact absurd (Or.inr (Or.inr hr)) hp
      | false =>
          apply canAct_of_readerStep delayMs none 0 .nan
            (w.setPane a { p with reader := .accounted })
          · simp [readerStep, hpa, hr]
          · exact haccounted he (paneAt_setPane_self ..) rfl
  | accounted => exact haccounted he hpa hr
  | exited => exact hexited he hpa hr

/-- INTERNAL: with a restart requested of a running process, its exit sets the restart time. -/
theorem canAct_of_requested {w : Supervision} {id : Uuid} {e : Entry} {a : ℕ} {p : Pane}
    (he : w.entry id = some e) (hea : e.pane = some a) (hpa : w.paneAt a = some p)
    (hsup : SupInv e.sup) (hl : Linked id e.sup p) (hreq : e.sup.restartRequested = true) :
    CanAct delayMs w id a := by
  have hstop : e.sup.stopRequested = false := by
    rw [Bool.eq_false_iff]
    intro hs
    have hstopped := (hsup.stop hs).1
    rw [(hsup.restart hreq).1] at hstopped
    cases hstopped
  have hchecked : ∀ {w : Supervision} {p : Pane}, w.entry id = some e → w.paneAt a = some p →
      p.id = id → p.reader = .checked true → CanAct delayMs w id a := by
    intro w p he hpa hid hr
    subst hid
    have hexit := accountExit_of_entry delayMs p.exitCode 0 .nan he hea
    apply canAct_of_readerStep delayMs none 0 .nan
      ((w.accountExit delayMs a p p.exitCode 0 .nan).setPane a
        { p with
          reader := .accounted
          restartPending := (e.sup.onExit delayMs 0 p.exitCode p.lastSignal .nan).1.restartPending })
    · simp [readerStep, hpa, hr, hexit]
    · apply canAct_of_next (e := ⟨(e.sup.onExit delayMs 0 p.exitCode p.lastSignal .nan).1, some a⟩)
        _ rfl (paneAt_setPane_self ..) (supInv_onExit delayMs e.sup 0 _ _ _).1
      · simp [PaneSupervisor.onExit, hstop, hreq]
      · simp [Unaccounted]
      · rw [hexit]
        simp
  have hreaped : ∀ {w : Supervision} {p : Pane}, w.entry id = some e → w.paneAt a = some p →
      p.id = id → p.hook = true → p.reader = .reaped → CanAct delayMs w id a := by
    intro w p he hpa hid hhook hr
    apply canAct_of_readerStep delayMs none 0 .nan
      (w.setPane a { p with reader := .checked p.hook })
    · simp [readerStep, hpa, hr]
    · exact hchecked he (paneAt_setPane_self ..) hid (by rw [hhook])
  rcases hl.started.mp (hsup.restart hreq).2 with hr | hr | hr
  · apply canAct_of_readerStep delayMs none 0 .nan
      (w.setPane a { p with reader := .reaped, exitCode := none })
    · simp [readerStep, hpa, hr]
    · exact hreaped he (paneAt_setPane_self ..) hl.id hl.hook rfl
  · exact hreaped he hpa hl.id hl.hook hr
  · exact hchecked he hpa hl.id hr

end Steps

/-- INTERNAL: **the state of every supervised pane, over whole runs.** In any state reachable
by any interleaving of the events: a restart time is set only with no process running, in
backoff or restarting; a live pane has a process; either operator flag comes with its state
and a process; and a pending restart has its time, or waits for a process that `terminate`
accepted (the signal went out, unless the reader had already reaped it). From there the steps
of the pane's reader thread alone lead to a state that `run_due` acts on.
SRC: restart.rs:260-555, supervision.rs:100-462 -/
theorem supervision_invariant (delayMs : RestartPolicy → ℕ → F64 → ℕ) (evs : List Event)
    (w : Supervision) (hrun : Lib.run (step delayMs) init evs = some w) (id : Uuid) (e : Entry)
    (he : w.entry id = some e) :
    (e.sup.nextRestartAtMs.isSome →
      e.sup.startedAtMs = none ∧ (e.sup.state = .backoff ∨ e.sup.state = .restarting)) ∧
    (e.sup.state = .live → e.sup.startedAtMs.isSome) ∧
    (e.sup.stopRequested = true → e.sup.state = .stopped ∧ e.sup.startedAtMs.isSome) ∧
    (e.sup.restartRequested = true → e.sup.state = .restarting ∧ e.sup.startedAtMs.isSome) ∧
    (e.sup.restartPending = true → ∃ a p, e.pane = some a ∧ w.paneAt a = some p ∧
      (e.sup.nextRestartAtMs.isSome ∨
        e.sup.restartRequested = true ∧ p.terminated = true ∧
          (p.reader = .running → p.lastSignal = some sigterm)) ∧
      CanAct delayMs w id a) := by
  have hw : Inv w := inv_run delayMs inv_init hrun
  have hinv := hw.entries id e he
  refine ⟨?_, hinv.sup.live, hinv.sup.stop, hinv.sup.restart, ?_⟩
  · intro hn
    obtain ⟨hnone, hpend⟩ := hinv.sup.next hn
    refine ⟨hnone, ?_⟩
    cases hs : e.sup.state <;> simp_all [LifecycleState.restartPending]
  · intro hpend
    rcases hw.upgrade_eq he with ⟨hnone, -⟩ | ⟨a, p, hea, hpa, -, hl⟩
    · have hrest := (hinv.restored hnone).2
      rw [PaneSupervisor.restartPending] at hpend
      rw [hrest] at hpend
      cases hpend
    · refine ⟨a, p, hea, hpa, ?_⟩
      rcases hinv.sup.pending hpend with hnext | hreq
      · refine ⟨Or.inl hnext, canAct_of_next he hea hpa hinv.sup hnext ?_⟩
        intro hu
        have hstarted := hl.started.mpr hu
        rw [(hinv.sup.next hnext).1] at hstarted
        cases hstarted
      · have hterm := hl.terminated hreq
        exact ⟨Or.inr ⟨hreq, hterm, (hw.panes a p hpa).signaled hterm⟩,
          canAct_of_requested he hea hpa hinv.sup hl hreq⟩

/-- A pane is spawned, registered under the default policy, and an operator restarts it while
its process runs. -/
def restartRunning : List Event :=
  [.spawnPane 0 5, .registerLive 5 0 .default 1 1 .nan,
    .restart 5 false (.ok ()) ⟨2, .ok (), .nan⟩]

theorem supervision_invariant_restartRunning :
    ∃ w e, Lib.run (step fun _ _ _ => 0) init restartRunning = some w ∧ w.entry 5 = some e ∧
      e.sup.restartRequested = true ∧ e.sup.startedAtMs.isSome ∧
      ∃ a p, e.pane = some a ∧ w.paneAt a = some p ∧ p.lastSignal = some sigterm := by
  refine ⟨_, _, rfl, rfl, rfl, ?_⟩
  obtain ⟨-, -, -, hrestart, hpending⟩ :=
    supervision_invariant (fun _ _ _ => 0) restartRunning _ rfl 5 _ rfl
  obtain ⟨a, p, hea, hpa, hwhy, -⟩ := hpending rfl
  cases hea
  refine ⟨(hrestart rfl).2, 0, p, rfl, hpa, ?_⟩
  rcases hwhy with hnext | ⟨-, -, hsignal⟩
  · cases hnext
  · cases hpa
    exact hsignal rfl

end Tymux.Analysis
