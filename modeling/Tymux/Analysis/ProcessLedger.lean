import Tymux.Model.Processes
import Tymux.Analysis.EngineIndices
import Tymux.Lib.Ledger

/-!
# What the supervision does to processes

A pane object is a slot of its pane id, busy as long as its process has not been reaped. Every
operation of the supervision works on the entry of one pane and on the pane object of that entry
(`Acts`): it starts a process only in a free slot, and it starts and signals none for a pane without
an entry.
-/

set_option autoImplicit false

namespace Tymux.Analysis.Processes

open Tymux.Model Tymux.Lib Supervision Calls

/-- The pane objects as slots. -/
def slot (w : Supervision) (a : ℕ) : Option (Uuid × Bool) :=
  (w.paneAt a).map fun p => (p.id, decide (p.reader = .running))

theorem slot_eq_some {w : Supervision} {a : ℕ} {id : Uuid} {b : Bool}
    (h : slot w a = some (id, b)) :
    ∃ p, w.paneAt a = some p ∧ p.id = id ∧ decide (p.reader = .running) = b := by
  obtain ⟨p, hp, heq⟩ := Option.map_eq_some_iff.mp h
  cases heq
  exact ⟨p, hp, rfl, rfl⟩

theorem slot_of_paneAt {w : Supervision} {a : ℕ} {p : Pane} (h : w.paneAt a = some p) :
    slot w a = some (p.id, decide (p.reader = .running)) := by
  simp [slot, h]

theorem slot_setPane_of_ne {w : Supervision} {a a' : ℕ} (p : Pane) (h : a' ≠ a) :
    slot (w.setPane a p) a' = slot w a' := by
  simp [slot, h]

/-- The pane object of an entry has the id of the entry. -/
def Owned (w : Supervision) : Prop :=
  ∀ id e a, w.entry id = some e → e.pane = some a → ∃ p, w.paneAt a = some p ∧ p.id = id

/-- What an operation that may make an entry for `new` leaves as it is. -/
structure Acts (new : Option Uuid) (w w' : Supervision) (reaped reaped' : List Uuid) : Prop where
  owned : Owned w → Owned w'
  ids : ∀ a, (w'.paneAt a).map Pane.id = (w.paneAt a).map Pane.id
  entries : ∀ g, new ≠ some g → w.entry g = none → w'.entry g = none
  spawned : ∀ g, new ≠ some g → w.entry g = none → w'.spawned.count g = w.spawned.count g
  signaled : ∀ a p', w'.paneAt a = some p' → new ≠ some p'.id → w.entry p'.id = none →
    p'.reader = .running → ∃ p, w.paneAt a = some p ∧ p.reader = .running ∧
      (p.lastSignal = some sighup → p'.lastSignal = some sighup)
  ledger : Ledger (slot w) w.spawned reaped → Ledger (slot w') w'.spawned reaped'

namespace Acts

variable {new : Option Uuid} {w w' w'' : Supervision} {r r' r'' : List Uuid}

theorem refl (w : Supervision) (r : List Uuid) : Acts none w w r r where
  owned h := h
  ids _ := rfl
  entries _ _ h := h
  spawned _ _ _ := rfl
  signaled _ p h _ _ hrun := ⟨p, h, hrun, fun hs => hs⟩
  ledger h := h

theorem id_of_paneAt (h : Acts new w w' r r') {a : ℕ} {p' : Pane} (hp : w'.paneAt a = some p') :
    ∃ p, w.paneAt a = some p ∧ p.id = p'.id := by
  have hids := h.ids a
  rw [hp, Option.map_some] at hids
  exact Option.map_eq_some_iff.mp hids.symm

theorem exists_paneAt (h : Acts new w w' r r') {a : ℕ} {p : Pane} (hp : w.paneAt a = some p) :
    ∃ p', w'.paneAt a = some p' ∧ p'.id = p.id := by
  have hids := h.ids a
  rw [hp, Option.map_some] at hids
  exact Option.map_eq_some_iff.mp hids

theorem trans (h : Acts new w w' r r') (h' : Acts none w' w'' r' r'') : Acts new w w'' r r'' where
  owned hw := h'.owned (h.owned hw)
  ids a := (h'.ids a).trans (h.ids a)
  entries g hg hnone := h'.entries g (by simp) (h.entries g hg hnone)
  spawned g hg hnone :=
    (h'.spawned g (by simp) (h.entries g hg hnone)).trans (h.spawned g hg hnone)
  signaled a p'' hp'' hg hnone hrun := by
    obtain ⟨p', hp', hid'⟩ := h'.id_of_paneAt hp''
    rw [← hid'] at hg hnone
    obtain ⟨q, hq, hrun', hsig'⟩ :=
      h'.signaled a p'' hp'' (by simp) (hid' ▸ h.entries p'.id hg hnone) hrun
    rw [hp', Option.some_inj] at hq
    subst hq
    obtain ⟨p, hp, hrun₀, hsig⟩ := h.signaled a p' hp' hg hnone hrun'
    exact ⟨p, hp, hrun₀, fun hs => hsig' (hsig hs)⟩
  ledger hl := h'.ledger (h.ledger hl)

end Acts

/-! ## Single writes -/

section Writes

variable {w : Supervision} {r : List Uuid}

theorem Owned.upgrade (hw : Owned w) {id : Uuid} {e : Entry} {a : ℕ} {p : Pane}
    (he : w.entry id = some e) (hup : w.upgrade e = some (a, p)) :
    w.paneAt a = some p ∧ p.id = id := by
  obtain ⟨a', hea, h⟩ := Option.bind_eq_some_iff.mp hup
  obtain ⟨p', hp, heq⟩ := Option.map_eq_some_iff.mp h
  cases heq
  obtain ⟨q, hq, hid⟩ := hw id e a he hea
  rw [hp, Option.some_inj] at hq
  subst hq
  exact ⟨hp, hid⟩

/-- INTERNAL: an entry is written that there was, or that `new` allows. -/
theorem acts_write (new : Option Uuid) (id : Uuid) (e' : Entry)
    (hwas : new = some id ∨ (w.entry id).isSome)
    (hpane : Owned w → ∀ a, e'.pane = some a → ∃ p, w.paneAt a = some p ∧ p.id = id) :
    Acts new w (w.setEntry id e') r r where
  owned hw := by
    intro id' e a he hea
    by_cases hid : id' = id
    · subst hid
      rw [entry_setEntry_self, Option.some_inj] at he
      subst he
      exact hpane hw a hea
    · rw [entry_setEntry_of_ne w e' hid] at he
      exact hw id' e a he hea
  ids _ := rfl
  entries g hg hnone := by
    have hne : g ≠ id := by
      rintro rfl
      rcases hwas with hnew | hsome
      · exact hg hnew
      · simp [hnone] at hsome
    rw [entry_setEntry_of_ne w e' hne]
    exact hnone
  spawned _ _ _ := rfl
  signaled _ p h _ _ hrun := ⟨p, h, hrun, fun hs => hs⟩
  ledger h := h

theorem acts_setEntry {id : Uuid} {e : Entry} (he : w.entry id = some e) (sup : PaneSupervisor) :
    Acts none w (w.setEntry id { e with sup := sup }) r r :=
  acts_write none id _ (Or.inr (by simp [he])) fun hw a hea => hw id e a he hea

theorem acts_eraseEntry (id : Uuid) : Acts none w (w.eraseEntry id) r r where
  owned hw := by
    intro id' e a he hea
    by_cases hid : id' = id
    · subst hid
      simp at he
    · rw [entry_eraseEntry_of_ne w hid] at he
      exact hw id' e a he hea
  ids _ := rfl
  entries g _ hnone := by
    by_cases hid : g = id
    · subst hid
      exact entry_eraseEntry_self ..
    · rw [entry_eraseEntry_of_ne w hid]
      exact hnone
  spawned _ _ _ := rfl
  signaled _ p h _ _ hrun := ⟨p, h, hrun, fun hs => hs⟩
  ledger h := h

/-- INTERNAL: a pane object is written, and perhaps a process started or reaped with it. -/
theorem acts_writePane {w' : Supervision} {a : ℕ} {p p' : Pane} {r' : List Uuid}
    (hp : w.paneAt a = some p) (hid : p'.id = p.id)
    (hentries : ∀ g, w'.entry g = w.entry g) (hself : w'.paneAt a = some p')
    (hothers : ∀ a', a' ≠ a → w'.paneAt a' = w.paneAt a')
    (hspawned : ∀ g, w.entry g = none → w'.spawned.count g = w.spawned.count g)
    (hsig : w.entry p.id = none → p'.reader = .running → p.reader = .running ∧
      (p.lastSignal = some sighup → p'.lastSignal = some sighup))
    (hledger : Ledger (slot w) w.spawned r → Ledger (slot w') w'.spawned r') :
    Acts none w w' r r' where
  owned hw := by
    intro id e a' he hea
    rw [hentries id] at he
    obtain ⟨q, hq, hqid⟩ := hw id e a' he hea
    by_cases ha : a' = a
    · subst ha
      rw [hp, Option.some_inj] at hq
      subst hq
      exact ⟨p', hself, hid.trans hqid⟩
    · exact ⟨q, (hothers a' ha).trans hq, hqid⟩
  ids a' := by
    by_cases ha : a' = a
    · subst ha
      rw [hself, hp, Option.map_some, Option.map_some, hid]
    · rw [hothers a' ha]
  entries g _ hnone := (hentries g).trans hnone
  spawned g _ hnone := hspawned g hnone
  signaled a' q hq _ hnone hrun := by
    by_cases ha : a' = a
    · subst ha
      rw [hself, Option.some_inj] at hq
      subst hq
      rw [hid] at hnone
      obtain ⟨hrun', hs⟩ := hsig hnone hrun
      exact ⟨p, hp, hrun', hs⟩
    · rw [hothers a' ha] at hq
      exact ⟨q, hq, hrun, fun hs => hs⟩
  ledger := hledger

/-- INTERNAL: the process of the pane object stays as it is. -/
theorem acts_setPane {a : ℕ} {p p' : Pane} (hp : w.paneAt a = some p) (hid : p'.id = p.id)
    (hreader : p'.reader = .running ↔ p.reader = .running)
    (hsig : w.entry p.id = none → p.lastSignal = some sighup → p'.lastSignal = some sighup) :
    Acts none w (w.setPane a p') r r := by
  have hothers : ∀ a', a' ≠ a → (w.setPane a p').paneAt a' = w.paneAt a' :=
    fun a' ha => paneAt_setPane_of_ne w p' ha
  refine acts_writePane hp hid (fun _ => rfl) (paneAt_setPane_self ..) hothers
    (fun _ _ => rfl) ?_ ?_
  · intro hnone hrun
    exact ⟨hreader.mp hrun, hsig hnone⟩
  · intro hl
    apply hl.congr
    intro a'
    by_cases ha : a' = a
    · subst ha
      rw [slot_of_paneAt (paneAt_setPane_self w a' p'), slot_of_paneAt hp, hid]
      simp [hreader]
    · exact slot_setPane_of_ne p' ha

/-- INTERNAL: the reader thread reaps the process. -/
theorem acts_reap {a : ℕ} {p p' : Pane} (hp : w.paneAt a = some p) (hid : p'.id = p.id)
    (hrun : p.reader = .running) (hnot : p'.reader ≠ .running) :
    Acts none w (w.setPane a p') r (p.id :: r) := by
  refine acts_writePane hp hid (fun _ => rfl) (paneAt_setPane_self ..)
    (fun a' ha => paneAt_setPane_of_ne w p' ha) (fun _ _ => rfl) ?_ ?_
  · intro _ hrun'
    exact absurd hrun' hnot
  · intro hl
    refine hl.finish (a := a) ?_ ?_ fun a' ha => slot_setPane_of_ne p' ha
    · simp [slot_of_paneAt hp, hrun]
    · simp [slot_of_paneAt (paneAt_setPane_self w a p'), hid, hnot]

/-- INTERNAL: a process is started for the pane object of an entry, which has none. -/
theorem acts_respawn {a : ℕ} {p p' : Pane} (hp : w.paneAt a = some p) (hid : p'.id = p.id)
    (hentry : (w.entry p.id).isSome) (hidle : p.reader ≠ .running) (hrun : p'.reader = .running) :
    Acts none w { w.setPane a p' with spawned := p'.id :: w.spawned } r r := by
  rw [hid]
  have hself : ({ w.setPane a p' with spawned := p.id :: w.spawned } : Supervision).paneAt a =
      some p' := paneAt_setPane_self w a p'
  refine acts_writePane hp hid (fun _ => rfl) hself
    (fun a' ha => paneAt_setPane_of_ne w p' ha) ?_ ?_ ?_
  · intro g hnone
    apply List.count_cons_of_ne
    rintro rfl
    simp [hnone] at hentry
  · intro hnone
    simp [hnone] at hentry
  · intro hl
    have hslot : slot w a = some (p.id, false) := by simp [slot_of_paneAt hp, hidle]
    refine hl.start (a := a) ?_ (Or.inr hslot) ?_ fun a' ha => slot_setPane_of_ne p' ha
    · intro a' b hb
      have ha := hl.sole a' a p.id b false hb hslot
      subst ha
      rw [hslot] at hb
      cases hb
      exact ⟨rfl, rfl⟩
    · have hslot' := slot_of_paneAt (paneAt_setPane_self w a p')
      rw [hid, hrun] at hslot'
      exact hslot'

end Writes

/-! ## Operations -/

section Operations

variable (delayMs : RestartPolicy → ℕ → F64 → ℕ) {w : Supervision} {r : List Uuid}

theorem acts_accountExit {a : ℕ} {p : Pane} (hp : w.paneAt a = some p) (code : Option ℤ) (now : ℕ)
    (unit : F64) : Acts none w (w.accountExit delayMs a p code now unit) r r := by
  unfold accountExit
  split
  case h_1 => exact Acts.refl w r
  case h_2 e he =>
      split
      case isTrue => exact Acts.refl w r
      case isFalse =>
          exact (acts_setEntry he _).trans (acts_setPane hp rfl Iff.rfl fun _ hs => hs)

/-- INTERNAL: a reader thread; the process is reaped when it leaves the phase `running`.
SRC: pane.rs:613-647 -/
theorem acts_readerStep {w' : Supervision} {a : ℕ} {p : Pane} {code : Option ℤ} {now : ℕ}
    {unit : F64} (hp : w.paneAt a = some p)
    (h : w.readerStep delayMs a code now unit = some w') :
    Acts none w w' r (if p.reader = .running then p.id :: r else r) := by
  simp only [readerStep, hp, Option.bind_some] at h
  split at h
  case h_1 hrun =>
      cases h
      rw [if_pos hrun]
      exact acts_reap hp rfl hrun (by simp)
  case h_2 hphase =>
      cases h
      rw [if_neg (by simp [hphase])]
      exact acts_setPane hp rfl (by simp [hphase]) fun _ hs => hs
  case h_3 hphase =>
      obtain ⟨q, hq, heq⟩ := Option.map_eq_some_iff.mp h
      rw [if_neg (by simp [hphase])]
      have hacts := acts_accountExit delayMs (r := r) hp p.exitCode now unit
      have hreader : q.reader = p.reader := by
        unfold accountExit at hq
        split at hq
        case h_1 =>
            rw [hp, Option.some_inj] at hq
            rw [hq]
        case h_2 e he =>
            split at hq
            case isTrue =>
                rw [hp, Option.some_inj] at hq
                rw [hq]
            case isFalse =>
                rw [paneAt_setPane_self, Option.some_inj] at hq
                rw [← hq]
      rw [← heq]
      exact hacts.trans (acts_setPane hq rfl (by simp [hreader, hphase]) fun _ hs => hs)
  case h_4 hphase =>
      cases h
      rw [if_neg (by simp [hphase])]
      exact acts_setPane hp rfl (by simp [hphase]) fun _ hs => hs
  case h_5 hphase =>
      cases h
      rw [if_neg (by simp [hphase])]
      exact acts_setPane hp rfl (by simp [hphase]) fun _ hs => hs
  case h_6 => cases h

/-- INTERNAL: a pane object is handed over, with an entry of its own.
SRC: supervision.rs:100-114, 136-173 -/
theorem acts_installHook {a : ℕ} {p : Pane} (hp : w.paneAt a = some p) (sup : PaneSupervisor)
    (now : ℕ) (unit : F64) :
    Acts (some p.id) w ((w.setEntry p.id ⟨sup, some a⟩).installHook delayMs a now unit) r r := by
  have hopen : Acts (some p.id) w (w.setEntry p.id ⟨sup, some a⟩) r r := by
    apply acts_write
    · exact Or.inl rfl
    · intro _ a' ha
      cases ha
      exact ⟨p, hp, rfl⟩
  have hhook : Acts none (w.setEntry p.id ⟨sup, some a⟩)
      ((w.setEntry p.id ⟨sup, some a⟩).setPane a { p with hook := true }) r r :=
    acts_setPane hp rfl Iff.rfl fun _ hs => hs
  simp only [installHook, paneAt_setEntry, hp]
  split
  case isTrue =>
      exact (hopen.trans hhook).trans
        (acts_accountExit delayMs (paneAt_setPane_self ..) _ now unit)
  case isFalse => exact hopen.trans hhook

theorem acts_registerLive {w' : Supervision} {a : ℕ} {p : Pane} (hp : w.paneAt a = some p)
    {policy : RestartPolicy} {now hookNow : ℕ} {unit : F64}
    (h : w.registerLive delayMs a policy now hookNow unit = some w') :
    Acts (some p.id) w w' r r := by
  simp only [registerLive, hp, Option.bind_some] at h
  split at h
  case isTrue => cases h
  case isFalse =>
      cases h
      exact acts_installHook delayMs hp _ hookNow unit

theorem acts_adoptStarted {w' : Supervision} {a : ℕ} {p : Pane} (hp : w.paneAt a = some p)
    {policy : RestartPolicy} {now hookNow : ℕ} {unit : F64}
    (h : w.adoptStarted delayMs a policy now hookNow unit = some w') :
    Acts (some p.id) w w' r r := by
  simp only [adoptStarted, hp, Option.bind_some] at h
  split at h
  case isTrue => cases h
  case isFalse =>
      cases h
      exact acts_installHook delayMs hp _ hookNow unit

theorem acts_registerRestored (id : Uuid) (persisted : Option PersistedRestartState)
    (policy : RestartPolicy) : Acts (some id) w (w.registerRestored id persisted policy) r r := by
  apply acts_write
  · exact Or.inl rfl
  · intro _ a ha
    cases ha

theorem acts_forget (hw : Owned w) (id : Uuid) : Acts none w (w.forget id) r r := by
  unfold forget
  split
  case h_1 => exact Acts.refl w r
  case h_2 e he =>
      dsimp only
      split
      case h_1 => exact acts_eraseEntry id
      case h_2 a p hup =>
          obtain ⟨hp, -⟩ := hw.upgrade he hup
          exact (acts_eraseEntry id).trans (acts_setPane hp rfl Iff.rfl fun _ hs => hs)

/-- INTERNAL: `kill` as close and kill use it.
SRC: pane.rs:815-834 -/
theorem acts_kill {a : ℕ} {p : Pane} (hp : w.paneAt a = some p) :
    Acts none w (w.setPane a p.kill) r r := by
  have hkill : p.kill.id = p.id ∧ p.kill.reader = p.reader ∧
      (p.lastSignal = some sighup → p.kill.lastSignal = some sighup) := by
    unfold Pane.kill
    split
    case h_1 => exact ⟨rfl, rfl, fun _ => rfl⟩
    case h_2 => exact ⟨rfl, rfl, fun hs => hs⟩
  obtain ⟨hid, hreader, hsig⟩ := hkill
  exact acts_setPane hp hid (by rw [hreader]) fun _ => hsig

/-- INTERNAL: what `respawn_with` does.
SRC: pane.rs:663-715 -/
theorem respawnWith_cases (p : Pane) (spawn : Except String Unit) :
    (∃ e, p.respawnWith spawn = (p, .error e)) ∨
    ∃ q, p.respawnWith spawn = (q, .ok ()) ∧ q.id = p.id ∧ p.reader ≠ .running ∧
      q.reader = .running := by
  unfold Pane.respawnWith
  split_ifs with hret hx
  · exact Or.inl ⟨_, rfl⟩
  · exact Or.inl ⟨_, rfl⟩
  · cases spawn with
    | error e => exact Or.inl ⟨e, rfl⟩
    | ok u =>
        refine Or.inr ⟨_, rfl, rfl, ?_, rfl⟩
        intro hrun
        simp [Pane.isExited, hrun] at hx

/-- INTERNAL: a process is started only for a pane object whose process has been reaped.
SRC: supervision.rs:201-240 -/
theorem acts_doRespawn (hw : Owned w) {id : Uuid} {e : Entry} (he : w.entry id = some e)
    (automatic : Bool) (env : RespawnEnv) :
    Acts none w (w.doRespawn delayMs id e automatic env).1 r r := by
  unfold doRespawn
  split
  case h_1 => exact Acts.refl w r
  case h_2 a p hup =>
      obtain ⟨hp, hid⟩ := hw.upgrade he hup
      subst hid
      split
      case isTrue => exact Acts.refl w r
      case isFalse =>
          rcases respawnWith_cases p env.spawn with ⟨message, heq⟩ | ⟨q, heq, hqid, hidle, hrun⟩
          · simp only [heq]
            exact (acts_setEntry he _).trans (acts_setPane hp rfl Iff.rfl fun _ hs => hs)
          · simp only [heq]
            have hset := acts_setEntry (r := r) he
              ((e.sup.beginRestart env.now automatic).onStarted env.now)
            exact hset.trans (acts_respawn hp hqid (by simp) hidle hrun)

theorem acts_runDueLoop (due : List (Uuid × RespawnEnv)) (hw : Owned w) :
    Acts none w (w.runDueLoop delayMs due) r r := by
  induction due generalizing w with
  | nil => exact Acts.refl w r
  | cons d due ih =>
      unfold runDueLoop
      split
      case h_1 => exact ih hw
      case h_2 e he =>
          have hstep := acts_doRespawn delayMs (r := r) hw he (e.sup.state = .backoff) d.2
          exact hstep.trans (ih (hstep.owned hw))

theorem acts_setPolicy (hw : Owned w) (id : Uuid) (policy : RestartPolicy) :
    Acts none w (w.setPolicy id policy).1 r r := by
  unfold setPolicy
  split
  case h_1 => exact Acts.refl w r
  case h_2 =>
      split
      case h_1 => exact Acts.refl w r
      case h_2 e he =>
          dsimp only
          split
          case h_1 => exact acts_setEntry he _
          case h_2 a p hup =>
              obtain ⟨hp, -⟩ := hw.upgrade he hup
              exact (acts_setEntry he _).trans (acts_setPane hp rfl Iff.rfl fun _ hs => hs)

theorem acts_resetBudget (id : Uuid) : Acts none w (w.resetBudget id).1 r r := by
  unfold resetBudget
  split
  case h_1 => exact Acts.refl w r
  case h_2 e he => exact acts_setEntry he _

/-- INTERNAL: `terminate` on the pane object of an entry.
SRC: pane.rs:838-896 -/
theorem acts_terminate {a : ℕ} {p q : Pane} (hp : w.paneAt a = some p)
    (hentry : (w.entry p.id).isSome) (hq : q.id = p.id ∧ q.reader = p.reader) :
    Acts none w (w.setPane a q) r r := by
  apply acts_setPane hp hq.1
  · rw [hq.2]
  · intro hnone
    simp [hnone] at hentry

theorem terminate_keeps (p : Pane) (kill : Except String Unit) :
    (p.terminate kill).1.id = p.id ∧ (p.terminate kill).1.reader = p.reader := by
  rcases p.terminate_cases kill with ⟨-, e, heq⟩ | ⟨-, heq⟩ | ⟨-, heq⟩ <;> rw [heq] <;>
    exact ⟨rfl, rfl⟩

theorem acts_stop (hw : Owned w) (id : Uuid) (kill : Except String Unit) :
    Acts none w (w.stop id kill).1 r r := by
  unfold stop
  split
  case h_1 => exact Acts.refl w r
  case h_2 e he =>
      dsimp only
      have hset := acts_setEntry (r := r) he e.sup.requestStop.1
      split
      case h_1 => exact hset
      case h_2 a p hup =>
          obtain ⟨hp, hid⟩ := hw.upgrade he hup
          subst hid
          split_ifs
          · exact hset.trans (acts_setPane hp rfl Iff.rfl fun _ hs => hs)
          · exact hset.trans (acts_setPane hp rfl Iff.rfl fun _ hs => hs)
          · have hterm := terminate_keeps { p with restartPending := false } kill
            split
            case h_1 q heq =>
                rw [heq] at hterm
                exact hset.trans (acts_terminate hp (by simp) hterm)
            case h_2 q message heq =>
                rw [heq] at hterm
                exact acts_terminate hp (by simp [he]) hterm

/-- INTERNAL: an operator restart.
SRC: supervision.rs:395-435 -/
theorem acts_restart (hw : Owned w) (id : Uuid) (resetBackoff : Bool) (kill : Except String Unit)
    (env : RespawnEnv) : Acts none w (w.restart delayMs id resetBackoff kill env).1 r r := by
  unfold restart
  split
  case h_1 => exact Acts.refl w r
  case h_2 e he =>
      dsimp only
      have hset : ∀ sup, Acts none w (w.setEntry id { e with sup := sup }) r r :=
        fun sup => acts_setEntry he sup
      have hrunning : ∀ a p, w.runningPane e = some (a, p) → w.paneAt a = some p ∧ p.id = id :=
        fun a p h => hw.upgrade he (Option.filter_eq_some_iff.mp h).1
      split_ifs
      · split
        case h_1 => exact hset _
        case h_2 a p hrun =>
            obtain ⟨hp, hid⟩ := hrunning a p hrun
            subst hid
            have hterm := terminate_keeps p kill
            split
            case h_1 q heq =>
                rw [heq] at hterm
                exact (hset _).trans (acts_terminate hp (by simp) hterm)
            case h_2 q message heq =>
                rw [heq] at hterm
                exact acts_terminate hp (by simp [he]) hterm
      · split
        case h_1 a p hrun =>
            exact (hset _).trans (acts_setPane (hrunning a p hrun).1 rfl Iff.rfl fun _ hs => hs)
        case h_2 =>
            have hgo := (hset (e.sup.requestRestart resetBackoff).1).trans
              (acts_doRespawn delayMs (r := r) ((hset _).owned hw) (entry_setEntry_self ..) false env)
            split
            case h_1 w'' heq =>
                rw [heq] at hgo
                exact hgo
            case h_2 w'' err heq =>
                rw [heq] at hgo
                exact hgo

theorem acts_start (hw : Owned w) (id : Uuid) (env : RespawnEnv) :
    Acts none w (w.start delayMs id env).1 r r := by
  unfold start
  split
  case h_1 => exact Acts.refl w r
  case h_2 e he =>
      split_ifs
      · exact Acts.refl w r
      · have hset := acts_setEntry (r := r) he e.sup.resetForStart
        exact hset.trans
          (acts_doRespawn delayMs (hset.owned hw) (entry_setEntry_self ..) false env)

end Operations

end Tymux.Analysis.Processes
