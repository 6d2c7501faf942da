import Tymux.Lib.LockSoundness
import Tymux.Model.Locking

/-!
# No thread waits in a circle

The locks of the daemon are ranked so that every call takes them upwards. The reader thread of a
pane is joined where the pane was found exited under its spawn lock, and where the last reference to
the pane is dropped; in both places it has nothing left to do but to drop its own reference.
-/

set_option autoImplicit false

namespace Tymux.Analysis.DeadlockFreedom

open Lib.Locks Model.Locking
open Lib.Locks.Prog (skip seq lock unlock loop publish take put join drop block either)

def paneRank : PaneLock → ℕ
  | .spawnLock => 9
  | .readerHandle => 10
  | .readGate => 11
  | .parser => 12
  | _ => 13

/-- The order in which the engine takes its locks, then the supervision its own, then the pane. -/
def ranking : Ranking Lock where
  rank
    | .resizeLocks => 0
    | .window _ => 1
    | .persistLock => 2
    | .sessions => 3
    | .panes => 4
    | .windowIndex => 5
    | .viewports => 6
    | .windowWatchers => 7
    | .inner => 8
    | .pane _ k => paneRank k
  guard p := .pane p .spawnLock
  floor := 10

variable {K : Know} {n p : ℕ} {os : List ℕ}

/-! ## Panes -/

/-- INTERNAL: a pane's lock is taken for a moment.
SRC: pane.rs:121-221 -/
theorem touch_safe {k : PaneLock} (hn : n.ble (paneRank k) = true) : Safe ranking K n (touch p k) :=
  .locked hn .skip

/-- INTERNAL: the parser's callbacks.
SRC: terminal_query/outbox.rs:63-97 -/
theorem process_safe : Safe ranking K 13 (process p) :=
  .loop (.cons (touch_safe rfl) (.cons (.optional (touch_safe rfl)) .nil))

/-- INTERNAL: the marker of an exit or a restart.
SRC: pane.rs:781-794 -/
theorem injectOutput_safe : Safe ranking K 12 (injectOutput p) :=
  .locked rfl (.cons process_safe (.cons (touch_safe rfl) .nil))

theorem announce_safe : Safe ranking K 12 (announce p) := .optional injectOutput_safe

theorem kill_safe : Safe ranking K 13 (kill p) := .optional (touch_safe rfl)

theorem resize_safe : Safe ranking K 12 (resize p) :=
  .optional (.cons (touch_safe rfl) (.cons (.optional (touch_safe rfl)) .nil))

/-- INTERNAL: an exit is accounted for under the supervision's lock.
SRC: supervision.rs:181-199 -/
theorem accountExit_safe : Safe ranking K 12 (accountExit p) := .optional announce_safe

/-! ## The reader thread -/

/-- INTERNAL: a chunk, under the gate.
SRC: pane.rs:528-603 -/
theorem readerTurn_safe : Safe ranking K 11 (readerTurn p) := by
  have hchunk : Safe ranking K 12 (chunk p) := by
    refine .locked rfl (.cons (touch_safe rfl) (.cons process_safe ?_))
    exact .cons (touch_safe rfl) (.cons (touch_safe rfl) .nil)
  exact .optional (.locked rfl (.optional hchunk))

/-- INTERNAL: what the reader does before the exit is visible.
SRC: pane.rs:516-643 -/
theorem readerWork_safe : Safe ranking K 0 (readerWork p) := by
  have hturns : Safe ranking K 0 (loop (readerTurn p)) := .loop (readerTurn_safe.below rfl)
  have hexit : Safe ranking K 0 (handleExit p) := .locked rfl (accountExit_safe.below rfl)
  refine .cons (touch_safe rfl) (.cons (touch_safe rfl) (.cons (touch_safe rfl) (.cons hturns ?_)))
  refine .cons (touch_safe rfl) (.cons (touch_safe rfl) (.cons (.optional (touch_safe rfl)) ?_))
  refine .cons (touch_safe rfl) (.cons (touch_safe rfl) (.cons (touch_safe rfl) ?_))
  exact .cons (.optional hexit) .nil

/-- INTERNAL: the reader publishes the exit, drops its reference and has no lock.
SRC: pane.rs:516-651 -/
theorem reader_runs : wp ranking (reader p) (fun Γ => Γ.held = [])
    { refs := [p], mode := .worker p } := by
  have hfree : Ctx.Free ranking ({ refs := [p], mode := .worker p } : Ctx Lock) 0 := by
    refine ⟨trivial, fun l hl => ?_, fun o ho => ?_⟩
    · cases hl
    · cases ho
  refine readerWork_safe (K := anyone) _ _ trivial hfree ⟨rfl, ?_⟩
  refine ⟨List.mem_cons_self, rfl, fun l hl => ?_, .inr ⟨rfl, rfl⟩⟩
  cases hl

/-- INTERNAL: a reader is started, and its handle stored.
SRC: pane.rs:510-653 -/
theorem startReader_wp {Γ : Ctx Lock} {Q : Ctx Lock → Prop} (hmode : Γ.mode = .reopened p)
    (hfree : Γ.Free ranking 10) (hq : Q { Γ with hand := none, mode := .plain }) :
    wp ranking (startReader p) Q Γ := by
  refine ⟨hmode, reader_runs, trivial, hfree.below, rfl, List.mem_cons_self, ?_⟩
  simp only [Ctx.unlock, Ctx.lock, List.erase_cons_head]
  exact hq

/-- INTERNAL: a new pane is assembled, used and dropped.
SRC: pane.rs:348-504 -/
theorem spawn_safe {k : ℕ → Program} (hfloor : n.ble 10 = true)
    (hk : ∀ p, Safe ranking (owns (p :: os)) n (k p)) : Safe ranking (owns os) n (spawn k) := by
  have hn := Nat.le_of_ble_eq_true hfloor
  refine .optional fun Γ Q hknow hfree hq => ⟨hknow.2.2, fun p => ?_⟩
  have hfree' : Ctx.Free ranking { Γ with refs := p :: Γ.refs, mode := .reopened p } 10 := by
    refine ⟨trivial, (hfree.mono hn).below, fun o ho => ?_⟩
    cases ho
  have hparser : Safe ranking anyone 10 (optional (touch p .parser)) := .optional (touch_safe rfl)
  have hheld : Safe ranking anyone 10 (optional (touch p .adoptedHeld)) :=
    .optional (touch_safe rfl)
  refine hparser _ _ trivial hfree' (hheld _ _ trivial hfree' ?_)
  refine startReader_wp rfl hfree' ?_
  have hnow : ({ Γ with refs := p :: Γ.refs, hand := none, mode := .plain } : Ctx Lock) =
      Γ.ref p := by
    rw [← hknow.2.1, ← hknow.2.2]
    rfl
  exact hnow ▸ (hk p).borrowed hn hknow hfree hq

/-- INTERNAL: the old reader is joined while the pane is known to have exited.
SRC: pane.rs:682-685 -/
theorem joinOld_wp {Γ : Ctx Lock} {Q : Ctx Lock → Prop} (hmode : Γ.mode = .seen p)
    (hhand : Γ.hand = none) (hfree : Γ.Free ranking 10) (hq : Q Γ) :
    wp ranking (Prog.locked (.pane p .readerHandle) (block [take p, join false])) Q Γ := by
  refine ⟨hfree.active, hfree.below, ⟨p, rfl, .inl hmode⟩, List.mem_cons_self, ?_⟩
  have hback : Ctx.unlock { Γ.lock (.pane p .readerHandle) with hand := none } ranking
      (.pane p .readerHandle) = Γ := hfree.unlock_joined hhand (Nat.le_refl 10)
  change Q (Ctx.unlock { Γ.lock (.pane p .readerHandle) with hand := none } ranking _)
  rw [hback]
  exact hq

/-- INTERNAL: the exited process of a pane is replaced.
SRC: pane.rs:663-711 -/
theorem respawnWith_safe (hp : p ∈ os) : Safe ranking (owns os) 9 (respawnWith p) := by
  intro Γ Q hknow hfree hq
  have hrank : 9 ≤ ranking.rank (.pane p .spawnLock) := Nat.le_refl 9
  have hlock : (Γ.lock (.pane p .spawnLock)).Free ranking 10 := hfree.lock hrank
  have hback : wp ranking (unlock (.pane p .spawnLock)) Q (Γ.lock (.pane p .spawnLock)) := by
    refine ⟨List.mem_cons_self, ?_⟩
    rw [hfree.unlock_lock hrank]
    exact hq
  refine ⟨hfree.active, hfree.below, fun data => ?_⟩
  cases data with
  | nil => exact hback
  | cons o data =>
      refine ⟨?_, hback⟩
      have hsees : (Γ.lock (.pane p .spawnLock)).mode = .plain ∧
          ranking.guard p ∈ (Γ.lock (.pane p .spawnLock)).held ∧
          p ∈ (Γ.lock (.pane p .spawnLock)).refs :=
        ⟨hknow.2.2, List.mem_cons_self, hknow.1 hp⟩
      rw [Ctx.see, if_pos hsees]
      have hseen : Ctx.Free ranking { Γ.lock (.pane p .spawnLock) with mode := .seen p } 10 := by
        refine ⟨trivial, hlock.below, ?_⟩
        rintro o ⟨⟩
        exact List.mem_cons_self
      have hreopened :
          Ctx.Free ranking { Γ.lock (.pane p .spawnLock) with mode := .reopened p } 10 := by
        refine ⟨trivial, hlock.below, ?_⟩
        rintro o ⟨⟩
      intro data
      cases data with
      | nil =>
          refine ⟨List.mem_cons_self, ?_⟩
          simp only [Ctx.unlock, Ctx.lock, List.erase_cons_head, ranking, if_true]
          exact hknow.2.2 ▸ hq
      | cons o data =>
          have htouch : ∀ k, Nat.ble 10 (paneRank k) = true → Safe ranking anyone 10 (touch p k) :=
            fun k h => touch_safe h
          refine joinOld_wp rfl hknow.2.1 hseen ?_
          refine htouch .writer rfl _ _ trivial hseen ?_
          refine htouch .outbox rfl _ _ trivial hseen ?_
          refine htouch .master rfl _ _ trivial hseen ?_
          refine htouch .stdinWriter rfl _ _ trivial hseen ?_
          refine htouch .child rfl _ _ trivial hseen ?_
          refine htouch .exitCode rfl _ _ trivial hseen ⟨rfl, ?_⟩
          have hbanner : Safe ranking anyone 10 (optional (injectOutput p)) :=
            .optional (injectOutput_safe.below rfl)
          refine hbanner _ _ trivial hreopened (startReader_wp rfl hreopened ?_)
          have hnow : ({ Γ.lock (.pane p .spawnLock) with
              hand := none, mode := .plain } : Ctx Lock) = Γ.lock (.pane p .spawnLock) := by
            rw [← hknow.2.1, ← hknow.2.2]
            rfl
          exact hnow ▸ hback

/-- INTERNAL: the last reference to a pane is gone.
SRC: pane.rs:1116-1134 -/
theorem dropPane_finalizes : Finalizes ranking dropPane := by
  rintro p Γ Q ⟨b, hmode⟩ hhand hbelow hq
  have hfree : Γ.Free ranking 10 := by
    refine ⟨?_, hbelow, fun o ho => ?_⟩
    · rw [hmode]
      trivial
    · rw [hmode] at ho
      cases ho
  refine ⟨hfree.active, hbelow, ⟨p, rfl, .inr ⟨rfl, b, hmode⟩⟩, List.mem_cons_self, ?_⟩
  have hback : Ctx.unlock { Γ.lock (.pane p .readerHandle) with hand := none } ranking
      (.pane p .readerHandle) = Γ := hfree.unlock_joined hhand (Nat.le_refl 10)
  have houtbox : Safe ranking anyone 10 (block [touch p .outbox]) :=
    .cons (touch_safe rfl) .nil
  change wp ranking _ Q (Ctx.unlock { Γ.lock (.pane p .readerHandle) with hand := none } ranking _)
  rw [hback]
  exact houtbox Γ Q trivial hfree hq

/-! ## The supervision -/

/-- INTERNAL: the hook is installed, and an exit that it missed accounted for.
SRC: supervision.rs:101-173 -/
theorem registerLive_safe : Safe ranking K 8 (registerLive p) := by
  have hmissed : Safe ranking K 9 (block [exitCode p, accountExit p]) :=
    .cons (touch_safe rfl) (.cons (accountExit_safe.below rfl) .nil)
  exact .locked rfl (.cons (touch_safe rfl) (.cons (.optional hmissed) .nil))

theorem forget_safe : Safe ranking (owns os) 8 forget :=
  .locked rfl (.optional (.some_ fun _ => .holding rfl (touch_safe rfl)))

theorem readInner_safe : Safe ranking K 8 readInner := .locked rfl .skip

/-- INTERNAL: a pane is respawned under the supervision's lock.
SRC: supervision.rs:202-240 -/
theorem doRespawn_safe : Safe ranking (owns os) 9 doRespawn := by
  refine .some_ fun p => .cons (.holding rfl .skip) (.cons (.holding rfl (.optional ?_)) .nil)
  have hannounce : Safe ranking (owns (p :: os)) 9 (optional (announce p)) :=
    .optional (announce_safe.below rfl)
  exact .cons (respawnWith_safe List.mem_cons_self) (.cons hannounce .nil)

theorem runningPane_safe {k : ℕ → Program} (hk : ∀ p, Safe ranking (owns (p :: os)) 9 (k p)) :
    Safe ranking (owns os) 9 (runningPane k) :=
  .some_ fun p => .holding rfl (.ifDone rfl .skip (hk p))

/-- INTERNAL: every restart that is due.
SRC: supervision.rs:245-275 -/
theorem runDue_safe : Safe ranking (owns os) 8 runDue := by
  have hdue : Safe ranking (owns os) 9
      (Prog.some_ fun p => Prog.holding p (.ifDone p skip skip)) :=
    .some_ fun _ => .holding rfl (.ifDone rfl .skip .skip)
  exact .locked rfl (.cons (.loop hdue) (.cons (.loop doRespawn_safe) .nil))

theorem status_safe : Safe ranking (owns os) 8 status :=
  .locked rfl (.optional (runningPane_safe fun _ => .skip))

theorem setPolicy_safe : Safe ranking (owns os) 8 setPolicy := by
  refine .locked rfl (.optional (.some_ fun p => .holding rfl (.optional ?_)))
  exact injectOutput_safe.below rfl

theorem stop_safe : Safe ranking (owns os) 8 stop := by
  refine .locked rfl (.optional (.some_ fun p => .holding rfl ?_))
  exact .either (.ifDone rfl .skip (kill_safe.below rfl)) (.optional (injectOutput_safe.below rfl))

theorem startSupervised_safe : Safe ranking (owns os) 8 startSupervised := by
  refine .locked rfl (.optional (.cons (runningPane_safe fun _ => .skip) ?_))
  exact .cons (.optional doRespawn_safe) .nil

theorem restart_safe : Safe ranking (owns os) 8 restart := by
  refine .locked rfl (.optional (.either (runningPane_safe fun _ => kill_safe.below rfl) ?_))
  exact .cons (runningPane_safe fun _ => .skip) (.cons (.optional doRespawn_safe) .nil)

/-! ## The engine -/

theorem index_safe : Safe ranking K 0 windowAndSessionForPane := .locked rfl .skip

theorem paneStates_safe : Safe ranking K 8 paneStates := .loop readInner_safe

/-- INTERNAL: the record is taken and saved under the persist lock.
SRC: engine.rs:1043-1055 -/
theorem persistSession_safe : Safe ranking K 2 persistSession := by
  refine .locked rfl (.locked rfl (.locked rfl (.optional (.cons (readInner_safe.below rfl) ?_))))
  exact .cons (.loop (.some_ fun _ => touch_safe rfl)) .nil

/-- INTERNAL: a call persists, and holds no lock.
SRC: engine.rs:1043-1055 -/
theorem persist_safe : Safe ranking K 0 persistSession := persistSession_safe.below rfl

theorem notifyWindowChanged_safe : Safe ranking K 7 notifyWindowChanged := .locked rfl .skip

theorem createSession_safe : Safe ranking (owns os) 0 createSession := by
  refine spawn_safe rfl fun p => .cons (.locked rfl .skip) (.cons (.locked rfl (.store ?_)) ?_)
  · exact List.mem_cons_self
  · refine .cons (registerLive_safe.below rfl) (.cons (.locked rfl .skip) ?_)
    exact .cons persist_safe .nil

/-- INTERNAL: the handles are read after both locks are released.
SRC: engine.rs:538-580 -/
theorem listSessions_safe : Safe ranking (owns []) 0 listSessions := by
  refine .choose fun panes Γ Q hknow hfree hq => ?_
  have hsessions : (Γ.lock .sessions).Free ranking 4 := hfree.lock (Nat.zero_le _)
  refine ⟨hfree.active, fun l hl => absurd (hfree.below l hl) (Nat.not_lt_zero _), ?_⟩
  refine ⟨hfree.active, hsessions.below, Safe.wp_gather fun got => ⟨List.mem_cons_self, ?_⟩⟩
  have hpanes : (Ctx.unlock { (Γ.lock .sessions).lock .panes with refs := got ++ Γ.refs }
      ranking .panes) = { Γ.lock .sessions with refs := got ++ Γ.refs } := by
    simp only [Ctx.unlock, Ctx.lock, List.erase_cons_head, hknow.2.2]
  have hboth : (Ctx.unlock { Γ.lock .sessions with refs := got ++ Γ.refs } ranking .sessions) =
      { Γ with refs := got ++ Γ.refs } := by
    simp only [Ctx.unlock, Ctx.lock, List.erase_cons_head, hknow.2.2]
  have hstates : Safe ranking anyone 0 paneStates := paneStates_safe.below rfl
  rw [List.append_nil]
  refine hpanes ▸ ⟨List.mem_cons_self, hboth ▸ ?_⟩
  refine hstates _ _ trivial ⟨hfree.active, hfree.below, hfree.guarded⟩ ?_
  exact Safe.wp_dropAll hknow.2.1 hknow.2.2 (hfree.mono (Nat.zero_le _)).below hq

theorem removePane_safe : Safe ranking (owns os) 8 removePane := by
  refine .cons forget_safe (.cons (.some_ fun p => .taking rfl ?_) .nil)
  exact kill_safe.below rfl

theorem killSession_safe : Safe ranking (owns os) 0 killSession := by
  refine .cons (.locked rfl .skip) (.cons (.optional (.cons (.locked rfl .skip) ?_)) .nil)
  exact .cons (.locked rfl (.loop (removePane_safe.below rfl))) (.cons (.locked rfl .skip) .nil)

theorem splitPane_safe : Safe ranking (owns os) 0 splitPane := by
  refine spawn_safe rfl fun p => .cons index_safe (.cons (.optional ?_) .nil)
  refine .cons (.locked rfl .skip) (.cons (.optional (.cons (.locked rfl (.store ?_)) ?_)) .nil)
  · exact List.mem_cons_self
  · refine .cons (registerLive_safe.below rfl) (.cons (.locked rfl .skip) (.cons ?_ ?_))
    · exact .locked rfl (.locked rfl (paneStates_safe.below rfl))
    · exact .cons persist_safe (.cons (notifyWindowChanged_safe.below rfl) .nil)

/-- INTERNAL: the window is told while the panes are locked.
SRC: engine.rs:742-848 -/
theorem closePane_safe : Safe ranking (owns os) 0 closePane := by
  have hremove : Safe ranking (owns os) 7
      (block [removePane, loop removePane, optional notifyWindowChanged]) := by
    refine .cons (removePane_safe.below rfl) (.cons (.loop (removePane_safe.below rfl)) ?_)
    exact .cons (.optional notifyWindowChanged_safe) .nil
  refine .cons index_safe (.cons (.optional (.cons ?_ (.cons (.optional ?_) .nil))) .nil)
  · exact .locked rfl (.optional (.locked rfl (paneStates_safe.below rfl)))
  · refine .cons (.either (.locked rfl .skip) persist_safe) (.cons (.locked rfl .skip) ?_)
    exact .cons (.locked rfl (hremove.below rfl)) .nil

/-- INTERNAL: the two guards are released in the order in which they were taken.
SRC: engine.rs:851-896 -/
theorem createWindow_safe : Safe ranking (owns os) 0 createWindow := by
  refine spawn_safe rfl fun p => .either (.locked rfl .skip) fun Γ Q hknow hfree hq => ?_
  have hsessions : (Γ.lock .sessions).Free ranking 4 := hfree.lock (Nat.zero_le _)
  have hpanes : ((Γ.lock .sessions).lock .panes).Free ranking 5 := hsessions.lock (Nat.le_refl 4)
  have hstore : Safe ranking (owns (p :: os)) 4 (Prog.locked .panes (.store p)) :=
    .locked rfl (.store List.mem_cons_self)
  have hregister : Safe ranking anyone 4 (registerLive p) := registerLive_safe.below rfl
  have hindex : Safe ranking anyone 4 (Prog.locked .windowIndex skip) := .locked rfl .skip
  have hstates : Safe ranking anyone 5 paneStates := paneStates_safe.below rfl
  have hpersist : Safe ranking anyone 0 (block [persistSession]) := .cons persist_safe .nil
  have hfirst : ((Γ.lock .sessions).lock .panes).unlock ranking .sessions = Γ.lock .panes := by
    simp [Ctx.unlock, Ctx.lock, hknow.2.2]
  have hsecond : (Γ.lock .panes).unlock ranking .panes = Γ := hfree.unlock_lock (Nat.zero_le _)
  have hend : wp ranking (block [unlock .sessions, unlock .panes, persistSession]) Q
      ((Γ.lock .sessions).lock .panes) := by
    refine ⟨List.mem_cons_of_mem _ List.mem_cons_self, ?_⟩
    rw [hfirst]
    refine ⟨List.mem_cons_self, ?_⟩
    rw [hsecond]
    exact hpersist Γ Q trivial hfree hq
  refine ⟨hfree.active, fun l hl => absurd (hfree.below l hl) (Nat.not_lt_zero _), ?_⟩
  refine hstore _ _ hknow hsessions (hregister _ _ trivial hsessions ?_)
  refine hindex _ _ trivial hsessions ⟨hfree.active, hsessions.below, ?_⟩
  exact hstates _ _ trivial hpanes hend

theorem startPaneInner_safe : Safe ranking (owns os) 0 startPaneInner := by
  have hdead : Safe ranking (owns os) 5
      (spawn fun p => block [Prog.store p, adoptStarted p]) := by
    refine spawn_safe rfl fun p => .cons (.store List.mem_cons_self) (.cons ?_ .nil)
    exact registerLive_safe.below rfl
  refine .either (.locked rfl .skip) (.either (.seq (.locked rfl .skip) ?_) (.locked rfl hdead))
  exact startSupervised_safe.below rfl

theorem reviveSession_safe : Safe ranking (owns os) 0 reviveSession := by
  have hstart : Safe ranking (owns os) 0 (block [loop startPaneInner, persistSession]) :=
    .cons (.loop startPaneInner_safe) (.cons persist_safe .nil)
  refine .cons (.locked rfl .skip) (.cons (.optional (.cons (.locked rfl .skip) ?_)) .nil)
  refine .cons (.optional (.cons (.loop (readInner_safe.below rfl)) (.cons ?_ .nil))) .nil
  exact .optional (.cons (.locked rfl .skip) (.cons (.optional hstart) .nil))

theorem restartPane_safe : Safe ranking (owns os) 0 restartPane := by
  refine .cons index_safe (.cons (.optional (.cons (.locked rfl .skip) ?_)) .nil)
  refine .cons (.either startPaneInner_safe (restart_safe.below rfl)) ?_
  exact .cons (.optional persist_safe) .nil

/-- INTERNAL: panes are resized under the window's own lock.
SRC: engine.rs:1270-1345 -/
theorem recomputeWindowGeometry_safe : Safe ranking (owns []) 0 recomputeWindowGeometry := by
  refine .cons (.locked rfl .skip) (.cons (.some_ fun w => .locked rfl ?_) .nil)
  refine .cons (.locked rfl .skip) (.cons (.locked rfl .skip) (.cons (.optional ?_) .nil))
  refine .cons (.locked rfl .skip) (.cons (.optional (.choose fun panes => ?_)) .nil)
  refine .gathering rfl rfl fun held => .cons (.forEach fun p => resize_safe.below rfl) ?_
  exact .cons (notifyWindowChanged_safe.below rfl) (.cons (persistSession_safe.below rfl) .nil)

/-! ## Every thread -/

/-- INTERNAL: a call on a pane that is held, with no lock held.
SRC: pane.rs:657-1112, pane/handoff.rs:312-396 -/
theorem paneOp_safe (op : PaneOp) (hp : p ∈ os) : Safe ranking (owns os) 0 (op.program p) := by
  cases op with
  | respawn => exact (respawnWith_safe hp).below rfl
  | kill | terminate => exact kill_safe.below rfl
  | resize => exact resize_safe.below rfl
  | exportHandoff =>
      refine .cons (touch_safe rfl) (.cons (touch_safe rfl) (.cons ?_ (.cons (touch_safe rfl) .nil)))
      exact .locked rfl (touch_safe rfl)
  | abortHandoff => exact .cons (touch_safe rfl) (.cons (touch_safe rfl) .nil)
  | retire | snapshot | searchScrollback | writeInput | writeStdin | closeStdin | replaySince
  | registerLiveClient | exitCode | freezeReads => exact touch_safe rfl

/-- INTERNAL: the calls on the pane that a lookup found.
SRC: engine.rs:633-668, 1107-1112 -/
theorem onPane_safe (calls : List PaneOp) : Safe ranking (owns []) 0 (Op.onPane calls).program := by
  refine .choose fun panes => .gathering rfl rfl fun held => .block fun c hc => ?_
  obtain ⟨p, hp, rfl⟩ := List.mem_map.mp hc
  refine .block fun c hc => ?_
  obtain ⟨op, -, rfl⟩ := List.mem_map.mp hc
  exact paneOp_safe op hp

/-- INTERNAL: the writer thread waits without the lock.
SRC: terminal_query/outbox.rs:136-153 -/
theorem drainReplies_safe : Safe ranking (owns []) 0 Op.drainReplies.program := by
  unfold Op.program
  refine .some_ fun p => .loop fun Γ Q hknow hfree hq => ?_
  have hback : (Γ.lock (.pane p .outbox)).unlock ranking (.pane p .outbox) = Γ :=
    hfree.unlock_lock (Nat.zero_le _)
  have hbelow : Γ.Below ranking (ranking.rank (.pane p .outbox)) :=
    (hfree.mono (Nat.zero_le _)).below
  have hwrite : Safe ranking anyone 0 (block [optional (touch p .writer)]) :=
    .cons (.optional (touch_safe rfl)) .nil
  refine ⟨hfree.active, hbelow, ⟨List.mem_cons_self, ?_⟩, List.mem_cons_self, ?_⟩
  · rw [hback]
    exact ⟨hfree.active, hbelow, rfl⟩
  · rw [hback]
    exact hwrite Γ Q trivial hfree hq

/-- INTERNAL: every call takes its locks upwards.
SRC: engine.rs:354-1428 -/
theorem op_safe (op : Op) : Safe ranking (owns []) 0 op.program := by
  cases op with
  | loadPersisted =>
      exact .locked rfl (.locked rfl (.locked rfl (.loop (readInner_safe.below rfl))))
  | createSession => exact createSession_safe
  | listSessions => exact listSessions_safe
  | killSession => exact killSession_safe
  | deadPaneExitCode => exact .locked rfl (.optional (.some_ fun _ => touch_safe rfl))
  | splitPane => exact splitPane_safe
  | closePane => exact closePane_safe
  | createWindow => exact createWindow_safe
  | reviveSession => exact reviveSession_safe
  | superviseTick =>
      refine .cons (runDue_safe.below rfl) (.cons (readInner_safe.below rfl) ?_)
      exact .cons (.loop index_safe) (.cons (.loop persist_safe) .nil)
  | paneStatus => exact status_safe.below rfl
  | paneState => exact readInner_safe.below rfl
  | setRestartPolicy =>
      refine .cons index_safe (.cons (.optional (.cons (setPolicy_safe.below rfl) ?_)) .nil)
      exact .cons (.optional (.cons persist_safe (.cons (status_safe.below rfl) .nil))) .nil
  | setSessionRestartPolicy =>
      refine .cons (.locked rfl .skip) (.cons (.optional (.cons ?_ ?_)) .nil)
      · exact .loop (setPolicy_safe.below rfl)
      · exact .cons (.optional persist_safe) .nil
  | stopPane =>
      refine .cons index_safe (.cons (.optional (.cons (stop_safe.below rfl) ?_)) .nil)
      exact .cons (.optional persist_safe) .nil
  | restartPane => exact restartPane_safe
  | startPane =>
      refine .cons index_safe (.cons (.optional (.cons startPaneInner_safe ?_)) .nil)
      exact .cons (.optional persist_safe) .nil
  | resetRestartBudget =>
      refine .cons index_safe (.cons (.optional (.cons (readInner_safe.below rfl) ?_)) .nil)
      exact .cons (.optional persist_safe) .nil
  | reportViewportAndRecompute =>
      exact .cons (.locked rfl .skip) (.cons recomputeWindowGeometry_safe .nil)
  | unregisterViewport | attachedClientCount => exact .locked rfl .skip
  | recomputeWindowGeometry => exact recomputeWindowGeometry_safe
  | watchWindow => exact notifyWindowChanged_safe.below rfl
  | windowIdForPane => exact index_safe
  | sessionSnapshot => exact .locked rfl (.locked rfl (paneStates_safe.below rfl))
  | onPane calls => exact onPane_safe calls
  | spawnPane => exact spawn_safe rfl fun _ => .skip
  | drainReplies => exact drainReplies_safe

/-- INTERNAL: a thread runs its calls one after the other, and starts with no lock. -/
theorem calls_start (calls : List Op) : Starts ranking (block (calls.map Op.program)) := by
  have hcalls : Safe ranking (owns []) 0 (block (calls.map Op.program)) := by
    refine .block fun c hc => ?_
    obtain ⟨op, -, rfl⟩ := List.mem_map.mp hc
    exact op_safe op
  refine hcalls {} _ ⟨List.nil_subset _, rfl, rfl⟩ ⟨trivial, fun l hl => ?_, fun o ho => ?_⟩ rfl
  · cases hl
  · cases ho

/-- **No deadlock.** Any number of threads run any calls, readers come and go with the panes that
they start, and at no time do threads wait for each other in a circle.
SRC: engine.rs:187-262, supervision.rs:1-9 -/
theorem no_circular_wait {s : Pool Lock} {es : List (Pool.Event (List Op))}
    (hrun : Lib.run step {} es = some s) : ¬ ∃ t, Relation.TransGen s.WaitsFor t t := by
  obtain ⟨Γ, hinv⟩ := inv_run dropPane_finalizes calls_start hrun
  rintro ⟨t, hcircle⟩
  exact hinv.acyclic t hcircle

/-- Two kills: the second waits for the sessions, which the first has locked. -/
def twoKills : List (Pool.Event (List Op)) :=
  [.start [.killSession], .start [.killSession], .move 0 [], .move 0 [], .move 0 [], .move 0 [],
    .move 1 [], .move 1 [], .move 1 []]

theorem no_circular_wait_two_kills : ∃ s, Lib.run step {} twoKills = some s ∧ s.WaitsFor 1 0 ∧
    ¬ ∃ t, Relation.TransGen s.WaitsFor t t :=
  ⟨_, rfl, .inl ⟨.sessions, _, rfl, List.mem_cons_self⟩, @no_circular_wait _ twoKills rfl⟩

/-- INTERNAL: **some thread goes on.** As long as a thread has work to do, one of them can take a
step: locks and joins never bring all of them to a halt.
SRC: engine.rs:187-262, pane.rs:510-730 -/
theorem some_thread_moves {s : Pool Lock} {es : List (Pool.Event (List Op))}
    (hrun : Lib.run step {} es = some s) (hwork : ∃ t, ¬ s.Ended t) :
    ∃ t, (s.move dropPane t []).isSome = true := by
  obtain ⟨Γ, hinv⟩ := inv_run dropPane_finalizes calls_start hrun
  exact hinv.progress dropPane hwork

theorem some_thread_moves_two_kills : ∃ s, Lib.run step {} twoKills = some s ∧
    (s.move dropPane 1 []).isSome = false ∧ ∃ t, (s.move dropPane t []).isSome = true :=
  ⟨_, rfl, rfl, @some_thread_moves _ twoKills rfl ⟨1, by decide⟩⟩

end Tymux.Analysis.DeadlockFreedom
