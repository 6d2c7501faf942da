import Tymux.Analysis.ProcessLedger

/-!
# One process for each pane

Between the steps of all calls, the process of a pane is where the panes, the supervision and the
calls in progress say it is (`ProcInv`): a restored record has none, unless a call is about to put
the pane it started into the panes, which it does under the panes lock. A pane that was taken out
of the panes and the supervision is `Gone`, and stays so: no call can put it back.
-/

set_option autoImplicit false

namespace Tymux.Analysis.Processes

open Tymux.Model Tymux.Lib Supervision

/-! ## The invariant -/

/-- The pane object at an address has the id. -/
def Holds (s : ProcessState) (a : ℕ) (id : Uuid) : Prop :=
  ∃ p, s.supervision.paneAt a = some p ∧ p.id = id

/-- The new pane that a call is yet to register. -/
def placing : ProcessCall → Option (Uuid × ℕ)
  | .placeInsert pane addr _ => some (pane, addr)
  | .placeRegister pane addr _ => some (pane, addr)
  | _ => none

/-- No call is going to register the pane as a new one. -/
def Unplaced (s : ProcessState) (id : Uuid) : Prop :=
  ∀ c pc a, s.calls.lookup c = some pc → placing pc ≠ some (id, a)

/-- A call has started the process of a restored record and holds the panes lock. -/
def Starting (s : ProcessState) (id : Uuid) : Prop :=
  ∃ c a rows cols rest policy, s.calls.lookup c = some (.startInsert id a rows cols rest policy)

structure Forgotten (s : ProcessState) (id : Uuid) : Prop where
  known : id < s.nextId
  entry : s.supervision.entry id = none
  unplaced : Unplaced s id

/-- The pane is closed: what it had for a process has been signaled. -/
structure Gone (s : ProcessState) (id : Uuid) : Prop extends Forgotten s id where
  notHeld : s.panes.lookup id = none
  signaled : ∀ a p, s.supervision.paneAt a = some p → p.id = id → p.reader = .running →
    p.lastSignal = some sighup

/-- What a call relies on between two of its steps. -/
def CallOk (s : ProcessState) (c : ℕ) : ProcessCall → Prop
  | .placeInsert pane addr _ | .placeRegister pane addr _ =>
      pane < s.nextId ∧ s.supervision.entry pane = none ∧ Holds s addr pane ∧
        ∀ rows cols, s.panes.lookup pane ≠ some (.dead rows cols)
  | .startInsert pane addr _ _ _ _ =>
      s.panesLock = some c ∧ pane < s.nextId ∧ Unplaced s pane ∧ Holds s addr pane ∧
        ∃ rows cols, s.panes.lookup pane = some (.dead rows cols)
  | .startAdopt pane addr _ _ =>
      s.panesLock = some c ∧ pane < s.nextId ∧ Unplaced s pane ∧
        ∃ rows cols, s.panes.lookup pane = some (.live addr rows cols)
  | .dropForget _ gone => s.panesLock = some c ∧ ∀ id ∈ gone, Gone s id
  | .dropRemove pane supervised _ gone =>
      s.panesLock = some c ∧ (∀ id ∈ gone, Gone s id) ∧ (supervised = true → Forgotten s pane)
  | .dropKill pane supervised addr _ gone =>
      s.panesLock = some c ∧ (∀ id ∈ gone, Gone s id) ∧ (supervised = true → Forgotten s pane) ∧
        s.panes.lookup pane = none ∧ Holds s addr pane
  | _ => True

structure ProcInv (s : ProcessState) : Prop where
  owned : Owned s.supervision
  ledger : Ledger (slot s.supervision) s.supervision.spawned s.reaped
  addrs : ∀ a p, s.supervision.paneAt a = some p → a < s.nextAddr ∧ p.id < s.nextId
  entries : ∀ id, s.nextId ≤ id → s.supervision.entry id = none
  held : ∀ id, s.nextId ≤ id → s.panes.lookup id = none
  live : ∀ id a rows cols, s.panes.lookup id = some (.live a rows cols) → Holds s a id
  dead : ∀ id rows cols, s.panes.lookup id = some (.dead rows cols) →
    (∀ a, ¬ Holds s a id) ∨ Starting s id
  sole : ∀ c c' pc pc' id a a', s.calls.lookup c = some pc → s.calls.lookup c' = some pc' →
    placing pc = some (id, a) → placing pc' = some (id, a') → c = c'
  calls : ∀ c pc, s.calls.lookup c = some pc → CallOk s c pc
  closed : ∀ id ∈ s.closed, Gone s id

theorem procInv_init : ProcInv .init where
  owned := by
    intro id e a he
    simp [ProcessState.init, Supervision.init, entry] at he
  ledger := Ledger.empty
  addrs := by
    intro a p hp
    simp [ProcessState.init, Supervision.init, paneAt] at hp
  entries := by simp [ProcessState.init, Supervision.init, entry]
  held := by simp [ProcessState.init]
  live := by simp [ProcessState.init]
  dead := by simp [ProcessState.init]
  sole := by simp [ProcessState.init]
  calls := by simp [ProcessState.init]
  closed := by simp [ProcessState.init]

/-! ## What a step leaves to the other calls -/

/-- The calls other than `c` stand where they stood, and `c` places no pane but its own or a new
one. -/
structure Continues (c : Option ℕ) (s s' : ProcessState) : Prop where
  nextId : s.nextId ≤ s'.nextId
  others : ∀ c', c ≠ some c' → s'.calls.lookup c' = s.calls.lookup c'
  placing : ∀ c' pc id a, c = some c' → s'.calls.lookup c' = some pc → placing pc = some (id, a) →
    s.nextId ≤ id ∨ ∃ pc₀ a₀, s.calls.lookup c' = some pc₀ ∧ Processes.placing pc₀ = some (id, a₀)

theorem Continues.unplaced {c : Option ℕ} {s s' : ProcessState} (h : Continues c s s') {id : Uuid}
    (hid : id < s.nextId) (hun : Unplaced s id) : Unplaced s' id := by
  intro c' pc a hpc hplacing
  by_cases hc : c = some c'
  · rcases h.placing c' pc id a hc hpc hplacing with hnew | ⟨pc₀, a₀, hpc₀, hplacing₀⟩
    · exact absurd hid (Nat.not_lt.mpr hnew)
    · exact hun c' pc₀ a₀ hpc₀ hplacing₀
  · rw [h.others c' hc] at hpc
    exact hun c' pc a hpc hplacing

/-- The step of `c` that goes on at `next` or returns. -/
theorem continues_updateCall {s s' : ProcessState} (c : ℕ) (next : Option ProcessCall)
    (hnextId : s.nextId ≤ s'.nextId) (hcalls : s'.calls = updateCall s.calls c next)
    (hplacing : ∀ pc id a, next = some pc → placing pc = some (id, a) →
      s.nextId ≤ id ∨ ∃ pc₀ a₀, s.calls.lookup c = some pc₀ ∧ placing pc₀ = some (id, a₀)) :
    Continues (some c) s s' where
  nextId := hnextId
  others c' hc := by
    rw [hcalls]
    apply lookup_updateCall_of_ne
    rintro rfl
    exact hc rfl
  placing c' pc id a hc hpc := by
    cases hc
    rw [hcalls, lookup_updateCall_self] at hpc
    exact hplacing pc id a hpc

theorem continues_none {s s' : ProcessState} (hnextId : s.nextId ≤ s'.nextId)
    (hcalls : s'.calls = s.calls) : Continues none s s' where
  nextId := hnextId
  others c' _ := by rw [hcalls]
  placing c' pc id a hc := by cases hc

/-- What a step of `c` leaves for the other calls to rely on. -/
structure Stable (c : Option ℕ) (s s' : ProcessState) : Prop extends Continues c s s' where
  holds : ∀ a id, Holds s a id → Holds s' a id
  forgotten : ∀ c' id, c ≠ some c' → s.panesLock = some c' → Forgotten s id → Forgotten s' id
  placed : ∀ c' pc id a, c ≠ some c' → s.calls.lookup c' = some pc →
    Processes.placing pc = some (id, a) → s'.supervision.entry id = none ∧
      ∀ rows cols, s'.panes.lookup id ≠ some (.dead rows cols)
  lock : ∀ c', c ≠ some c' → s.panesLock = some c' →
    s'.panesLock = some c' ∧ s'.panes = s.panes
  gone : ∀ id, Gone s id → Gone s' id

/-- INTERNAL: a call keeps what it relies on when another one takes a step. -/
theorem CallOk.stable {c : Option ℕ} {s s' : ProcessState} (h : Stable c s s') {c' : ℕ}
    {pc : ProcessCall} (hc : c ≠ some c') (hpc : s.calls.lookup c' = some pc)
    (hok : CallOk s c' pc) : CallOk s' c' pc := by
  cases pc with
  | placeInsert pane addr policy =>
      obtain ⟨hid, -, hholds, -⟩ := hok
      obtain ⟨hentry, hdead⟩ := h.placed c' _ pane addr hc hpc rfl
      exact ⟨Nat.lt_of_lt_of_le hid h.nextId, hentry, h.holds addr pane hholds, hdead⟩
  | placeRegister pane addr policy =>
      obtain ⟨hid, -, hholds, -⟩ := hok
      obtain ⟨hentry, hdead⟩ := h.placed c' _ pane addr hc hpc rfl
      exact ⟨Nat.lt_of_lt_of_le hid h.nextId, hentry, h.holds addr pane hholds, hdead⟩
  | startInsert pane addr rows cols rest policy =>
      obtain ⟨hlock, hid, hun, hholds, hheld⟩ := hok
      obtain ⟨hlock', hpanes⟩ := h.lock c' hc hlock
      exact ⟨hlock', Nat.lt_of_lt_of_le hid h.nextId, h.toContinues.unplaced hid hun,
        h.holds addr pane hholds, by rw [hpanes]; exact hheld⟩
  | startAdopt pane addr rest policy =>
      obtain ⟨hlock, hid, hun, hheld⟩ := hok
      obtain ⟨hlock', hpanes⟩ := h.lock c' hc hlock
      exact ⟨hlock', Nat.lt_of_lt_of_le hid h.nextId, h.toContinues.unplaced hid hun,
        by rw [hpanes]; exact hheld⟩
  | dropForget panes gone =>
      obtain ⟨hlock, hgone⟩ := hok
      exact ⟨(h.lock c' hc hlock).1, fun id hid => h.gone id (hgone id hid)⟩
  | dropRemove pane supervised rest gone =>
      obtain ⟨hlock, hgone, hforgot⟩ := hok
      exact ⟨(h.lock c' hc hlock).1, fun id hid => h.gone id (hgone id hid),
        fun hs => h.forgotten c' pane hc hlock (hforgot hs)⟩
  | dropKill pane supervised addr rest gone =>
      obtain ⟨hlock, hgone, hforgot, hheld, hholds⟩ := hok
      obtain ⟨hlock', hpanes⟩ := h.lock c' hc hlock
      exact ⟨hlock', fun id hid => h.gone id (hgone id hid),
        fun hs => h.forgotten c' pane hc hlock (hforgot hs), by rw [hpanes]; exact hheld,
        h.holds addr pane hholds⟩
  | _ => trivial

/-- INTERNAL: the calls after a step of `c`. -/
theorem callsOk_step {c : Option ℕ} {s s' : ProcessState} (h : ProcInv s) (hstable : Stable c s s')
    (hnext : ∀ c' pc, c = some c' → s'.calls.lookup c' = some pc → CallOk s' c' pc) :
    ∀ c' pc, s'.calls.lookup c' = some pc → CallOk s' c' pc := by
  intro c' pc hpc
  by_cases hc : c = some c'
  · exact hnext c' pc hc hpc
  · rw [hstable.others c' hc] at hpc
    exact (h.calls c' pc hpc).stable hstable hc hpc

theorem ProcInv.placing_lt {s : ProcessState} (h : ProcInv s) {c : ℕ} {pc : ProcessCall} {id : Uuid}
    {a : ℕ} (hpc : s.calls.lookup c = some pc) (hplacing : placing pc = some (id, a)) :
    id < s.nextId ∧ s.supervision.entry id = none ∧ Holds s a id ∧
      ∀ rows cols, s.panes.lookup id ≠ some (.dead rows cols) := by
  have hok := h.calls c pc hpc
  unfold placing at hplacing
  split at hplacing
  case h_1 =>
      cases hplacing
      exact hok
  case h_2 =>
      cases hplacing
      exact hok
  case h_3 => cases hplacing

theorem sole_step {c : Option ℕ} {s s' : ProcessState} (h : ProcInv s) (hcont : Continues c s s') :
    ∀ c₁ c₂ pc₁ pc₂ id a₁ a₂, s'.calls.lookup c₁ = some pc₁ → s'.calls.lookup c₂ = some pc₂ →
      placing pc₁ = some (id, a₁) → placing pc₂ = some (id, a₂) → c₁ = c₂ := by
  -- a call that places a pane placed it before, or the id is new
  have hback : ∀ c' pc id a, s'.calls.lookup c' = some pc → placing pc = some (id, a) →
      (c = some c' ∧ s.nextId ≤ id) ∨
        ∃ pc₀ a₀, s.calls.lookup c' = some pc₀ ∧ placing pc₀ = some (id, a₀) := by
    intro c' pc id a hpc hplacing
    by_cases hc : c = some c'
    · rcases hcont.placing c' pc id a hc hpc hplacing with hnew | hold
      · exact Or.inl ⟨hc, hnew⟩
      · exact Or.inr hold
    · rw [hcont.others c' hc] at hpc
      exact Or.inr ⟨pc, a, hpc, hplacing⟩
  intro c₁ c₂ pc₁ pc₂ id a₁ a₂ h₁ h₂ hp₁ hp₂
  rcases hback c₁ pc₁ id a₁ h₁ hp₁ with ⟨hc₁, hnew₁⟩ | ⟨q₁, b₁, hq₁, hb₁⟩
  · rcases hback c₂ pc₂ id a₂ h₂ hp₂ with ⟨hc₂, -⟩ | ⟨q₂, b₂, hq₂, hb₂⟩
    · rw [hc₁] at hc₂
      cases hc₂
      rfl
    · exact absurd (h.placing_lt hq₂ hb₂).1 (Nat.not_lt.mpr hnew₁)
  · rcases hback c₂ pc₂ id a₂ h₂ hp₂ with ⟨-, hnew₂⟩ | ⟨q₂, b₂, hq₂, hb₂⟩
    · exact absurd (h.placing_lt hq₁ hb₁).1 (Nat.not_lt.mpr hnew₂)
    · exact h.sole c₁ c₂ q₁ q₂ id b₁ b₂ hq₁ hq₂ hb₁ hb₂

/-! ## Steps that start no new pane object -/

section Acting

variable {new : Option Uuid} {c : Option ℕ} {s s' : ProcessState}

theorem holds_acts (h : Acts new s.supervision s'.supervision s.reaped s'.reaped) (a : ℕ)
    (id : Uuid) : Holds s' a id ↔ Holds s a id := by
  constructor
  · rintro ⟨p', hp', rfl⟩
    exact h.id_of_paneAt hp'
  · rintro ⟨p, hp, rfl⟩
    exact h.exists_paneAt hp

theorem Forgotten.acts (h : Acts new s.supervision s'.supervision s.reaped s'.reaped)
    (hcont : Continues c s s') {id : Uuid} (hf : Forgotten s id) (hnew : new ≠ some id) :
    Forgotten s' id where
  known := Nat.lt_of_lt_of_le hf.known hcont.nextId
  entry := h.entries id hnew hf.entry
  unplaced := hcont.unplaced hf.known hf.unplaced

theorem Gone.acts (h : Acts new s.supervision s'.supervision s.reaped s'.reaped)
    (hcont : Continues c s s') {id : Uuid} (hg : Gone s id) (hnew : new ≠ some id)
    (hheld : s'.panes.lookup id = none) : Gone s' id where
  toForgotten := hg.toForgotten.acts h hcont hnew
  notHeld := hheld
  signaled a p' hp' hid hrun := by
    subst hid
    obtain ⟨p, hp, hrun', hsig⟩ := h.signaled a p' hp' hnew hg.entry hrun
    obtain ⟨q, hq, hid⟩ := h.id_of_paneAt hp'
    rw [hp, Option.some_inj] at hq
    subst hq
    exact hsig (hg.signaled a p hp hid hrun')

/-- What the panes of a step may have that they had not before. -/
def NewlyHeld (s s' : ProcessState) (id : Uuid) : HeldPane → Prop
  | .live a _ _ => id < s'.nextId ∧ ¬ Gone s id ∧ Holds s' a id
  | .dead _ _ => s.nextId ≤ id ∧ id < s'.nextId

/-- The entry that a step makes is for a pane that nobody has closed or is to register. -/
structure MayOpen (c : Option ℕ) (s s' : ProcessState) (id : Uuid) : Prop where
  known : id < s'.nextId
  notGone : ¬ Gone s id
  notForgotten : ∀ c', c ≠ some c' → s.panesLock = some c' → ¬ Forgotten s id
  notPlaced : ∀ c' pc a, c ≠ some c' → s.calls.lookup c' = some pc → placing pc ≠ some (id, a)

/-- INTERNAL: a step that works on the pane objects there are. -/
theorem stable_of_acts (h : ProcInv s)
    (hacts : Acts new s.supervision s'.supervision s.reaped s'.reaped)
    (hcont : Continues c s s') (hopen : ∀ id, new = some id → MayOpen c s s' id)
    (hlock : ∀ c', c ≠ some c' → s.panesLock = some c' →
      s'.panesLock = some c' ∧ s'.panes = s.panes)
    (hpanes : ∀ id v, s'.panes.lookup id = some v →
      s.panes.lookup id = some v ∨ NewlyHeld s s' id v) : Stable c s s' where
  toContinues := hcont
  holds a id := (holds_acts hacts a id).mpr
  forgotten c' id hc hl hf := hf.acts hacts hcont fun hnew =>
    (hopen id hnew).notForgotten c' hc hl hf
  placed c' pc id a hc hpc hplacing := by
    obtain ⟨hid, hentry, -, hdead⟩ := h.placing_lt hpc hplacing
    constructor
    · exact hacts.entries id (fun hnew => (hopen id hnew).notPlaced c' pc a hc hpc hplacing) hentry
    · intro rows cols hheld
      rcases hpanes id _ hheld with hold | hnew
      · exact hdead rows cols hold
      · exact absurd hid (Nat.not_lt.mpr hnew.1)
  lock := hlock
  gone id hg := by
    refine hg.acts hacts hcont (fun hnew => (hopen id hnew).notGone hg) ?_
    cases hv : s'.panes.lookup id with
    | none => rfl
    | some v =>
        rcases hpanes id v hv with hold | hnew
        · rw [hg.notHeld] at hold
          cases hold
        · cases v with
          | live a rows cols => exact absurd hg hnew.2.1
          | dead rows cols => exact absurd hg.known (Nat.not_lt.mpr hnew.1)

/-- A step keeps the invariant, and starts no process for a pane that is gone. -/
structure Follows (s s' : ProcessState) : Prop where
  inv : ProcInv s'
  gone : ∀ id, Gone s id → Gone s' id
  spawned : ∀ id, Gone s id →
    s'.supervision.spawned.count id = s.supervision.spawned.count id

/-- INTERNAL: such a step keeps the invariant when the call that takes it can go on from there. -/
theorem follows_of_acts (h : ProcInv s)
    (hacts : Acts new s.supervision s'.supervision s.reaped s'.reaped)
    (hcont : Continues c s s') (haddr : s'.nextAddr = s.nextAddr)
    (hopen : ∀ id, new = some id → MayOpen c s s' id)
    (hlock : ∀ c', c ≠ some c' → s.panesLock = some c' →
      s'.panesLock = some c' ∧ s'.panes = s.panes)
    (hpanes : ∀ id v, s'.panes.lookup id = some v →
      s.panes.lookup id = some v ∨ NewlyHeld s s' id v)
    (hstart : ∀ c' id a rows cols rest policy, c = some c' →
      s.calls.lookup c' = some (.startInsert id a rows cols rest policy) →
      ∀ rows cols, s'.panes.lookup id ≠ some (.dead rows cols))
    (hnext : Stable c s s' → ∀ c' pc, c = some c' → s'.calls.lookup c' = some pc → CallOk s' c' pc)
    (hclosed : Stable c s s' → ∀ id ∈ s'.closed, Gone s' id) : Follows s s' := by
  have hstable := stable_of_acts h hacts hcont hopen hlock hpanes
  have hspawned : ∀ id, Gone s id →
      s'.supervision.spawned.count id = s.supervision.spawned.count id := by
    intro id hg
    exact hacts.spawned id (fun hnew => (hopen id hnew).notGone hg) hg.entry
  refine ⟨⟨hacts.owned h.owned, hacts.ledger h.ledger, ?_, ?_, ?_, ?_, ?_, sole_step h hcont,
    callsOk_step h hstable (hnext hstable), hclosed hstable⟩, hstable.gone, hspawned⟩
  · intro a p hp
    obtain ⟨q, hq, hid⟩ := hacts.id_of_paneAt hp
    obtain ⟨ha, hlt⟩ := h.addrs a q hq
    rw [haddr, ← hid]
    exact ⟨ha, Nat.lt_of_lt_of_le hlt hcont.nextId⟩
  · intro id hid
    refine hacts.entries id ?_ (h.entries id (Nat.le_trans hcont.nextId hid))
    intro hnew
    exact absurd (hopen id hnew).known (Nat.not_lt.mpr hid)
  · intro id hid
    cases hv : s'.panes.lookup id with
    | none => rfl
    | some v =>
        rcases hpanes id v hv with hold | hnew
        · rw [h.held id (Nat.le_trans hcont.nextId hid)] at hold
          cases hold
        · cases v with
          | live a rows cols => exact absurd hnew.1 (Nat.not_lt.mpr hid)
          | dead rows cols => exact absurd hnew.2 (Nat.not_lt.mpr hid)
  · intro id a rows cols hv
    rcases hpanes id _ hv with hold | hnew
    · exact hstable.holds a id (h.live id a rows cols hold)
    · exact hnew.2.2
  · intro id rows cols hv
    rcases hpanes id _ hv with hold | hnew
    · rcases h.dead id rows cols hold with hnone | ⟨c', a, rows', cols', rest, policy, hpc⟩
      · exact Or.inl fun a ha => hnone a ((holds_acts hacts a id).mp ha)
      · by_cases hc : c = some c'
        · exact absurd hv (hstart c' id a rows' cols' rest policy hc hpc rows cols)
        · exact Or.inr ⟨c', a, rows', cols', rest, policy, (hcont.others c' hc).trans hpc⟩
    · left
      intro a ha
      obtain ⟨p, hp, hid⟩ := (holds_acts hacts a id).mp ha
      have hlt := (h.addrs a p hp).2
      rw [hid] at hlt
      exact absurd hlt (Nat.not_lt.mpr hnew.1)

end Acting

/-! ## Steps that spawn a pane -/

section Spawning

variable {s s' : ProcessState} {pane : Uuid}

theorem paneAt_spawn_self (s : ProcessState) (pane : Uuid) :
    (s.spawn pane).supervision.paneAt s.nextAddr = some (Pane.new pane) :=
  paneAt_setPane_self ..

theorem paneAt_spawn_of_ne (s : ProcessState) (pane : Uuid) {a : ℕ} (ha : a ≠ s.nextAddr) :
    (s.spawn pane).supervision.paneAt a = s.supervision.paneAt a :=
  paneAt_setPane_of_ne _ _ ha

theorem entry_spawn (s : ProcessState) (pane id : Uuid) :
    (s.spawn pane).supervision.entry id = s.supervision.entry id := rfl

theorem ProcInv.paneAt_nextAddr (h : ProcInv s) : s.supervision.paneAt s.nextAddr = none := by
  cases hp : s.supervision.paneAt s.nextAddr with
  | none => rfl
  | some p => exact absurd (h.addrs _ p hp).1 (Nat.lt_irrefl _)

theorem ProcInv.paneAt_spawn (h : ProcInv s) (pane : Uuid) {a : ℕ} {p : Pane}
    (hp : s.supervision.paneAt a = some p) : (s.spawn pane).supervision.paneAt a = some p := by
  rw [paneAt_spawn_of_ne s pane ?_]
  · exact hp
  · rintro rfl
    rw [h.paneAt_nextAddr] at hp
    cases hp

theorem paneAt_of_spawn {a : ℕ} {p : Pane} (hp : (s.spawn pane).supervision.paneAt a = some p) :
    (a = s.nextAddr ∧ p = Pane.new pane) ∨ s.supervision.paneAt a = some p := by
  by_cases ha : a = s.nextAddr
  · subst ha
    rw [paneAt_spawn_self, Option.some_inj] at hp
    exact Or.inl ⟨rfl, hp.symm⟩
  · rw [paneAt_spawn_of_ne s pane ha] at hp
    exact Or.inr hp

/-- INTERNAL: a process for a pane id without a pane object. -/
theorem ledger_spawn (h : ProcInv s) (hfree : ∀ a, ¬ Holds s a pane) :
    Ledger (slot (s.spawn pane).supervision) (s.spawn pane).supervision.spawned s.reaped := by
  refine h.ledger.start (a := s.nextAddr) ?_ (Or.inl ?_) ?_ ?_
  · intro a b hb
    obtain ⟨p, hp, hid, -⟩ := slot_eq_some hb
    exact absurd ⟨p, hp, hid⟩ (hfree a)
  · simp [slot, h.paneAt_nextAddr]
  · simp [slot, paneAt_spawn_self, Pane.new]
  · intro a ha
    simp [slot, paneAt_spawn_of_ne s pane ha]

/-- INTERNAL: a step that spawns a pane keeps the invariant when the call that takes it can go on
from there. -/
theorem follows_of_spawn (h : ProcInv s) {c : ℕ} (hfree : ∀ a, ¬ Holds s a pane)
    (hsup : s'.supervision = (s.spawn pane).supervision) (haddr : s'.nextAddr = s.nextAddr + 1)
    (hreaped : s'.reaped = s.reaped) (hpanes : s'.panes = s.panes) (hclosed : s'.closed = s.closed)
    (hcont : Continues (some c) s s') (hknown : pane < s'.nextId) (hgone : ¬ Gone s pane)
    (hlock : s.panesLock = none ∨ s'.panesLock = s.panesLock)
    (hstart : ∀ id a rows cols rest policy,
      s.calls.lookup c ≠ some (.startInsert id a rows cols rest policy))
    (hdead : ∀ rows cols, s.panes.lookup pane = some (.dead rows cols) → Starting s' pane)
    (hnext : Stable (some c) s s' → ∀ pc, s'.calls.lookup c = some pc → CallOk s' c pc) :
    Follows s s' := by
  have hentry : ∀ id, s'.supervision.entry id = s.supervision.entry id := by
    intro id
    rw [hsup, entry_spawn]
  have hholds : ∀ a id, Holds s a id → Holds s' a id := by
    rintro a id ⟨p, hp, hid⟩
    exact ⟨p, by rw [hsup]; exact h.paneAt_spawn pane hp, hid⟩
  have hforgot : ∀ id, Forgotten s id → Forgotten s' id := by
    intro id hf
    exact ⟨Nat.lt_of_lt_of_le hf.known hcont.nextId, (hentry id).trans hf.entry,
      hcont.unplaced hf.known hf.unplaced⟩
  have hgone' : ∀ id, Gone s id → Gone s' id := by
    intro id hg
    refine ⟨hforgot id hg.toForgotten, by rw [hpanes]; exact hg.notHeld, ?_⟩
    intro a p hp hid hrun
    rw [hsup] at hp
    rcases paneAt_of_spawn hp with ⟨-, rfl⟩ | hp
    · subst hid
      exact absurd hg hgone
    · exact hg.signaled a p hp hid hrun
  have hstable : Stable (some c) s s' := by
    refine ⟨hcont, hholds, fun _ id _ _ => hforgot id, ?_, ?_, hgone'⟩
    · intro c' pc id a _ hpc hplacing
      obtain ⟨-, hnone, -, hnot⟩ := h.placing_lt hpc hplacing
      rw [hentry, hpanes]
      exact ⟨hnone, hnot⟩
    · intro c' _ hl
      rcases hlock with hfree' | hsame
      · rw [hfree'] at hl
        cases hl
      · exact ⟨hsame.trans hl, hpanes⟩
  have hspawned : ∀ id, Gone s id →
      s'.supervision.spawned.count id = s.supervision.spawned.count id := by
    intro id hg
    rw [hsup]
    apply List.count_cons_of_ne
    rintro rfl
    exact hgone hg
  refine ⟨⟨?_, ?_, ?_, ?_, ?_, ?_, ?_, sole_step h hcont, ?_, ?_⟩, hgone', hspawned⟩
  · intro id e a he hea
    rw [hentry] at he
    obtain ⟨p, hp, hid⟩ := h.owned id e a he hea
    exact ⟨p, by rw [hsup]; exact h.paneAt_spawn pane hp, hid⟩
  · rw [hsup, hreaped]
    exact ledger_spawn h hfree
  · intro a p hp
    rw [hsup] at hp
    rw [haddr]
    rcases paneAt_of_spawn hp with ⟨rfl, rfl⟩ | hp
    · exact ⟨Nat.lt_succ_self _, hknown⟩
    · obtain ⟨ha, hid⟩ := h.addrs a p hp
      exact ⟨Nat.lt_succ_of_lt ha, Nat.lt_of_lt_of_le hid hcont.nextId⟩
  · intro id hid
    rw [hentry]
    exact h.entries id (Nat.le_trans hcont.nextId hid)
  · intro id hid
    rw [hpanes]
    exact h.held id (Nat.le_trans hcont.nextId hid)
  · intro id a rows cols hv
    rw [hpanes] at hv
    exact hholds a id (h.live id a rows cols hv)
  · intro id rows cols hv
    rw [hpanes] at hv
    by_cases hid : id = pane
    · subst hid
      exact Or.inr (hdead rows cols hv)
    · rcases h.dead id rows cols hv with hnone | ⟨c', a, rows', cols', rest, policy, hpc⟩
      · left
        rintro a ⟨p, hp, hpid⟩
        rw [hsup] at hp
        rcases paneAt_of_spawn hp with ⟨-, rfl⟩ | hp
        · exact hid hpid.symm
        · exact hnone a ⟨p, hp, hpid⟩
      · have hc : some c ≠ some c' := by
          intro heq
          cases heq
          exact hstart id a rows' cols' rest policy hpc
        exact Or.inr ⟨c', a, rows', cols', rest, policy, (hcont.others c' hc).trans hpc⟩
  · apply callsOk_step h hstable
    intro c' pc hc hpc
    cases hc
    exact hnext hstable pc hpc
  · intro id hid
    rw [hclosed] at hid
    exact hgone' id (h.closed id hid)

end Spawning

/-! ## The steps of each call -/

section Steps

variable {s : ProcessState} {c : ℕ}

/-- INTERNAL: a call takes a step and goes on at `next`, or returns. -/
theorem follows_move (h : ProcInv s) {s' : ProcessState} (new : Option Uuid)
    (next : Option ProcessCall) (hcalls : s'.calls = updateCall s.calls c next)
    (hacts : Acts new s.supervision s'.supervision s.reaped s'.reaped)
    (hnextId : s'.nextId = s.nextId) (haddr : s'.nextAddr = s.nextAddr)
    (hplacing : ∀ pc id a, next = some pc → placing pc = some (id, a) →
      ∃ pc₀ a₀, s.calls.lookup c = some pc₀ ∧ placing pc₀ = some (id, a₀))
    (hopen : ∀ id, new = some id → MayOpen (some c) s s' id)
    (hlock : s.panesLock = none ∨ s.panesLock = some c ∨
      s'.panesLock = s.panesLock ∧ s'.panes = s.panes)
    (hpanes : ∀ id v, s'.panes.lookup id = some v →
      s.panes.lookup id = some v ∨ NewlyHeld s s' id v)
    (hstart : ∀ id a rows cols rest policy,
      s.calls.lookup c = some (.startInsert id a rows cols rest policy) →
      ∀ rows cols, s'.panes.lookup id ≠ some (.dead rows cols))
    (hnext : Stable (some c) s s' → ∀ pc, next = some pc → CallOk s' c pc)
    (hclosed : Stable (some c) s s' → ∀ id ∈ s'.closed, id ∉ s.closed → Gone s' id) :
    Follows s s' := by
  have hcont : Continues (some c) s s' := by
    refine continues_updateCall c next (Nat.le_of_eq hnextId.symm) hcalls ?_
    intro pc id a hpc hp
    exact Or.inr (hplacing pc id a hpc hp)
  refine follows_of_acts h hacts hcont haddr hopen ?_ hpanes ?_ ?_ ?_
  · intro c' hc hl
    rcases hlock with hfree | hmine | ⟨hsame, hpanes'⟩
    · rw [hfree] at hl
      cases hl
    · rw [hmine] at hl
      exact absurd hl hc
    · exact ⟨hsame.trans hl, hpanes'⟩
  · intro c' id a rows cols rest policy hc
    cases hc
    exact hstart id a rows cols rest policy
  · intro hstable c' pc hc hpc
    cases hc
    rw [hcalls, lookup_updateCall_self] at hpc
    exact hnext hstable pc hpc
  · intro hstable id hid
    by_cases hold : id ∈ s.closed
    · exact hstable.gone id (h.closed id hold)
    · exact hclosed hstable id hid hold

theorem mayOpen_none {s s' : ProcessState} {id : Uuid} (h : (none : Option Uuid) = some id) :
    MayOpen (some c) s s' id := by cases h

/-- INTERNAL: the supervision does its work and the call goes on; the panes and their lock stay as
they are. -/
theorem follows_call (h : ProcInv s) {w : Supervision} (next : Option ProcessCall)
    (hacts : Acts none s.supervision w s.reaped s.reaped)
    (hstart : ∀ id a rows cols rest policy,
      s.calls.lookup c ≠ some (.startInsert id a rows cols rest policy))
    (hplacing : ∀ pc, next = some pc → placing pc = none)
    (hnext : Stable (some c) s { s with supervision := w, calls := updateCall s.calls c next } →
      ∀ pc, next = some pc →
        CallOk { s with supervision := w, calls := updateCall s.calls c next } c pc) :
    Follows s { s with supervision := w, calls := updateCall s.calls c next } := by
  refine follows_move h none next rfl hacts rfl rfl ?_ (fun id => mayOpen_none)
    (Or.inr (Or.inr ⟨rfl, rfl⟩)) (fun id v hv => Or.inl hv) ?_ hnext ?_
  · intro pc id a hpc hp
    rw [hplacing pc hpc] at hp
    cases hp
  · intro id a rows cols rest policy hpc
    exact absurd hpc (hstart id a rows cols rest policy)
  · intro _ id hid hnot
    exact absurd hid hnot

/-- A call that relies on nothing. -/
def Plain (pc : ProcessCall) : Prop := placing pc = none ∧ ∀ s c, CallOk s c pc

theorem plain_startInner (panes : List Uuid) (policy : RestartPolicy) :
    Plain (.startInner panes policy) := ⟨rfl, fun _ _ => trivial⟩

theorem follows_plain (h : ProcInv s) {w : Supervision} (next : Option ProcessCall)
    (hacts : Acts none s.supervision w s.reaped s.reaped)
    (hstart : ∀ id a rows cols rest policy,
      s.calls.lookup c ≠ some (.startInsert id a rows cols rest policy))
    (hnext : ∀ pc, next = some pc → Plain pc) :
    Follows s { s with supervision := w, calls := updateCall s.calls c next } :=
  follows_call h next hacts hstart (fun pc hpc => (hnext pc hpc).1)
    fun _ pc hpc => (hnext pc hpc).2 _ c

theorem follows_goto (h : ProcInv s) {next : ProcessCall}
    (hstart : ∀ id a rows cols rest policy,
      s.calls.lookup c ≠ some (.startInsert id a rows cols rest policy)) (hnext : Plain next) :
    Follows s (s.goto c next) := by
  apply follows_plain h (some next) (Acts.refl _ _) hstart
  intro pc hpc
  cases hpc
  exact hnext

theorem follows_finish (h : ProcInv s)
    (hstart : ∀ id a rows cols rest policy,
      s.calls.lookup c ≠ some (.startInsert id a rows cols rest policy)) :
    Follows s (s.finish c) := by
  apply follows_plain h none (Acts.refl _ _) hstart
  intro pc hpc
  cases hpc

theorem withPanes_eq_some {s s' : ProcessState} {k : Option ProcessState}
    (h : s.withPanes k = some s') : s.panesLock = none ∧ k = some s' := by
  unfold ProcessState.withPanes at h
  split at h
  case isTrue hlock => exact ⟨hlock, h⟩
  case isFalse => cases h

/-! ### New panes -/

/-- INTERNAL: a new pane gets into the panes.
SRC: engine.rs:509-512, 717-720, 873-876 -/
theorem follows_placeInsert (h : ProcInv s) {pane : Uuid} {addr : ℕ} {policy : RestartPolicy}
    (hpc : s.calls.lookup c = some (.placeInsert pane addr policy)) (hlock : s.panesLock = none) :
    Follows s ({ s with panes := s.panes.insert pane (.live addr defaultRows defaultCols) }.goto c
      (.placeRegister pane addr policy)) := by
  obtain ⟨hid, hentry, hholds, hdead⟩ := h.placing_lt hpc rfl
  refine follows_move h none (some (.placeRegister pane addr policy)) rfl (Acts.refl _ _) rfl rfl
    ?_ (fun id => mayOpen_none) (Or.inl hlock) ?_ ?_ ?_ ?_
  · intro pc id a hnext hp
    cases hnext
    cases hp
    exact ⟨_, addr, hpc, rfl⟩
  · intro id v hv
    rcases lookup_of_insert hv with ⟨rfl, rfl⟩ | hv
    · refine Or.inr ⟨hid, ?_, hholds⟩
      intro hg
      exact hg.unplaced c _ addr hpc rfl
    · exact Or.inl hv
  · intro id a rows cols rest policy' hpc'
    rw [hpc] at hpc'
    cases hpc'
  · intro _ pc hnext
    cases hnext
    refine ⟨hid, hentry, hholds, ?_⟩
    intro rows cols hv
    have hv' := (AList.lookup_insert s.panes).symm.trans hv
    cases hv'
  · intro _ id hmem hnot
    exact absurd hmem hnot

/-- INTERNAL: the supervision takes a new pane over.
SRC: engine.rs:513, 721, 877-878 -/
theorem follows_placeRegister (delayMs : RestartPolicy → ℕ → F64 → ℕ) (h : ProcInv s) {pane : Uuid}
    {addr : ℕ} {policy : RestartPolicy}
    (hpc : s.calls.lookup c = some (.placeRegister pane addr policy)) {now hookNow : ℕ}
    {unit : F64} {w : Supervision}
    (hw : s.supervision.registerLive delayMs addr policy now hookNow unit = some w) :
    Follows s ({ s with supervision := w }.finish c) := by
  obtain ⟨hid, hentry, ⟨p, hp, rfl⟩, hdead⟩ := h.placing_lt hpc rfl
  refine follows_move h (some p.id) none rfl (acts_registerLive delayMs hp hw) rfl rfl ?_ ?_
    (Or.inr (Or.inr ⟨rfl, rfl⟩)) (fun id v hv => Or.inl hv) ?_ ?_ ?_
  · intro pc id a hnext
    cases hnext
  · intro id hnew
    cases hnew
    refine ⟨hid, ?_, ?_, ?_⟩
    · intro hg
      exact hg.unplaced c _ addr hpc rfl
    · intro c' _ _ hf
      exact hf.unplaced c _ addr hpc rfl
    · intro c' pc a hc hpc' hplacing
      exact hc (congrArg some (h.sole c c' _ pc p.id addr a hpc hpc' rfl hplacing))
  · intro id a rows cols rest policy' hpc'
    rw [hpc] at hpc'
    cases hpc'
  · intro _ pc hnext
    cases hnext
  · intro _ id hmem hnot
    exact absurd hmem hnot

/-! ### Panes that start again -/

/-- INTERNAL: the process of a restored record is started under the panes lock.
SRC: engine.rs:1017-1029 -/
theorem follows_startDead (h : ProcInv s) {pane : Uuid} {rows cols : ℕ} {rest : List Uuid}
    {policy : RestartPolicy} (hpc : s.calls.lookup c = some (.startInner (pane :: rest) policy))
    (hlock : s.panesLock = none) (hheld : s.panes.lookup pane = some (.dead rows cols))
    (rows' cols' : ℕ) :
    Follows s ({ s.spawn pane with panesLock := some c }.goto c
      (.startInsert pane s.nextAddr rows' cols' rest policy)) := by
  have hfree : ∀ a, ¬ Holds s a pane := by
    rcases h.dead pane rows cols hheld with hfree | ⟨c', a, r, k, rest', policy', hpc'⟩
    · exact hfree
    · have hl := (h.calls c' _ hpc').1
      rw [hlock] at hl
      cases hl
  have hid : pane < s.nextId := by
    by_contra hnot
    rw [h.held pane (Nat.not_lt.mp hnot)] at hheld
    cases hheld
  have hun : Unplaced s pane := by
    intro c' pc a hpc' hplacing
    exact (h.placing_lt hpc' hplacing).2.2.2 rows cols hheld
  have hself : ({ s.spawn pane with panesLock := some c }.goto c
      (.startInsert pane s.nextAddr rows' cols' rest policy)).calls.lookup c =
      some (.startInsert pane s.nextAddr rows' cols' rest policy) := AList.lookup_insert _
  refine follows_of_spawn (c := c) h hfree rfl rfl rfl rfl rfl ?_ hid ?_ (Or.inl hlock) ?_ ?_ ?_
  · refine continues_updateCall c (some (.startInsert pane s.nextAddr rows' cols' rest policy))
      (Nat.le_refl s.nextId) rfl ?_
    intro pc id a hnext hp
    cases hnext
    cases hp
  · intro hg
    rw [hg.notHeld] at hheld
    cases hheld
  · intro id a r k rest' policy' hpc'
    rw [hpc] at hpc'
    cases hpc'
  · intro _ _ _
    exact ⟨c, s.nextAddr, rows', cols', rest, policy, hself⟩
  · intro hstable pc hpc'
    rw [hself, Option.some_inj] at hpc'
    subst hpc'
    exact ⟨rfl, hid, hstable.toContinues.unplaced hid hun,
      ⟨Pane.new pane, paneAt_spawn_self s pane, rfl⟩, rows, cols, hheld⟩

/-- INTERNAL: the new pane of a restored record gets into the panes.
SRC: engine.rs:1030 -/
theorem follows_startInsert (h : ProcInv s) {pane : Uuid} {addr rows cols : ℕ} {rest : List Uuid}
    {policy : RestartPolicy}
    (hpc : s.calls.lookup c = some (.startInsert pane addr rows cols rest policy)) :
    Follows s ({ s with panes := s.panes.insert pane (.live addr rows cols) }.goto c
      (.startAdopt pane addr rest policy)) := by
  obtain ⟨hlock, hid, hun, hholds, rows₀, cols₀, hheld⟩ := h.calls c _ hpc
  refine follows_move h none (some (.startAdopt pane addr rest policy)) rfl (Acts.refl _ _) rfl rfl
    ?_ (fun id => mayOpen_none) (Or.inr (Or.inl hlock)) ?_ ?_ ?_ ?_
  · intro pc id a hnext hp
    cases hnext
    cases hp
  · intro id v hv
    rcases lookup_of_insert hv with ⟨rfl, rfl⟩ | hv
    · refine Or.inr ⟨hid, ?_, hholds⟩
      intro hg
      rw [hg.notHeld] at hheld
      cases hheld
    · exact Or.inl hv
  · intro id a r k rest' policy' hpc' r' k' hv
    rw [hpc] at hpc'
    cases hpc'
    have hv' := (AList.lookup_insert s.panes).symm.trans hv
    cases hv'
  · intro hstable pc hnext
    cases hnext
    exact ⟨hlock, hid, hstable.toContinues.unplaced hid hun, rows, cols, AList.lookup_insert _⟩
  · intro _ id hmem hnot
    exact absurd hmem hnot

/-- INTERNAL: the supervision takes the new pane over and the panes lock is released.
SRC: engine.rs:1031-1033 -/
theorem follows_startAdopt (delayMs : RestartPolicy → ℕ → F64 → ℕ) (h : ProcInv s) {pane : Uuid}
    {addr : ℕ} {rest : List Uuid} {policy : RestartPolicy}
    (hpc : s.calls.lookup c = some (.startAdopt pane addr rest policy)) {now hookNow : ℕ}
    {unit : F64} {w : Supervision}
    (hw : s.supervision.adoptStarted delayMs addr policy now hookNow unit = some w) :
    Follows s ({ s with supervision := w, panesLock := none }.goto c (.startInner rest policy)) := by
  obtain ⟨hlock, hid, hun, rows, cols, hheld⟩ := h.calls c _ hpc
  obtain ⟨p, hp, rfl⟩ := h.live pane addr rows cols hheld
  refine follows_move h (some p.id) (some (.startInner rest policy)) rfl
    (acts_adoptStarted delayMs hp hw) rfl rfl ?_ ?_ (Or.inr (Or.inl hlock))
    (fun id v hv => Or.inl hv) ?_ ?_ ?_
  · intro pc id a hnext hplacing
    cases hnext
    cases hplacing
  · intro id hnew
    cases hnew
    refine ⟨hid, ?_, ?_, ?_⟩
    · intro hg
      rw [hg.notHeld] at hheld
      cases hheld
    · intro c' hc hl
      rw [hlock] at hl
      exact absurd hl hc
    · intro c' pc a _ hpc'
      exact hun c' pc a hpc'
  · intro id a r k rest' policy' hpc'
    rw [hpc] at hpc'
    cases hpc'
  · intro _ pc hnext
    cases hnext
    trivial
  · intro _ id hmem hnot
    exact absurd hmem hnot

/-! ### Panes that are dropped -/

/-- INTERNAL: the panes lock is taken.
SRC: engine.rs:609, 822 -/
theorem follows_dropLock (h : ProcInv s) {panes : List Uuid}
    (hpc : s.calls.lookup c = some (.dropLock panes)) (hlock : s.panesLock = none) :
    Follows s ({ s with panesLock := some c }.goto c (.dropForget panes [])) := by
  refine follows_move h none (some (.dropForget panes [])) rfl (Acts.refl _ _) rfl rfl ?_
    (fun id => mayOpen_none) (Or.inl hlock) (fun id v hv => Or.inl hv) ?_ ?_ ?_
  · intro pc id a hnext hp
    cases hnext
    cases hp
  · intro id a r k rest policy hpc'
    rw [hpc] at hpc'
    cases hpc'
  · intro _ pc hnext
    cases hnext
    exact ⟨rfl, by simp⟩
  · intro _ id hmem hnot
    exact absurd hmem hnot

/-- INTERNAL: the panes lock is released and the call returns.
SRC: engine.rs:624, 843-846 -/
theorem follows_dropDone (h : ProcInv s) {gone : List Uuid}
    (hpc : s.calls.lookup c = some (.dropForget [] gone)) :
    Follows s ({ s with panesLock := none, closed := s.closed ∪ gone.toFinset }.finish c) := by
  obtain ⟨hlock, hgone⟩ := h.calls c _ hpc
  refine follows_move h none none rfl (Acts.refl _ _) rfl rfl ?_ (fun id => mayOpen_none)
    (Or.inr (Or.inl hlock)) (fun id v hv => Or.inl hv) ?_ ?_ ?_
  · intro pc id a hnext
    cases hnext
  · intro id a r k rest policy hpc'
    rw [hpc] at hpc'
    cases hpc'
  · intro _ pc hnext
    cases hnext
  · intro hstable id hmem hnot
    rcases Finset.mem_union.mp hmem with hold | hnew
    · exact absurd hold hnot
    · exact hstable.gone id (hgone id (List.mem_toFinset.mp hnew))

/-- INTERNAL: a pane that was supervised is forgotten for good.
SRC: engine.rs:612, 823, 831 -/
theorem follows_dropForget (h : ProcInv s) {pane : Uuid} {rest gone : List Uuid}
    (hpc : s.calls.lookup c = some (.dropForget (pane :: rest) gone)) :
    Follows s ({ s with supervision := s.supervision.forget pane }.goto c
      (.dropRemove pane (s.supervision.entry pane).isSome rest gone)) := by
  obtain ⟨hlock, hgone⟩ := h.calls c _ hpc
  refine follows_call h (some (.dropRemove pane (s.supervision.entry pane).isSome rest gone))
    (acts_forget h.owned pane) ?_ ?_ ?_
  · intro id a r k rest' policy hpc'
    rw [hpc] at hpc'
    cases hpc'
  · intro pc hnext
    cases hnext
    rfl
  · intro hstable pc hnext
    cases hnext
    refine ⟨hlock, fun id hid => hstable.gone id (hgone id hid), ?_⟩
    intro hsome
    have hid : pane < s.nextId := by
      by_contra hnot
      simp [h.entries pane (Nat.not_lt.mp hnot)] at hsome
    have hun : Unplaced s pane := by
      intro c' pc a hpc' hplacing
      simp [(h.placing_lt hpc' hplacing).2.1] at hsome
    refine ⟨hid, ?_, hstable.toContinues.unplaced hid hun⟩
    have hforget := Calls.forget_entries s.supervision pane pane
    simpa using hforget

/-- INTERNAL: nothing to remove.
SRC: engine.rs:613, 824, 832 -/
theorem follows_dropNone (h : ProcInv s) {pane : Uuid} {supervised : Bool} {rest gone : List Uuid}
    (hpc : s.calls.lookup c = some (.dropRemove pane supervised rest gone)) :
    Follows s (s.goto c (.dropForget rest gone)) := by
  obtain ⟨hlock, hgone, -⟩ := h.calls c _ hpc
  refine follows_call h (some (.dropForget rest gone)) (Acts.refl _ _) ?_ ?_ ?_
  · intro id a r k rest' policy hpc'
    rw [hpc] at hpc'
    cases hpc'
  · intro pc hnext
    cases hnext
    rfl
  · intro hstable pc hnext
    cases hnext
    exact ⟨hlock, fun id hid => hstable.gone id (hgone id hid)⟩

theorem gone_of_ite {s : ProcessState} {pane : Uuid} {supervised : Bool} {gone : List Uuid}
    (hgone : ∀ id ∈ gone, Gone s id) (hpane : supervised = true → Gone s pane) :
    ∀ id ∈ (if supervised then pane :: gone else gone), Gone s id := by
  intro id hid
  split at hid
  case isTrue hs =>
      rcases List.mem_cons.mp hid with rfl | hid
      · exact hpane hs
      · exact hgone id hid
  case isFalse => exact hgone id hid

/-- INTERNAL: a pane leaves the panes; `next` may rely on that.
SRC: engine.rs:613, 824, 832 -/
theorem follows_dropRemove (h : ProcInv s) {pane : Uuid} {supervised : Bool} {rest gone : List Uuid}
    (hpc : s.calls.lookup c = some (.dropRemove pane supervised rest gone)) (next : ProcessCall)
    (hplacing : placing next = none)
    (hnext : Stable (some c) s ({ s with panes := s.panes.erase pane }.goto c next) →
      CallOk ({ s with panes := s.panes.erase pane }.goto c next) c next) :
    Follows s ({ s with panes := s.panes.erase pane }.goto c next) := by
  obtain ⟨hlock, -, -⟩ := h.calls c _ hpc
  refine follows_move h none (some next) rfl (Acts.refl _ _) rfl rfl ?_ (fun id => mayOpen_none)
    (Or.inr (Or.inl hlock)) ?_ ?_ ?_ ?_
  · intro pc id a hpc' hp
    cases hpc'
    rw [hplacing] at hp
    cases hp
  · intro id v hv
    left
    by_cases hid : id = pane
    · subst hid
      have hnone := (AList.lookup_erase id s.panes).symm.trans hv
      cases hnone
    · exact (AList.lookup_erase_ne hid).symm.trans hv
  · intro id a r k rest' policy hpc'
    rw [hpc] at hpc'
    cases hpc'
  · intro hstable pc hpc'
    cases hpc'
    exact hnext hstable
  · intro _ id hmem hnot
    exact absurd hmem hnot

/-- INTERNAL: a restored record that is removed had no process: whoever starts one holds the panes
lock.
SRC: engine.rs:613, 824, 832 -/
theorem follows_dropDead (h : ProcInv s) {pane : Uuid} {supervised : Bool} {rest gone : List Uuid}
    (hpc : s.calls.lookup c = some (.dropRemove pane supervised rest gone)) {rows cols : ℕ}
    (hheld : s.panes.lookup pane = some (.dead rows cols)) :
    Follows s ({ s with panes := s.panes.erase pane }.goto c
      (.dropForget rest (if supervised then pane :: gone else gone))) := by
  obtain ⟨hlock, hgone, hforgot⟩ := h.calls c _ hpc
  apply follows_dropRemove h hpc _ rfl
  intro hstable
  refine ⟨hlock, gone_of_ite (fun id hid => hstable.gone id (hgone id hid)) ?_⟩
  intro hs
  have hf := hforgot hs
  refine ⟨⟨hf.known, hf.entry, hstable.toContinues.unplaced hf.known hf.unplaced⟩,
    AList.lookup_erase .., ?_⟩
  intro a p hp hid
  rcases h.dead pane rows cols hheld with hfree | ⟨c', a', r, k, rest', policy, hpc'⟩
  · exact absurd ⟨p, hp, hid⟩ (hfree a)
  · have hl := (h.calls c' _ hpc').1
    rw [hlock] at hl
    cases hl
    rw [hpc] at hpc'
    cases hpc'

theorem follows_dropLive (h : ProcInv s) {pane : Uuid} {supervised : Bool} {rest gone : List Uuid}
    (hpc : s.calls.lookup c = some (.dropRemove pane supervised rest gone)) {addr rows cols : ℕ}
    (hheld : s.panes.lookup pane = some (.live addr rows cols)) :
    Follows s ({ s with panes := s.panes.erase pane }.goto c
      (.dropKill pane supervised addr rest gone)) := by
  obtain ⟨hlock, hgone, hforgot⟩ := h.calls c _ hpc
  apply follows_dropRemove h hpc _ rfl
  intro hstable
  refine ⟨hlock, fun id hid => hstable.gone id (hgone id hid), ?_, AList.lookup_erase ..,
    h.live pane addr rows cols hheld⟩
  intro hs
  have hf := hforgot hs
  exact ⟨hf.known, hf.entry, hstable.toContinues.unplaced hf.known hf.unplaced⟩

/-- INTERNAL: the pane object whose process is signaled is the only one of the pane.
SRC: engine.rs:614-618, 825-827, 833-835 -/
theorem follows_dropKill (h : ProcInv s) {pane : Uuid} {supervised : Bool} {addr : ℕ}
    {rest gone : List Uuid}
    (hpc : s.calls.lookup c = some (.dropKill pane supervised addr rest gone)) {w : Supervision}
    {p : Pane} (hp : s.supervision.paneAt addr = some p)
    (hw : w = if p.isExited then s.supervision else s.supervision.setPane addr p.kill) :
    Follows s ({ s with supervision := w }.goto c
      (.dropForget rest (if supervised then pane :: gone else gone))) := by
  obtain ⟨hlock, hgone, hforgot, hheld, q, hq, rfl⟩ := h.calls c _ hpc
  rw [hp, Option.some_inj] at hq
  subst hq
  have hacts : Acts none s.supervision w s.reaped s.reaped := by
    rw [hw]
    split
    case isTrue => exact Acts.refl _ _
    case isFalse => exact acts_kill hp
  have hsignaled : ∀ q, w.paneAt addr = some q → q.reader = .running →
      q.lastSignal = some sighup := by
    intro q hq hrun
    rw [hw] at hq
    split at hq
    case isTrue hx =>
        rw [hp, Option.some_inj] at hq
        subst hq
        simp [Pane.isExited, hrun] at hx
    case isFalse =>
        rw [paneAt_setPane_self, Option.some_inj] at hq
        subst hq
        unfold Pane.kill at hrun ⊢
        split
        case h_1 => rfl
        case h_2 hnot =>
            split at hrun
            case h_1 hr => exact absurd hr hnot
            case h_2 => exact absurd hrun hnot
  refine follows_call h (some (.dropForget rest (if supervised then p.id :: gone else gone)))
    hacts ?_ ?_ ?_
  · intro id a r k rest' policy hpc'
    rw [hpc] at hpc'
    cases hpc'
  · intro pc hnext
    cases hnext
    rfl
  · intro hstable pc hnext
    cases hnext
    refine ⟨hlock, gone_of_ite (fun id hid => hstable.gone id (hgone id hid)) ?_⟩
    intro hs
    have hf := hforgot hs
    refine ⟨hf.acts hacts hstable.toContinues (by simp), hheld, ?_⟩
    intro a q hq hid hrun
    obtain ⟨q₀, hq₀, hid₀⟩ := hacts.id_of_paneAt hq
    have ha : a = addr := by
      apply h.ledger.sole a addr p.id _ _ _ (slot_of_paneAt hp)
      · exact decide (q₀.reader = .running)
      · rw [slot_of_paneAt hq₀, hid₀, hid]
    subst ha
    exact hsignaled q hq hrun

/-! ### Every call -/

variable (delayMs : RestartPolicy → ℕ → F64 → ℕ)

theorem follows_advancePlace (h : ProcInv s) {pc : ProcessCall} (hpc : s.calls.lookup c = some pc)
    {env : StepEnv} {s' : ProcessState} (hstep : s.advancePlace delayMs c env pc = some s') :
    Follows s s' := by
  unfold ProcessState.advancePlace at hstep
  split at hstep
  case h_1 pane addr policy =>
      obtain ⟨hlock, hs'⟩ := withPanes_eq_some hstep
      cases hs'
      exact follows_placeInsert h hpc hlock
  case h_2 pane addr policy =>
      obtain ⟨w, hw, rfl⟩ := Option.map_eq_some_iff.mp hstep
      exact follows_placeRegister delayMs h hpc hw
  case h_3 => cases hstep

/-- INTERNAL: `start_pane_inner` for each pane of a call.
SRC: engine.rs:995-1036 -/
theorem follows_advanceStart (h : ProcInv s) {pc : ProcessCall} (hpc : s.calls.lookup c = some pc)
    {env : StepEnv} {s' : ProcessState} (hstep : s.advanceStart delayMs c env pc = some s') :
    Follows s s' := by
  unfold ProcessState.advanceStart at hstep
  split at hstep
  case h_1 =>
      cases hstep
      exact follows_finish h (by simp [hpc])
  case h_2 pane rest policy =>
      obtain ⟨hlock, hs'⟩ := withPanes_eq_some hstep
      have hskip : Follows s (s.goto c (.startInner rest policy)) :=
        follows_goto h (by simp [hpc]) (plain_startInner rest policy)
      split at hs'
      case h_1 =>
          cases hs'
          exact hskip
      case h_2 =>
          split at hs'
          case isTrue =>
              cases hs'
              exact hskip
          case isFalse =>
              cases hs'
              exact follows_goto h (by simp [hpc]) ⟨rfl, fun _ _ => trivial⟩
      case h_3 rows cols hheld =>
          split at hs'
          case h_1 =>
              cases hs'
              exact hskip
          case h_2 =>
              cases hs'
              exact follows_startDead h hpc hlock hheld _ _
  case h_3 pane rest policy =>
      cases hstep
      apply follows_plain h (some (.startInner rest policy)) (acts_start delayMs h.owned pane _)
      · simp [hpc]
      · intro pc hnext
        cases hnext
        exact plain_startInner rest policy
  case h_4 =>
      cases hstep
      exact follows_startInsert h hpc
  case h_5 =>
      obtain ⟨w, hw, rfl⟩ := Option.map_eq_some_iff.mp hstep
      exact follows_startAdopt delayMs h hpc hw
  case h_6 => cases hstep

theorem follows_advanceRestart (h : ProcInv s) {pc : ProcessCall} (hpc : s.calls.lookup c = some pc)
    {env : StepEnv} {s' : ProcessState} (hstep : s.advanceRestart delayMs c env pc = some s') :
    Follows s s' := by
  have hgoto : ∀ next, (∀ id a r k rest policy, pc ≠ .startInsert id a r k rest policy) →
      Plain next → Follows s (s.goto c next) := by
    intro next hnot hplain
    apply follows_goto h _ hplain
    intro id a r k rest policy hpc'
    rw [hpc, Option.some_inj] at hpc'
    exact hnot id a r k rest policy hpc'
  unfold ProcessState.advanceRestart at hstep
  split at hstep
  case h_1 =>
      obtain ⟨-, hs'⟩ := withPanes_eq_some hstep
      split at hs'
      case h_1 =>
          cases hs'
          exact hgoto _ (by simp) (plain_startInner _ _)
      case h_2 =>
          cases hs'
          exact hgoto _ (by simp) ⟨rfl, fun _ _ => trivial⟩
  case h_2 pane resetBackoff =>
      cases hstep
      apply follows_plain h none (acts_restart delayMs h.owned pane _ _ _)
      · simp [hpc]
      · intro pc hnext
        cases hnext
  case h_3 =>
      obtain ⟨-, hs'⟩ := withPanes_eq_some hstep
      split at hs'
      case isTrue =>
          cases hs'
          exact follows_finish h (by simp [hpc])
      case isFalse =>
          cases hs'
          exact hgoto _ (by simp) ⟨rfl, fun _ _ => trivial⟩
  case h_4 =>
      split at hstep
      case isTrue =>
          cases hstep
          exact follows_finish h (by simp [hpc])
      case isFalse =>
          cases hstep
          exact hgoto _ (by simp) ⟨rfl, fun _ _ => trivial⟩
  case h_5 =>
      split at hstep <;> cases hstep <;> exact hgoto _ (by simp) ⟨rfl, fun _ _ => trivial⟩
  case h_6 =>
      obtain ⟨-, hs'⟩ := withPanes_eq_some hstep
      split at hs'
      case isTrue =>
          cases hs'
          exact hgoto _ (by simp) (plain_startInner _ _)
      case isFalse =>
          cases hs'
          exact follows_finish h (by simp [hpc])
  case h_7 => cases hstep

/-- INTERNAL: the end of `close_pane` and of `kill_session`.
SRC: engine.rs:609-623, 822-841 -/
theorem follows_advanceDrop (h : ProcInv s) {pc : ProcessCall} (hpc : s.calls.lookup c = some pc)
    {s' : ProcessState} (hstep : s.advanceDrop c pc = some s') : Follows s s' := by
  unfold ProcessState.advanceDrop at hstep
  split at hstep
  case h_1 =>
      obtain ⟨hlock, hs'⟩ := withPanes_eq_some hstep
      cases hs'
      exact follows_dropLock h hpc hlock
  case h_2 =>
      cases hstep
      exact follows_dropDone h hpc
  case h_3 =>
      cases hstep
      exact follows_dropForget h hpc
  case h_4 =>
      split at hstep
      case h_1 =>
          cases hstep
          exact follows_dropNone h hpc
      case h_2 hheld =>
          cases hstep
          exact follows_dropDead h hpc hheld
      case h_3 hheld =>
          cases hstep
          exact follows_dropLive h hpc hheld
  case h_5 pane supervised addr rest gone =>
      obtain ⟨-, -, -, -, p, hp, -⟩ := h.calls c _ hpc
      cases hstep
      have hkill := follows_dropKill h hpc hp rfl
      simp only [hp]
      split
      case isTrue hx =>
          rw [if_pos hx] at hkill
          exact hkill
      case isFalse hx =>
          rw [if_neg hx] at hkill
          exact hkill
  case h_6 => cases hstep

theorem follows_advanceCall (h : ProcInv s) {pc : ProcessCall} (hpc : s.calls.lookup c = some pc)
    {env : StepEnv} {s' : ProcessState} (hstep : s.advanceCall delayMs c env pc = some s') :
    Follows s s' := by
  unfold ProcessState.advanceCall at hstep
  split at hstep
  all_goals first
    | exact follows_advancePlace delayMs h hpc hstep
    | exact follows_advanceStart delayMs h hpc hstep
    | exact follows_advanceRestart delayMs h hpc hstep
    | exact follows_advanceDrop h hpc hstep

/-! ## Runs -/

/-- INTERNAL: an operation of the supervision that belongs to no call, or to one whose other steps
touch no process. -/
theorem follows_supervision (h : ProcInv s) {w : Supervision} {reaped : List Uuid}
    (hacts : Acts none s.supervision w s.reaped reaped) :
    Follows s { s with supervision := w, reaped := reaped } := by
  refine follows_of_acts (c := none) h hacts (continues_none (Nat.le_refl s.nextId) rfl) rfl ?_ ?_
    (fun id v hv => Or.inl hv) ?_ ?_ ?_
  · intro id hnew
    cases hnew
  · intro c' _ hl
    exact ⟨hl, rfl⟩
  · intro c' id a rows cols rest policy hc
    cases hc
  · intro _ c' pc hc
    cases hc
  · intro hstable id hid
    exact hstable.gone id (h.closed id hid)

/-- INTERNAL: the process of a new pane is started.
SRC: engine.rs:481-489, 671-683, 856-859 -/
theorem follows_place (h : ProcInv s) (hc : c ∉ s.calls) (policy : RestartPolicy) :
    Follows s ({ s.spawn s.nextId with nextId := s.nextId + 1 }.goto c
      (.placeInsert s.nextId s.nextAddr policy)) := by
  have hself : ({ s.spawn s.nextId with nextId := s.nextId + 1 }.goto c
      (.placeInsert s.nextId s.nextAddr policy)).calls.lookup c =
      some (.placeInsert s.nextId s.nextAddr policy) := AList.lookup_insert _
  have hnone : s.calls.lookup c = none := AList.lookup_eq_none.mpr hc
  refine follows_of_spawn (c := c) h ?_ rfl rfl rfl rfl rfl ?_ (Nat.lt_succ_self s.nextId) ?_
    (Or.inr rfl) (by simp [hnone]) ?_ ?_
  · rintro a ⟨p, hp, hid⟩
    have hlt := (h.addrs a p hp).2
    rw [hid] at hlt
    exact absurd hlt (Nat.lt_irrefl _)
  · refine continues_updateCall c (some (.placeInsert s.nextId s.nextAddr policy))
      (Nat.le_succ s.nextId) rfl ?_
    intro pc id a hnext hp
    cases hnext
    cases hp
    exact Or.inl (Nat.le_refl _)
  · intro hg
    exact absurd hg.known (Nat.lt_irrefl _)
  · intro rows cols hheld
    rw [h.held s.nextId (Nat.le_refl _)] at hheld
    cases hheld
  · intro _ pc hpc
    rw [hself, Option.some_inj] at hpc
    subst hpc
    refine ⟨Nat.lt_succ_self s.nextId, h.entries s.nextId (Nat.le_refl _),
      ⟨Pane.new s.nextId, paneAt_spawn_self s s.nextId, rfl⟩, ?_⟩
    intro rows cols hheld
    have hheld' := (h.held s.nextId (Nat.le_refl _)).symm.trans hheld
    cases hheld'

/-- INTERNAL: a pane is restored from its record.
SRC: engine.rs:354-398, supervision.rs:116-134 -/
theorem follows_restore (h : ProcInv s) (hlock : s.panesLock = none) (rows cols : ℕ)
    (persisted : Option PersistedRestartState) (policy : RestartPolicy) :
    Follows s { s with
      panes := s.panes.insert s.nextId (.dead rows cols)
      supervision := s.supervision.registerRestored s.nextId persisted policy
      nextId := s.nextId + 1 } := by
  have hlt : s.nextId < s.nextId + 1 := Nat.lt_succ_self s.nextId
  refine follows_of_acts (c := none) h (acts_registerRestored s.nextId persisted policy)
    (continues_none (Nat.le_succ s.nextId) rfl) rfl ?_ ?_ ?_ ?_ ?_ ?_
  · intro id hnew
    cases hnew
    refine ⟨hlt, ?_, ?_, ?_⟩
    · intro hg
      exact absurd hg.known (Nat.lt_irrefl _)
    · intro c' _ _ hf
      exact absurd hf.known (Nat.lt_irrefl _)
    · intro c' pc a _ hpc hplacing
      exact absurd (h.placing_lt hpc hplacing).1 (Nat.lt_irrefl _)
  · intro c' _ hl
    rw [hlock] at hl
    cases hl
  · intro id v hv
    rcases lookup_of_insert hv with ⟨rfl, rfl⟩ | hv
    · exact Or.inr ⟨Nat.le_refl _, hlt⟩
    · exact Or.inl hv
  · intro c' id a rows' cols' rest policy' hc
    cases hc
  · intro _ c' pc hc
    cases hc
  · intro hstable id hid
    exact hstable.gone id (h.closed id hid)

theorem follows_begin (h : ProcInv s) {first : ProcessCall} {s' : ProcessState}
    (hbegin : s.begin c first = some s') (hfirst : Plain first) : Follows s s' := by
  unfold ProcessState.begin at hbegin
  split at hbegin
  case isTrue => cases hbegin
  case isFalse hc =>
      cases hbegin
      apply follows_goto h _ hfirst
      intro id a rows cols rest policy hpc
      rw [AList.lookup_eq_none.mpr hc] at hpc
      cases hpc

/-- INTERNAL: every event.
SRC: engine.rs:588-1036, 1173-1187, supervision.rs:100-462 -/
theorem follows_step (h : ProcInv s) (ev : ProcessEvent) {s' : ProcessState}
    (hstep : s.step delayMs ev = some s') : Follows s s' := by
  cases ev with
  | place call policy =>
      simp only [ProcessState.step] at hstep
      split at hstep
      case isTrue => cases hstep
      case isFalse hc =>
          cases hstep
          exact follows_place h hc policy
  | restore rows cols persisted policy =>
      obtain ⟨hlock, hs'⟩ := withPanes_eq_some hstep
      cases hs'
      exact follows_restore h hlock rows cols persisted policy
  | startPane call pane => exact follows_begin h hstep (plain_startInner _ _)
  | restartPane call pane resetBackoff => exact follows_begin h hstep ⟨rfl, fun _ _ => trivial⟩
  | reviveSession call panes policy => exact follows_begin h hstep ⟨rfl, fun _ _ => trivial⟩
  | closePane call pane => exact follows_begin h hstep ⟨rfl, fun _ _ => trivial⟩
  | killSession call panes => exact follows_begin h hstep ⟨rfl, fun _ _ => trivial⟩
  | advance call env =>
      obtain ⟨pc, hpc, hs'⟩ := Option.bind_eq_some_iff.mp hstep
      exact follows_advanceCall delayMs h hpc hs'
  | runDue now due =>
      obtain ⟨w, hw, rfl⟩ := Option.map_eq_some_iff.mp hstep
      simp only [Supervision.step] at hw
      split at hw
      case isTrue =>
          cases hw
          exact follows_supervision h (acts_runDueLoop delayMs due h.owned)
      case isFalse => cases hw
  | stop pane kill =>
      cases hstep
      exact follows_supervision h (acts_stop h.owned pane kill)
  | setPolicy pane policy =>
      cases hstep
      exact follows_supervision h (acts_setPolicy h.owned pane policy)
  | resetBudget pane =>
      cases hstep
      exact follows_supervision h (acts_resetBudget pane)
  | reader addr code now unit =>
      obtain ⟨p, hp, hs'⟩ := Option.bind_eq_some_iff.mp hstep
      obtain ⟨w, hw, hs'⟩ := Option.bind_eq_some_iff.mp hs'
      cases hs'
      exact follows_supervision h (acts_readerStep delayMs hp hw)

theorem procInv_run {s' : ProcessState} {evs : List ProcessEvent} (h : ProcInv s)
    (hrun : run (ProcessState.step delayMs) s evs = some s') : ProcInv s' :=
  run_invariant ProcInv (fun _ => True)
    (fun _ ev _ _ hs hstep => (follows_step delayMs hs ev hstep).inv) (fun _ _ => trivial) h hrun

/-- INTERNAL: nothing is started any more for a pane that is gone. -/
theorem spawned_run {s' : ProcessState} {evs : List ProcessEvent} (h : ProcInv s) {id : Uuid}
    (hg : Gone s id) (hrun : run (ProcessState.step delayMs) s evs = some s') :
    s'.supervision.spawned.count id = s.supervision.spawned.count id := by
  have hinv := run_invariant
    (fun t => ProcInv t ∧ Gone t id ∧
      t.supervision.spawned.count id = s.supervision.spawned.count id)
    (fun _ => True) ?_ (fun _ _ => trivial) ⟨h, hg, rfl⟩ hrun
  · exact hinv.2.2
  · rintro t ev t' - ⟨ht, htg, hcount⟩ hstep
    have hf := follows_step delayMs ht ev hstep
    exact ⟨hf.inv, hf.gone id htg, (hf.spawned id htg).trans hcount⟩

end Steps

/-- INTERNAL: **one process for each pane.** Under any interleaving of the steps of all calls, of
`run_due` and of the reader threads, what was started for a pane has been reaped, all but one. Once
the call has returned that took a pane out of the panes and the supervision, no process is started
for it any more, and what still runs of it has been signaled.
SRC: engine.rs:588-628, 822-841, 995-1036, supervision.rs:136-275, pane.rs:651-722 -/
theorem one_process (delayMs : RestartPolicy → ℕ → F64 → ℕ) (evs : List ProcessEvent)
    (s : ProcessState) (hrun : run (ProcessState.step delayMs) .init evs = some s) (id : Uuid) :
    s.reaped.count id ≤ s.supervision.spawned.count id ∧
    s.supervision.spawned.count id ≤ s.reaped.count id + 1 ∧
    (id ∈ s.closed →
      (∀ a p, s.supervision.paneAt a = some p → p.id = id → p.reader = .running →
        p.lastSignal = some sighup) ∧
      ∀ evs' s', run (ProcessState.step delayMs) s evs' = some s' →
        s'.supervision.spawned.count id = s.supervision.spawned.count id) := by
  have h : ProcInv s := procInv_run delayMs procInv_init hrun
  obtain ⟨hle, hle'⟩ := h.ledger.count_le id
  refine ⟨hle, hle', ?_⟩
  intro hclosed
  have hg := h.closed id hclosed
  refine ⟨hg.signaled, ?_⟩
  intro evs' s' hrun'
  exact spawned_run delayMs h hg hrun'

/-- A restored record is started, and closed while its process runs. -/
def startedAndClosed : List ProcessEvent :=
  let env : StepEnv := ⟨⟨⟨0, .ok (), .nan⟩, 0⟩, .ok (), true⟩
  [.restore 24 80 none .default, .startPane 0 0, .advance 0 env, .advance 0 env, .advance 0 env,
    .closePane 1 0, .advance 1 env, .advance 1 env, .advance 1 env, .advance 1 env, .advance 1 env]

theorem one_process_startedAndClosed :
    ∃ s, run (ProcessState.step fun _ _ _ => 0) .init startedAndClosed = some s ∧
      s.supervision.spawned.count 0 = 1 ∧ s.supervision.spawned.count 0 ≤ s.reaped.count 0 + 1 ∧
      ∃ p, s.supervision.paneAt 0 = some p ∧ p.reader = .running ∧
        p.lastSignal = some sighup := by
  refine ⟨_, rfl, rfl, ?_, _, rfl, rfl, ?_⟩
  · exact (one_process (fun _ _ _ => 0) startedAndClosed _ rfl 0).2.1
  · exact ((one_process (fun _ _ _ => 0) startedAndClosed _ rfl 0).2.2 (by decide)).1 0 _ rfl rfl rfl

end Tymux.Analysis.Processes
