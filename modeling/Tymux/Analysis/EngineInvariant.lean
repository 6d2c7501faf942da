import Tymux.Analysis.EngineLayout

/-!
# Panes between the layouts and the panes map

A new pane is first known to its call only, then a leaf of a layout, then in the panes map; a
closed one leaves in the same order. In between the layouts and the panes map disagree, by
exactly the panes that some call is about to insert or to erase: `EngineInv` says so, next to
what keeps the calls out of each other's way. A step of a call adds a leaf, inserts a pane,
takes leaves out, erases a pane, or leaves both sides as they are, and each of the five keeps
`EngineInv`. `StepOk` is the condition under which nothing is left behind: no call fails after
its spawn and no call inserts or registers a pane that another call has already erased.
-/

set_option autoImplicit false

namespace Tymux.Analysis

open Tymux.Model EngineState

/-! ## What a call is about to do -/

/-- The ids that the call made and that nobody else can know yet. -/
def freshIds : Call → List Uuid
  | .createInsertSession p w sid => [p, w, sid]
  | .splitLookup _ _ p => [p]
  | .splitLayout _ _ p _ _ => [p]
  | .windowLayout _ p w => [p, w]
  | _ => []

/-- The pane whose process the call started, before it is in a layout. -/
def spawnedPane : Call → Option Uuid
  | .createInsertSession p _ _ => some p
  | .splitLookup _ _ p => some p
  | .splitLayout _ _ p _ _ => some p
  | .windowLayout _ p _ => some p
  | _ => none

/-- The pane that the call put into a layout and is about to insert into the panes. -/
def insertingPane : Call → Option Uuid
  | .createInsertPane p _ _ => some p
  | .splitInsertPane p _ _ => some p
  | .windowInsertPane _ p _ => some p
  | _ => none

/-- The panes that the call took out of the layouts and is about to erase from the panes. -/
def erasingPanes : Call → List Uuid
  | .closeSnapshot p _ => [p]
  | .closeIndex p _ => [p]
  | .closePanes p => [p]
  | .killIndex _ ps => ps
  | .killPanes ps => ps
  | .killEach ps => ps
  | _ => []

/-- A pane and the window that the call takes it to be in. -/
def placedPane : Call → Option (Uuid × Uuid)
  | .createInsertPane p w _ => some (p, w)
  | .createRegister p w _ => some (p, w)
  | .createIndex p w _ => some (p, w)
  | .splitInsertPane p w _ => some (p, w)
  | .splitRegister p w _ => some (p, w)
  | .splitIndex p w _ => some (p, w)
  | .windowInsertPane _ p w => some (p, w)
  | .windowRegister _ p w => some (p, w)
  | .windowIndex _ p w => some (p, w)
  | .closeLayout p w _ => some (p, w)
  | _ => none

/-- The new pane of `create_window`, whose layout the sessions lock still protects. -/
def lockedPane : Call → Option Uuid
  | .windowInsertPane _ p _ => some p
  | .windowRegister _ p _ => some p
  | _ => none

def holdsSessionsLock : Call → Bool
  | .splitSnapshotPanes _ => true
  | .closeSnapshot _ _ => true
  | .windowInsertPane _ _ _ => true
  | .windowRegister _ _ _ => true
  | .windowIndex _ _ _ => true
  | .windowSnapshot => true
  | _ => false

def holdsPanesLock : Call → Bool
  | .killEach _ => true
  | _ => false

/-- The panes that the call deals with and did not make just now. -/
def touchedPanes (pc : Call) : List Uuid :=
  erasingPanes pc ++ (placedPane pc).toList.map Prod.fst

def insertingIds (s : EngineState) : List Uuid :=
  s.calls.entries.flatMap fun e => (insertingPane e.2).toList

def erasingIds (s : EngineState) : List Uuid :=
  s.calls.entries.flatMap fun e => erasingPanes e.2

theorem mem_insertingIds {s : EngineState} {p : Uuid} :
    p ∈ insertingIds s ↔ ∃ c pc, s.calls.lookup c = some pc ∧ insertingPane pc = some p := by
  unfold insertingIds
  rw [List.mem_flatMap]
  constructor
  · rintro ⟨⟨c, pc⟩, hmem, hp⟩
    exact ⟨c, pc, AList.mem_lookup_iff.mpr hmem, by simpa using hp⟩
  · rintro ⟨c, pc, hpc, hp⟩
    exact ⟨⟨c, pc⟩, AList.mem_lookup_iff.mp hpc, by simpa using hp⟩

theorem mem_erasingIds {s : EngineState} {p : Uuid} :
    p ∈ erasingIds s ↔ ∃ c pc, s.calls.lookup c = some pc ∧ p ∈ erasingPanes pc := by
  unfold erasingIds
  rw [List.mem_flatMap]
  constructor
  · rintro ⟨⟨c, pc⟩, hmem, hp⟩
    exact ⟨c, pc, AList.mem_lookup_iff.mpr hmem, hp⟩
  · rintro ⟨c, pc, hpc, hp⟩
    exact ⟨⟨c, pc⟩, AList.mem_lookup_iff.mp hpc, hp⟩

/-! ## The condition on the steps -/

/-- The next step of the call does not leave a process behind: the call does not fail after
its spawn, or panic, and does not insert or register a pane that was erased in the meantime. -/
def CallOk (s : EngineState) : Call → Prop
  | .splitLookup target _ _ => (s.windowAndSessionForPane target).isSome
  | .splitLayout target o p w sid =>
    ∃ st windows, s.sessions.lookup sid = some st ∧
      splitWindow target o p w st.windows = some (some windows)
  | .windowLayout sid _ _ => (s.sessions.lookup sid).isSome
  | .createInsertPane p _ _ => p ∈ s.leafIds ∨ p ∈ erasingIds s
  | .splitInsertPane p _ _ => p ∈ s.leafIds ∨ p ∈ erasingIds s
  | .createRegister p _ _ => s.panes.lookup p = some .live
  | .splitRegister p _ _ => s.panes.lookup p = some .live
  | .splitSnapshotPanes sid => (s.sessions.lookup sid).isSome
  | _ => True

def StepOk (s : EngineState) : EngineEvent → Prop
  | .advance c _ => ∀ pc, s.calls.lookup c = some pc → CallOk s pc
  | _ => True

/-! ## The invariant -/

/-- An id that no map knows. -/
structure Unused (s : EngineState) (x : Uuid) : Prop where
  leaf : ∀ w, ¬ Holds s.sessions x w
  window : ∀ sid, ¬ WindowIn s.sessions x sid
  session : s.sessions.lookup x = none
  pane : x ∉ s.panes
  index : x ∉ s.paneWindow

/-- What holds of every call, seen from the maps. -/
structure CallInv (s : EngineState) (pc : Call) : Prop where
  fresh : ∀ x ∈ freshIds pc, x < s.nextId ∧ Unused s x
  distinct : (freshIds pc).Nodup
  touched : ∀ x ∈ touchedPanes pc, x < s.nextId
  placed : ∀ p w, placedPane pc = some (p, w) → ∀ v, Holds s.sessions p v → v = w
  inserting : ∀ p, insertingPane pc = some p → p ∉ s.panes
  erasing : ∀ p ∈ erasingPanes pc, ∀ v, ¬ Holds s.sessions p v
  locked : ∀ p, lockedPane pc = some p → ∃ w, Holds s.sessions p w
  registering : ∀ sid p w, pc = .windowRegister sid p w → s.panes.lookup p = some .live

/-- Two calls do not deal with each other's new panes. -/
structure Compat (pc pc' : Call) : Prop where
  fresh : ∀ x ∈ freshIds pc, x ∉ freshIds pc'
  left : ∀ x ∈ freshIds pc, x ∉ touchedPanes pc'
  right : ∀ x ∈ freshIds pc', x ∉ touchedPanes pc
  inserting : ∀ p, insertingPane pc = some p → insertingPane pc' ≠ some p

/-- What holds of the maps alone. -/
structure MapsInv (s : EngineState) : Prop where
  layout : LayoutInv s.sessions
  unpoisoned : s.sessionsPoisoned = false ∧ s.panesPoisoned = false
  supply : ∀ x, s.nextId ≤ x → Unused s x
  index : ∀ p w, s.paneWindow.lookup p = some w → ∀ v, Holds s.sessions p v → v = w
  supervised : ∀ p ∈ s.supervised, s.panes.lookup p = some .live

structure EngineInv (s : EngineState) : Prop where
  maps : MapsInv s
  calls : ∀ c pc, s.calls.lookup c = some pc → CallInv s pc
  compat : ∀ c c' pc pc', c ≠ c' → s.calls.lookup c = some pc → s.calls.lookup c' = some pc' →
    Compat pc pc'
  sessionsLock : ∀ c pc, s.calls.lookup c = some pc → holdsSessionsLock pc = true →
    s.sessionsLock = some c
  panesLock : ∀ c pc, s.calls.lookup c = some pc → holdsPanesLock pc = true →
    s.panesLock = some c
  leaves : ∀ p w, Holds s.sessions p w → p ∈ s.panes ∨ p ∈ insertingIds s
  panes : ∀ p ∈ s.panes, (∃ w, Holds s.sessions p w) ∨ p ∈ erasingIds s
  running : ∀ p ∈ s.running, s.panes.lookup p = some .live ∨ p ∈ insertingIds s ∨
    ∃ c pc, s.calls.lookup c = some pc ∧ spawnedPane pc = some p

theorem Compat.symm {pc pc' : Call} (h : Compat pc pc') : Compat pc' pc where
  fresh x hx hx' := h.fresh x hx' hx
  left := h.right
  right := h.left
  inserting p hp hp' := h.inserting p hp' hp

/-! ## One call moves -/

/-- The calls after the call `c` went on, or returned. -/
def setCall (calls : AList fun _ : ℕ => Call) (c : ℕ) : Option Call → AList fun _ : ℕ => Call
  | some pc => calls.insert c pc
  | none => calls.erase c

theorem lookup_setCall_self (calls : AList fun _ : ℕ => Call) (c : ℕ) (next : Option Call) :
    (setCall calls c next).lookup c = next := by
  cases next with
  | none => exact AList.lookup_erase ..
  | some pc => exact AList.lookup_insert _

theorem lookup_setCall_ne {calls : AList fun _ : ℕ => Call} {c c' : ℕ} (h : c' ≠ c)
    (next : Option Call) : (setCall calls c next).lookup c' = calls.lookup c' := by
  cases next with
  | none => exact AList.lookup_erase_ne h
  | some pc => exact AList.lookup_insert_ne h

/-- Some other call satisfies `P`. -/
def Elsewhere (s : EngineState) (c : ℕ) (P : Call → Prop) : Prop :=
  ∃ c' pc', c' ≠ c ∧ s.calls.lookup c' = some pc' ∧ P pc'

theorem exists_call_iff {s : EngineState} {c : ℕ} {pc : Call} (hpc : s.calls.lookup c = some pc)
    (P : Call → Prop) :
    (∃ c' pc', s.calls.lookup c' = some pc' ∧ P pc') ↔ P pc ∨ Elsewhere s c P := by
  constructor
  · rintro ⟨c', pc', hpc', hP⟩
    by_cases heq : c' = c
    · rw [heq, hpc, Option.some_inj] at hpc'
      exact Or.inl (hpc' ▸ hP)
    · exact Or.inr ⟨c', pc', heq, hpc', hP⟩
  · rintro (hP | ⟨c', pc', -, hpc', hP⟩)
    · exact ⟨c, pc, hpc, hP⟩
    · exact ⟨c', pc', hpc', hP⟩

theorem exists_call_of_setCall {s s' : EngineState} {c : ℕ} {next : Option Call}
    (hcalls : s'.calls = setCall s.calls c next) {P : Call → Prop}
    (h : (∃ pc, next = some pc ∧ P pc) ∨ Elsewhere s c P) :
    ∃ c' pc', s'.calls.lookup c' = some pc' ∧ P pc' := by
  rcases h with ⟨pc, hnext, hP⟩ | ⟨c', pc', hne, hpc', hP⟩
  · exact ⟨c, pc, by rw [hcalls, lookup_setCall_self, hnext], hP⟩
  · exact ⟨c', pc', by rw [hcalls, lookup_setCall_ne hne, hpc'], hP⟩

/-- INTERNAL: **one call moves.** The maps are in order after the step, the call is in order
where it goes on, the other calls are not disturbed, and what the call stood for is
accounted for. -/
theorem EngineInv.move {s s' : EngineState} (h : EngineInv s) {c : ℕ} (next : Option Call)
    (hcalls : s'.calls = setCall s.calls c next) (hmaps : MapsInv s')
    (hnext : ∀ pc', next = some pc' → CallInv s' pc' ∧
      (holdsSessionsLock pc' = true → s'.sessionsLock = some c) ∧
      (holdsPanesLock pc' = true → s'.panesLock = some c) ∧
      ∀ c₂ pc₂, c₂ ≠ c → s.calls.lookup c₂ = some pc₂ → Compat pc' pc₂)
    (hothers : ∀ c₂ pc₂, c₂ ≠ c → s.calls.lookup c₂ = some pc₂ → CallInv s' pc₂)
    (hlocks : ∀ c₂, c₂ ≠ c → (s.sessionsLock = some c₂ → s'.sessionsLock = some c₂) ∧
      (s.panesLock = some c₂ → s'.panesLock = some c₂))
    (hleaves : ∀ p w, Holds s'.sessions p w → p ∈ s'.panes ∨
      (∃ pc', next = some pc' ∧ insertingPane pc' = some p) ∨
      Elsewhere s c fun pc₂ => insertingPane pc₂ = some p)
    (hpanes : ∀ p ∈ s'.panes, (∃ w, Holds s'.sessions p w) ∨
      (∃ pc', next = some pc' ∧ p ∈ erasingPanes pc') ∨
      Elsewhere s c fun pc₂ => p ∈ erasingPanes pc₂)
    (hrunning : ∀ p ∈ s'.running, s'.panes.lookup p = some .live ∨
      (∃ pc', next = some pc' ∧ (insertingPane pc' = some p ∨ spawnedPane pc' = some p)) ∨
      Elsewhere s c fun pc₂ => insertingPane pc₂ = some p ∨ spawnedPane pc₂ = some p) :
    EngineInv s' := by
  have hlookup : ∀ {c₂ pc₂}, s'.calls.lookup c₂ = some pc₂ →
      c₂ = c ∧ next = some pc₂ ∨ c₂ ≠ c ∧ s.calls.lookup c₂ = some pc₂ := by
    intro c₂ pc₂ hpc₂
    rw [hcalls] at hpc₂
    by_cases heq : c₂ = c
    · rw [heq, lookup_setCall_self] at hpc₂
      exact Or.inl ⟨heq, hpc₂⟩
    · rw [lookup_setCall_ne heq] at hpc₂
      exact Or.inr ⟨heq, hpc₂⟩
  refine ⟨hmaps, ?_, ?_, ?_, ?_, ?_, ?_, ?_⟩
  · intro c₂ pc₂ hpc₂
    rcases hlookup hpc₂ with ⟨-, hn⟩ | ⟨hne, hold⟩
    · exact (hnext pc₂ hn).1
    · exact hothers c₂ pc₂ hne hold
  · intro c₁ c₂ pc₁ pc₂ hne h₁ h₂
    rcases hlookup h₁ with ⟨heq₁, hn₁⟩ | ⟨hne₁, hold₁⟩
    · rcases hlookup h₂ with ⟨heq₂, -⟩ | ⟨hne₂, hold₂⟩
      · exact absurd (heq₁.trans heq₂.symm) hne
      · exact (hnext pc₁ hn₁).2.2.2 c₂ pc₂ hne₂ hold₂
    · rcases hlookup h₂ with ⟨-, hn₂⟩ | ⟨-, hold₂⟩
      · exact ((hnext pc₂ hn₂).2.2.2 c₁ pc₁ hne₁ hold₁).symm
      · exact h.compat c₁ c₂ pc₁ pc₂ hne hold₁ hold₂
  · intro c₂ pc₂ hpc₂ hholds
    rcases hlookup hpc₂ with ⟨heq, hn⟩ | ⟨hne, hold⟩
    · rw [heq]
      exact (hnext pc₂ hn).2.1 hholds
    · exact (hlocks c₂ hne).1 (h.sessionsLock c₂ pc₂ hold hholds)
  · intro c₂ pc₂ hpc₂ hholds
    rcases hlookup hpc₂ with ⟨heq, hn⟩ | ⟨hne, hold⟩
    · rw [heq]
      exact (hnext pc₂ hn).2.2.1 hholds
    · exact (hlocks c₂ hne).2 (h.panesLock c₂ pc₂ hold hholds)
  · intro p w hp
    rw [mem_insertingIds]
    rcases hleaves p w hp with hin | hrest
    · exact Or.inl hin
    · exact Or.inr (exists_call_of_setCall hcalls hrest)
  · intro p hp
    rw [mem_erasingIds]
    rcases hpanes p hp with hin | hrest
    · exact Or.inl hin
    · exact Or.inr (exists_call_of_setCall hcalls hrest)
  · intro p hp
    rw [mem_insertingIds]
    rcases hrunning p hp with hin | hrest
    · exact Or.inl hin
    · obtain ⟨c₂, pc₂, hpc₂, hins | hsp⟩ := exists_call_of_setCall hcalls hrest
      · exact Or.inr (Or.inl ⟨c₂, pc₂, hpc₂, hins⟩)
      · exact Or.inr (Or.inr ⟨c₂, pc₂, hpc₂, hsp⟩)

section Moves

variable {s s' : EngineState} {c : ℕ} {pc : Call}

theorem EngineInv.leaves_cases (h : EngineInv s) (hpc : s.calls.lookup c = some pc) {p w : Uuid}
    (hp : Holds s.sessions p w) : p ∈ s.panes ∨ insertingPane pc = some p ∨
      Elsewhere s c fun pc₂ => insertingPane pc₂ = some p := by
  rcases h.leaves p w hp with hin | hins
  · exact Or.inl hin
  · rw [mem_insertingIds, exists_call_iff hpc] at hins
    exact Or.inr hins

theorem EngineInv.panes_cases (h : EngineInv s) (hpc : s.calls.lookup c = some pc) {p : Uuid}
    (hp : p ∈ s.panes) : (∃ w, Holds s.sessions p w) ∨ p ∈ erasingPanes pc ∨
      Elsewhere s c fun pc₂ => p ∈ erasingPanes pc₂ := by
  rcases h.panes p hp with hin | her
  · exact Or.inl hin
  · rw [mem_erasingIds, exists_call_iff hpc] at her
    exact Or.inr her

theorem EngineInv.running_cases (h : EngineInv s) (hpc : s.calls.lookup c = some pc) {p : Uuid}
    (hp : p ∈ s.running) : s.panes.lookup p = some .live ∨
      (insertingPane pc = some p ∨ spawnedPane pc = some p) ∨
      Elsewhere s c fun pc₂ => insertingPane pc₂ = some p ∨ spawnedPane pc₂ = some p := by
  have hex : s.panes.lookup p = some .live ∨ ∃ c' pc', s.calls.lookup c' = some pc' ∧
      (insertingPane pc' = some p ∨ spawnedPane pc' = some p) := by
    rcases h.running p hp with hin | hins | ⟨c', pc', hpc', hsp⟩
    · exact Or.inl hin
    · obtain ⟨c', pc', hpc', hins⟩ := mem_insertingIds.mp hins
      exact Or.inr ⟨c', pc', hpc', Or.inl hins⟩
    · exact Or.inr ⟨c', pc', hpc', Or.inr hsp⟩
  rwa [exists_call_iff hpc] at hex

theorem Unused.congr {x : Uuid} (h : Unused s x) (hsessions : s'.sessions = s.sessions)
    (hpanes : ∀ p, p ∈ s'.panes ↔ p ∈ s.panes) (hindex : x ∈ s'.paneWindow → x ∈ s.paneWindow) :
    Unused s' x where
  leaf := hsessions ▸ h.leaf
  window := hsessions ▸ h.window
  session := hsessions ▸ h.session
  pane hx := h.pane ((hpanes x).mp hx)
  index hx := h.index (hindex hx)

theorem CallInv.congr (h : CallInv s pc) (hsessions : s'.sessions = s.sessions)
    (hpanes : ∀ p, p ∈ s'.panes ↔ p ∈ s.panes)
    (hlive : ∀ p, s.panes.lookup p = some .live → s'.panes.lookup p = some .live)
    (hindex : ∀ x ∈ freshIds pc, x ∈ s'.paneWindow → x ∈ s.paneWindow)
    (hnext : s.nextId ≤ s'.nextId) : CallInv s' pc where
  fresh x hx := ⟨(h.fresh x hx).1.trans_le hnext,
    (h.fresh x hx).2.congr hsessions hpanes (hindex x hx)⟩
  distinct := h.distinct
  touched x hx := (h.touched x hx).trans_le hnext
  placed := hsessions ▸ h.placed
  inserting p hp hin := h.inserting p hp ((hpanes p).mp hin)
  erasing := hsessions ▸ h.erasing
  locked := hsessions ▸ h.locked
  registering sid p w heq := hlive p (h.registering sid p w heq)

theorem mem_touched_of_placed {p w : Uuid} (h : placedPane pc = some (p, w)) :
    p ∈ touchedPanes pc := by
  simp [touchedPanes, h]

theorem mem_touched_of_inserting {p : Uuid} (h : insertingPane pc = some p) :
    p ∈ touchedPanes pc := by
  cases pc with
  | createInsertPane q w sid =>
      cases h
      simp [touchedPanes, placedPane]
  | splitInsertPane q w sid =>
      cases h
      simp [touchedPanes, placedPane]
  | windowInsertPane sid q w =>
      cases h
      simp [touchedPanes, placedPane]
  | _ => cases h

theorem mem_touched_of_erasing {p : Uuid} (h : p ∈ erasingPanes pc) : p ∈ touchedPanes pc :=
  List.mem_append_left _ h

/-- INTERNAL: a call that goes on with no more than it had is compatible with what it was
compatible with. -/
theorem Compat.mono {pc' pc₂ : Call} (h : Compat pc pc₂)
    (hfresh : freshIds pc' ⊆ freshIds pc) (htouched : touchedPanes pc' ⊆ freshIds pc ++ touchedPanes pc)
    (hins : ∀ p, insertingPane pc' = some p → insertingPane pc = some p ∨ p ∈ freshIds pc) :
    Compat pc' pc₂ where
  fresh x hx := h.fresh x (hfresh hx)
  left x hx := h.left x (hfresh hx)
  right x hx hx' := by
    rcases List.mem_append.mp (htouched hx') with hf | ht
    · exact h.fresh x hf hx
    · exact h.right x hx ht
  inserting p hp hp' := by
    rcases hins p hp with hold | hf
    · exact h.inserting p hold hp'
    · exact h.left p hf (mem_touched_of_inserting hp')

/-- What a step changes that leaves the layouts and the keys of the panes as they are. -/
structure Framed (s s' : EngineState) (c : ℕ) (pc : Call) : Prop where
  sessions : s'.sessions = s.sessions := by rfl
  panes : ∀ p, p ∈ s'.panes ↔ p ∈ s.panes := by exact fun _ => Iff.rfl
  live : ∀ p, s.panes.lookup p = some .live → s'.panes.lookup p = some .live := by
    exact fun _ => id
  nextId : s'.nextId = s.nextId := by rfl
  poison : s'.sessionsPoisoned = s.sessionsPoisoned ∧ s'.panesPoisoned = s.panesPoisoned := by
    exact ⟨rfl, rfl⟩
  index : ∀ p w, s'.paneWindow.lookup p = some w →
    s.paneWindow.lookup p = some w ∨ placedPane pc = some (p, w) := by exact fun _ _ => Or.inl
  supervised : ∀ p ∈ s'.supervised, p ∈ s.supervised ∨ s'.panes.lookup p = some .live := by
    exact fun _ => Or.inl
  running : ∀ p ∈ s'.running, p ∈ s.running ∨ s'.panes.lookup p = some .live := by
    exact fun _ => Or.inl
  locks : ∀ c₂, c₂ ≠ c → (s.sessionsLock = some c₂ → s'.sessionsLock = some c₂) ∧
    (s.panesLock = some c₂ → s'.panesLock = some c₂) := by exact fun _ _ => ⟨id, id⟩

/-- INTERNAL: a step that leaves the layouts and the keys of the panes as they are. -/
theorem EngineInv.frame (h : EngineInv s) (hpc : s.calls.lookup c = some pc)
    (next : Option Call) (hcalls : s'.calls = setCall s.calls c next) (hf : Framed s s' c pc)
    (hnext : ∀ pc', next = some pc' → CallInv s pc' ∧
      (holdsSessionsLock pc' = true → s'.sessionsLock = some c) ∧
      (holdsPanesLock pc' = true → s'.panesLock = some c) ∧
      (∀ c₂ pc₂, c₂ ≠ c → s.calls.lookup c₂ = some pc₂ → Compat pc' pc₂) ∧
      ∀ x ∈ freshIds pc', x ∉ touchedPanes pc)
    (hins : ∀ p, insertingPane pc = some p → ∃ pc', next = some pc' ∧ insertingPane pc' = some p)
    (her : ∀ p ∈ erasingPanes pc, ∃ pc', next = some pc' ∧ p ∈ erasingPanes pc')
    (hsp : ∀ p, spawnedPane pc = some p → ∃ pc', next = some pc' ∧ spawnedPane pc' = some p) :
    EngineInv s' := by
  obtain ⟨hsessions, hpanes, hlive, hnextId, hpoison, hindex, hsup, hrun, hlocks⟩ := hf
  have hcall := h.calls c pc hpc
  have hkeep : ∀ x, x ∉ touchedPanes pc → x ∈ s'.paneWindow → x ∈ s.paneWindow := by
    intro x hx hmem
    obtain ⟨w, hw⟩ := Option.isSome_iff_exists.mp (AList.lookup_isSome.mpr hmem)
    rcases hindex x w hw with hold | hplaced
    · exact AList.lookup_isSome.mp (by rw [hold]; rfl)
    · exact absurd (mem_touched_of_placed hplaced) hx
  refine h.move next hcalls ⟨?_, ?_, ?_, ?_, ?_⟩ ?_ ?_ hlocks ?_ ?_ ?_
  · rw [hsessions]
    exact h.maps.layout
  · rw [hpoison.1, hpoison.2]
    exact h.maps.unpoisoned
  · intro x hx
    rw [hnextId] at hx
    refine (h.maps.supply x hx).congr hsessions hpanes (hkeep x ?_)
    intro ht
    exact absurd (hcall.touched x ht) (Nat.not_lt.mpr hx)
  · intro p w hp
    rw [hsessions]
    rcases hindex p w hp with hold | hplaced
    · exact h.maps.index p w hold
    · exact hcall.placed p w hplaced
  · intro p hp
    rcases hsup p hp with hold | hin
    · exact hlive p (h.maps.supervised p hold)
    · exact hin
  · intro pc' hn
    obtain ⟨hinv, hsl, hpl, hcompat, hfresh⟩ := hnext pc' hn
    exact ⟨hinv.congr hsessions hpanes hlive (fun x hx => hkeep x (hfresh x hx)) hnextId.ge, hsl,
      hpl, hcompat⟩
  · intro c₂ pc₂ hne hpc₂
    refine (h.calls c₂ pc₂ hpc₂).congr hsessions hpanes hlive (fun x hx => hkeep x ?_) hnextId.ge
    exact (h.compat c c₂ pc pc₂ hne.symm hpc hpc₂).right x hx
  · intro p w hp
    rw [hsessions] at hp
    rw [hpanes]
    rcases h.leaves_cases hpc hp with hin | hmine | helse
    · exact Or.inl hin
    · exact Or.inr (Or.inl (hins p hmine))
    · exact Or.inr (Or.inr helse)
  · intro p hp
    rw [hpanes] at hp
    rw [hsessions]
    rcases h.panes_cases hpc hp with hin | hmine | helse
    · exact Or.inl hin
    · exact Or.inr (Or.inl (her p hmine))
    · exact Or.inr (Or.inr helse)
  · intro p hp
    rcases hrun p hp with hold | hin
    · rcases h.running_cases hpc hold with hin | (hmine | hmine) | helse
      · exact Or.inl (hlive p hin)
      · obtain ⟨pc', hn, hp'⟩ := hins p hmine
        exact Or.inr (Or.inl ⟨pc', hn, Or.inl hp'⟩)
      · obtain ⟨pc', hn, hp'⟩ := hsp p hmine
        exact Or.inr (Or.inl ⟨pc', hn, Or.inr hp'⟩)
      · exact Or.inr (Or.inr helse)
    · exact Or.inl hin

/-- INTERNAL: a fresh pane of the call becomes a leaf. -/
theorem EngineInv.addLeaf (h : EngineInv s) (hpc : s.calls.lookup c = some pc) (pc' : Call)
    {sessions : Sessions} (lock : Option ℕ) {p w : Uuid}
    (hlayout : LayoutInv sessions)
    (hholds : ∀ q v, Holds sessions q v ↔ Holds s.sessions q v ∨ q = p ∧ v = w)
    (hwindows : ∀ x sid, WindowIn sessions x sid → WindowIn s.sessions x sid ∨ x ∈ freshIds pc)
    (hlookup : ∀ x, s.sessions.lookup x = none → sessions.lookup x = none ∨ x ∈ freshIds pc)
    (hp : p ∈ freshIds pc) (hspawned : ∀ q, spawnedPane pc = some q → q = p)
    (hfresh : freshIds pc' = []) (hplaced : placedPane pc' = some (p, w))
    (hins : insertingPane pc' = some p) (her : erasingPanes pc' = [])
    (hold : insertingPane pc = none ∧ erasingPanes pc = [])
    (hreg : ∀ sid q v, pc' ≠ .windowRegister sid q v)
    (hlocked : ∀ q, lockedPane pc' = some q → q = p)
    (hfree : s.sessionsLock = none) (hlock : holdsSessionsLock pc' = true → lock = some c)
    (hpl : holdsPanesLock pc' = false) :
    EngineInv { s with sessions, sessionsLock := lock, calls := s.calls.insert c pc' } := by
  have hcall := h.calls c pc hpc
  have hpfresh := hcall.fresh p hp
  have hother : ∀ {x}, x ∉ freshIds pc → Unused s x →
      Unused { s with sessions, sessionsLock := lock, calls := s.calls.insert c pc' } x := by
    intro x hx hu
    refine ⟨?_, ?_, ?_, hu.pane, hu.index⟩
    · intro v hv
      rcases (hholds x v).mp hv with hv | ⟨heq, -⟩
      · exact hu.leaf v hv
      · exact hx (heq ▸ hp)
    · intro sid hv
      rcases hwindows x sid hv with hv | hf
      · exact hu.window sid hv
      · exact hx hf
    · rcases hlookup x hu.session with hn | hf
      · exact hn
      · exact absurd hf hx
  have htouched : touchedPanes pc' = [p] := by simp [touchedPanes, her, hplaced]
  refine h.move (some pc') rfl ⟨hlayout, h.maps.unpoisoned, ?_, ?_, h.maps.supervised⟩
    ?_ ?_ ?_ ?_ ?_ ?_
  · intro x hx
    refine hother ?_ (h.maps.supply x hx)
    intro hf
    exact absurd (hcall.fresh x hf).1 (Nat.not_lt.mpr hx)
  · intro q v hq u hu
    rcases (hholds q u).mp hu with hu | ⟨heq, -⟩
    · exact h.maps.index q v hq u hu
    · -- the index does not know the fresh pane
      rw [heq] at hq
      exact absurd (AList.lookup_isSome.mp (by rw [hq]; rfl)) hpfresh.2.index
  · intro pc₁ hpc₁
    cases hpc₁
    refine ⟨⟨?_, ?_, ?_, ?_, ?_, ?_, ?_, ?_⟩, hlock, ?_, ?_⟩
    · simp [hfresh]
    · simp [hfresh]
    · intro x hx
      rw [htouched] at hx
      rw [List.mem_singleton.mp hx]
      exact hpfresh.1
    · intro q v hq u hu
      rw [hplaced, Option.some_inj, Prod.mk.injEq] at hq
      rcases (hholds q u).mp hu with hu | ⟨-, hu⟩
      · rw [← hq.1] at hu
        exact absurd hu (hpfresh.2.leaf u)
      · rw [hu, hq.2]
    · intro q hq
      rw [hins, Option.some_inj] at hq
      exact hq ▸ hpfresh.2.pane
    · simp [her]
    · intro q hq
      exact ⟨w, (hholds q w).mpr (Or.inr ⟨hlocked q hq, rfl⟩)⟩
    · intro sid q v heq
      exact absurd heq (hreg sid q v)
    · intro hpl'
      rw [hpl] at hpl'
      cases hpl'
    · intro c₂ pc₂ hne hpc₂
      apply (h.compat c c₂ pc pc₂ hne.symm hpc hpc₂).mono
      · simp [hfresh]
      · rw [htouched]
        intro x hx
        rw [List.mem_singleton.mp hx]
        exact List.mem_append_left _ hp
      · intro q hq
        rw [hins, Option.some_inj] at hq
        exact Or.inr (hq ▸ hp)
  · intro c₂ pc₂ hne hpc₂
    have hinv := h.calls c₂ pc₂ hpc₂
    have hcompat := h.compat c c₂ pc pc₂ hne.symm hpc hpc₂
    refine ⟨?_, hinv.distinct, hinv.touched, ?_, hinv.inserting, ?_, ?_, hinv.registering⟩
    · intro x hx
      exact ⟨(hinv.fresh x hx).1, hother (fun hf => hcompat.fresh x hf hx) (hinv.fresh x hx).2⟩
    · intro q v hq u hu
      rcases (hholds q u).mp hu with hu | ⟨heq, -⟩
      · exact hinv.placed q v hq u hu
      · exact absurd (mem_touched_of_placed hq) (heq ▸ hcompat.left p hp)
    · intro q hq u hu
      rcases (hholds q u).mp hu with hu | ⟨heq, -⟩
      · exact hinv.erasing q hq u hu
      · exact absurd (mem_touched_of_erasing hq) (heq ▸ hcompat.left p hp)
    · intro q hq
      obtain ⟨v, hv⟩ := hinv.locked q hq
      exact ⟨v, (hholds q v).mpr (Or.inl hv)⟩
  · intro c₂ hne
    refine ⟨fun hl => ?_, fun hl => hl⟩
    rw [hfree] at hl
    cases hl
  · intro q v hq
    rcases (hholds q v).mp hq with hq | ⟨heq, -⟩
    · rcases h.leaves_cases hpc hq with hin | hmine | helse
      · exact Or.inl hin
      · rw [hold.1] at hmine
        cases hmine
      · exact Or.inr (Or.inr helse)
    · exact Or.inr (Or.inl ⟨pc', rfl, heq ▸ hins⟩)
  · intro q hq
    rcases h.panes_cases hpc hq with ⟨v, hv⟩ | hmine | helse
    · exact Or.inl ⟨v, (hholds q v).mpr (Or.inl hv)⟩
    · rw [hold.2] at hmine
      cases hmine
    · exact Or.inr (Or.inr helse)
  · intro q hq
    rcases h.running_cases hpc hq with hin | (hmine | hmine) | helse
    · exact Or.inl hin
    · rw [hold.1] at hmine
      cases hmine
    · exact Or.inr (Or.inl ⟨pc', rfl, Or.inl (hspawned q hmine ▸ hins)⟩)
    · exact Or.inr (Or.inr helse)

/-- INTERNAL: the call inserts its pane into the panes. -/
theorem EngineInv.insertPane (h : EngineInv s) (hpc : s.calls.lookup c = some pc) (pc' : Call)
    {p w : Uuid} (hins : insertingPane pc = some p) (hplaced : placedPane pc = some (p, w))
    (hplaced' : placedPane pc' = some (p, w))
    (hold : freshIds pc = [] ∧ erasingPanes pc = [] ∧ spawnedPane pc = none)
    (hnew : freshIds pc' = [] ∧ erasingPanes pc' = [] ∧ insertingPane pc' = none)
    (hlocked : lockedPane pc' = lockedPane pc)
    (hreg : ∀ sid q v, pc' = .windowRegister sid q v → q = p)
    (hsl : holdsSessionsLock pc' = holdsSessionsLock pc) (hpl : holdsPanesLock pc' = false)
    (hok : p ∈ s.leafIds ∨ p ∈ erasingIds s) :
    EngineInv { s with panes := s.panes.insert p .live, calls := s.calls.insert c pc' } := by
  have hcall := h.calls c pc hpc
  have htouch : p ∈ touchedPanes pc := mem_touched_of_placed hplaced
  have hmem : ∀ q, q ∈ s.panes.insert p .live ↔ q = p ∨ q ∈ s.panes := fun q => AList.mem_insert _
  have hother : ∀ {x}, x ≠ p → Unused s x →
      Unused { s with panes := s.panes.insert p .live, calls := s.calls.insert c pc' } x := by
    intro x hx hu
    refine ⟨hu.leaf, hu.window, hu.session, ?_, hu.index⟩
    intro hin
    rcases (hmem x).mp hin with heq | hin
    · exact hx heq
    · exact hu.pane hin
  have htouched : touchedPanes pc' = [p] := by simp [touchedPanes, hnew.2.1, hplaced']
  have hlive : ∀ q, s.panes.lookup q = some .live ∨ q = p →
      (s.panes.insert p .live).lookup q = some .live := by
    intro q hq
    by_cases heq : q = p
    · rw [heq]
      exact AList.lookup_insert _
    · rw [AList.lookup_insert_ne heq]
      exact hq.resolve_right heq
  refine h.move (some pc') rfl
    ⟨h.maps.layout, h.maps.unpoisoned, ?_, h.maps.index, ?_⟩ ?_ ?_ (fun _ _ => ⟨id, id⟩) ?_ ?_ ?_
  · intro x hx
    refine hother ?_ (h.maps.supply x hx)
    rintro rfl
    exact absurd (hcall.touched x htouch) (Nat.not_lt.mpr hx)
  · intro q hq
    exact hlive q (Or.inl (h.maps.supervised q hq))
  · intro pc₁ hpc₁
    cases hpc₁
    refine ⟨⟨?_, ?_, ?_, ?_, ?_, ?_, ?_, ?_⟩, ?_, ?_, ?_⟩
    · simp [hnew.1]
    · simp [hnew.1]
    · intro x hx
      rw [htouched] at hx
      rw [List.mem_singleton.mp hx]
      exact hcall.touched p htouch
    · intro q v hq
      rw [hplaced', ← hplaced] at hq
      exact hcall.placed q v hq
    · intro q hq
      rw [hnew.2.2] at hq
      cases hq
    · simp [hnew.2.1]
    · intro q hq
      rw [hlocked] at hq
      exact hcall.locked q hq
    · intro sid q v heq
      exact hlive q (Or.inr (hreg sid q v heq))
    · intro hl
      exact h.sessionsLock c pc hpc (hsl ▸ hl)
    · intro hl
      rw [hpl] at hl
      cases hl
    · intro c₂ pc₂ hne hpc₂
      apply (h.compat c c₂ pc pc₂ hne.symm hpc hpc₂).mono
      · simp [hnew.1]
      · rw [htouched]
        intro x hx
        rw [List.mem_singleton.mp hx]
        exact List.mem_append_right _ htouch
      · intro q hq
        rw [hnew.2.2] at hq
        cases hq
  · intro c₂ pc₂ hne hpc₂
    have hinv := h.calls c₂ pc₂ hpc₂
    have hcompat := h.compat c c₂ pc pc₂ hne.symm hpc hpc₂
    refine ⟨?_, hinv.distinct, hinv.touched, hinv.placed, ?_, hinv.erasing, hinv.locked, ?_⟩
    · intro x hx
      refine ⟨(hinv.fresh x hx).1, hother ?_ (hinv.fresh x hx).2⟩
      rintro rfl
      exact hcompat.right x hx htouch
    · intro q hq hin
      rcases (hmem q).mp hin with heq | hin
      · exact hcompat.inserting p hins (heq ▸ hq)
      · exact hinv.inserting q hq hin
    · intro sid q v heq
      exact hlive q (Or.inl (hinv.registering sid q v heq))
  · intro q v hq
    rcases h.leaves_cases hpc hq with hin | hmine | helse
    · exact Or.inl ((hmem q).mpr (Or.inr hin))
    · rw [hins, Option.some_inj] at hmine
      exact Or.inl ((hmem q).mpr (Or.inl hmine.symm))
    · exact Or.inr (Or.inr helse)
  · intro q hq
    rcases (hmem q).mp hq with heq | hin
    · rw [heq]
      rcases hok with hleaf | her
      · exact Or.inl (mem_leafIds.mp hleaf)
      · rw [mem_erasingIds, exists_call_iff hpc, hold.2.1] at her
        rcases her with her | helse
        · cases her
        · exact Or.inr (Or.inr helse)
    · rcases h.panes_cases hpc hin with hin | hmine | helse
      · exact Or.inl hin
      · rw [hold.2.1] at hmine
        cases hmine
      · exact Or.inr (Or.inr helse)
  · intro q hq
    rcases h.running_cases hpc hq with hin | (hmine | hmine) | helse
    · exact Or.inl (hlive q (Or.inl hin))
    · rw [hins, Option.some_inj] at hmine
      exact Or.inl (hlive q (Or.inr hmine.symm))
    · rw [hold.2.2] at hmine
      cases hmine
    · exact Or.inr (Or.inr helse)

/-- INTERNAL: the call takes panes out of the layouts. -/
theorem EngineInv.removeLeaves (h : EngineInv s) (hpc : s.calls.lookup c = some pc) (pc' : Call)
    {sessions : Sessions} (lock : Option ℕ) (hlayout : LayoutInv sessions)
    (hholds : ∀ q v, Holds sessions q v ↔ Holds s.sessions q v ∧ q ∉ erasingPanes pc')
    (hwindows : ∀ x sid, WindowIn sessions x sid → WindowIn s.sessions x sid)
    (hlookup : ∀ x, s.sessions.lookup x = none → sessions.lookup x = none)
    (hknown : ∀ x ∈ erasingPanes pc', (∃ v, Holds s.sessions x v) ∨ x ∈ touchedPanes pc)
    (hold : insertingPane pc = none ∧ erasingPanes pc = [] ∧ spawnedPane pc = none)
    (hnew : freshIds pc' = [] ∧ placedPane pc' = none ∧ insertingPane pc' = none ∧
      lockedPane pc' = none)
    (hfree : s.sessionsLock = none) (hlock : holdsSessionsLock pc' = true → lock = some c)
    (hpl : holdsPanesLock pc' = false) :
    EngineInv { s with sessions, sessionsLock := lock, calls := s.calls.insert c pc' } := by
  have hcall := h.calls c pc hpc
  have hkeep : ∀ {x}, Unused s x →
      Unused { s with sessions, sessionsLock := lock, calls := s.calls.insert c pc' } x := by
    intro x hu
    exact ⟨fun v hv => hu.leaf v ((hholds x v).mp hv).1, fun sid hv => hu.window sid (hwindows x sid hv),
      hlookup x hu.session, hu.pane, hu.index⟩
  have htouched : touchedPanes pc' = erasingPanes pc' := by simp [touchedPanes, hnew.2.1]
  refine h.move (some pc') rfl ⟨hlayout, h.maps.unpoisoned, ?_, ?_, h.maps.supervised⟩
    ?_ ?_ ?_ ?_ ?_ ?_
  · exact fun x hx => hkeep (h.maps.supply x hx)
  · exact fun q v hq u hu => h.maps.index q v hq u ((hholds q u).mp hu).1
  · intro pc₁ hpc₁
    cases hpc₁
    refine ⟨⟨?_, ?_, ?_, ?_, ?_, ?_, ?_, ?_⟩, hlock, ?_, ?_⟩
    · simp [hnew.1]
    · simp [hnew.1]
    · intro x hx
      rw [htouched] at hx
      rcases hknown x hx with ⟨v, hv⟩ | ht
      · by_contra hge
        exact (h.maps.supply x (Nat.not_lt.mp hge)).leaf v hv
      · exact hcall.touched x ht
    · intro q v hq
      rw [hnew.2.1] at hq
      cases hq
    · intro q hq
      rw [hnew.2.2.1] at hq
      cases hq
    · intro q hq v hv
      exact ((hholds q v).mp hv).2 hq
    · intro q hq
      rw [hnew.2.2.2] at hq
      cases hq
    · intro sid q v heq
      rw [heq] at hnew
      cases hnew.2.2.2
    · intro hpl'
      rw [hpl] at hpl'
      cases hpl'
    · intro c₂ pc₂ hne hpc₂
      refine ⟨?_, ?_, ?_, ?_⟩
      · simp [hnew.1]
      · simp [hnew.1]
      · intro x hx hx'
        rw [htouched] at hx'
        rcases hknown x hx' with ⟨v, hv⟩ | ht
        · exact ((h.calls c₂ pc₂ hpc₂).fresh x hx).2.leaf v hv
        · exact (h.compat c c₂ pc pc₂ hne.symm hpc hpc₂).right x hx ht
      · intro q hq
        rw [hnew.2.2.1] at hq
        cases hq
  · intro c₂ pc₂ hne hpc₂
    have hinv := h.calls c₂ pc₂ hpc₂
    refine ⟨fun x hx => ⟨(hinv.fresh x hx).1, hkeep (hinv.fresh x hx).2⟩, hinv.distinct,
      hinv.touched, ?_, hinv.inserting, ?_, ?_, hinv.registering⟩
    · exact fun q v hq u hu => hinv.placed q v hq u ((hholds q u).mp hu).1
    · exact fun q hq u hu => hinv.erasing q hq u ((hholds q u).mp hu).1
    · -- a call that protects its new leaf holds the lock
      intro q hq
      have hheld : holdsSessionsLock pc₂ = true := by
        cases pc₂ with
        | windowInsertPane => rfl
        | windowRegister => rfl
        | _ => cases hq
      have hlock₂ := h.sessionsLock c₂ pc₂ hpc₂ hheld
      rw [hfree] at hlock₂
      cases hlock₂
  · intro c₂ hne
    refine ⟨fun hl => ?_, fun hl => hl⟩
    rw [hfree] at hl
    cases hl
  · intro q v hq
    rcases h.leaves_cases hpc ((hholds q v).mp hq).1 with hin | hmine | helse
    · exact Or.inl hin
    · rw [hold.1] at hmine
      cases hmine
    · exact Or.inr (Or.inr helse)
  · intro q hq
    rcases h.panes_cases hpc hq with ⟨v, hv⟩ | hmine | helse
    · by_cases her : q ∈ erasingPanes pc'
      · exact Or.inr (Or.inl ⟨pc', rfl, her⟩)
      · exact Or.inl ⟨v, (hholds q v).mpr ⟨hv, her⟩⟩
    · rw [hold.2.1] at hmine
      cases hmine
    · exact Or.inr (Or.inr helse)
  · intro q hq
    rcases h.running_cases hpc hq with hin | (hmine | hmine) | helse
    · exact Or.inl hin
    · rw [hold.1] at hmine
      cases hmine
    · rw [hold.2.2] at hmine
      cases hmine
    · exact Or.inr (Or.inr helse)

/-- INTERNAL: the call erases one of its panes. -/
theorem EngineInv.erasePane (h : EngineInv s) (hpc : s.calls.lookup c = some pc)
    (next : Option Call) {p : Uuid} {rest : List Uuid} (her : erasingPanes pc = p :: rest)
    (hold : freshIds pc = [] ∧ placedPane pc = none ∧ insertingPane pc = none ∧
      spawnedPane pc = none)
    (hnext : ∀ pc', next = some pc' → erasingPanes pc' = rest ∧ freshIds pc' = [] ∧
      placedPane pc' = none ∧ insertingPane pc' = none ∧ lockedPane pc' = none ∧
      holdsSessionsLock pc' = false ∧ (holdsPanesLock pc' = true → holdsPanesLock pc = true))
    (hrest : next = none → rest = []) :
    EngineInv { s.erasePane p with calls := setCall s.calls c next } := by
  have hcall := h.calls c pc hpc
  have hmem : ∀ q, q ∈ s.panes.erase p ↔ q ≠ p ∧ q ∈ s.panes := fun q => AList.mem_erase
  have hlive : ∀ q, q ≠ p → s.panes.lookup q = some .live →
      (s.panes.erase p).lookup q = some .live := by
    intro q hq hl
    rw [AList.lookup_erase_ne hq, hl]
  have hgone : ∀ v, ¬ Holds s.sessions p v := hcall.erasing p (by simp [her])
  have hkeep : ∀ {x}, Unused s x →
      Unused { s.erasePane p with calls := setCall s.calls c next } x := by
    intro x hu
    exact ⟨hu.leaf, hu.window, hu.session, fun hin => hu.pane ((hmem x).mp hin).2, hu.index⟩
  have hrun : ∀ q ∈ (s.erasePane p).running, q ∈ s.running ∧
      (s.panes.lookup p = some .live → q ≠ p) := by
    intro q hq
    simp only [EngineState.erasePane] at hq
    split_ifs at hq with hl
    · rw [Finset.mem_erase] at hq
      exact ⟨hq.2, fun _ => hq.1⟩
    · exact ⟨hq, fun hl' => absurd hl' hl⟩
  refine h.move next rfl ⟨h.maps.layout, h.maps.unpoisoned, ?_, h.maps.index, ?_⟩
    ?_ ?_ (fun _ _ => ⟨id, id⟩) ?_ ?_ ?_
  · exact fun x hx => hkeep (h.maps.supply x hx)
  · intro q hq
    have hq' : q ≠ p ∧ q ∈ s.supervised := Finset.mem_erase.mp hq
    exact hlive q hq'.1 (h.maps.supervised q hq'.2)
  · intro pc' hn
    obtain ⟨her', hfresh, hplaced, hins, hlocked, hsl, hpl⟩ := hnext pc' hn
    have htouched : touchedPanes pc' = rest := by simp [touchedPanes, her', hplaced]
    have hsub : rest ⊆ touchedPanes pc := by
      intro x hx
      apply mem_touched_of_erasing
      rw [her]
      exact List.mem_cons_of_mem _ hx
    refine ⟨⟨?_, ?_, ?_, ?_, ?_, ?_, ?_, ?_⟩, ?_, ?_, ?_⟩
    · simp [hfresh]
    · simp [hfresh]
    · intro x hx
      rw [htouched] at hx
      exact hcall.touched x (hsub hx)
    · intro q v hq
      rw [hplaced] at hq
      cases hq
    · intro q hq
      rw [hins] at hq
      cases hq
    · intro q hq
      apply hcall.erasing q
      rw [her] at *
      rw [her'] at hq
      exact List.mem_cons_of_mem _ hq
    · intro q hq
      rw [hlocked] at hq
      cases hq
    · intro sid q v heq
      rw [heq] at hlocked
      cases hlocked
    · intro hl
      rw [hsl] at hl
      cases hl
    · intro hl
      exact h.panesLock c pc hpc (hpl hl)
    · intro c₂ pc₂ hne hpc₂
      apply (h.compat c c₂ pc pc₂ hne.symm hpc hpc₂).mono
      · simp [hfresh]
      · rw [htouched]
        exact fun x hx => List.mem_append_right _ (hsub hx)
      · intro q hq
        rw [hins] at hq
        cases hq
  · intro c₂ pc₂ hne hpc₂
    have hinv := h.calls c₂ pc₂ hpc₂
    refine ⟨fun x hx => ⟨(hinv.fresh x hx).1, hkeep (hinv.fresh x hx).2⟩, hinv.distinct,
      hinv.touched, hinv.placed, ?_, hinv.erasing, hinv.locked, ?_⟩
    · exact fun q hq hin => hinv.inserting q hq ((hmem q).mp hin).2
    · intro sid q v heq
      refine hlive q ?_ (hinv.registering sid q v heq)
      rintro rfl
      obtain ⟨u, hu⟩ := hinv.locked q (by rw [heq]; rfl)
      exact hgone u hu
  · intro q v hq
    have hne : q ≠ p := fun heq => hgone v (heq ▸ hq)
    rcases h.leaves_cases hpc hq with hin | hmine | helse
    · exact Or.inl ((hmem q).mpr ⟨hne, hin⟩)
    · rw [hold.2.2.1] at hmine
      cases hmine
    · exact Or.inr (Or.inr helse)
  · intro q hq
    obtain ⟨hne, hin⟩ := (hmem q).mp hq
    rcases h.panes_cases hpc hin with hleaf | hmine | helse
    · exact Or.inl hleaf
    · rw [her] at hmine
      have hmine' : q ∈ rest := (List.mem_cons.mp hmine).resolve_left hne
      cases hn : next with
      | none =>
          rw [hrest hn] at hmine'
          cases hmine'
      | some pc' => exact Or.inr (Or.inl ⟨pc', rfl, by rw [(hnext pc' hn).1]; exact hmine'⟩)
    · exact Or.inr (Or.inr helse)
  · intro q hq
    obtain ⟨hold', hkill⟩ := hrun q hq
    rcases h.running_cases hpc hold' with hin | (hmine | hmine) | helse
    · refine Or.inl (hlive q ?_ hin)
      intro heq
      exact hkill (heq ▸ hin) heq
    · rw [hold.2.2.1] at hmine
      cases hmine
    · rw [hold.2.2.2] at hmine
      cases hmine
    · exact Or.inr (Or.inr helse)

/-! ## Calls that go on -/

/-- The call goes on with what it had, and forgets at most where a pane is. -/
structure Continues (pc pc' : Call) : Prop where
  fresh : freshIds pc' = freshIds pc := by rfl
  placed : placedPane pc' = placedPane pc ∨ placedPane pc' = none := by first | exact Or.inl rfl | exact Or.inr rfl
  inserting : insertingPane pc' = insertingPane pc := by rfl
  erasing : erasingPanes pc' = erasingPanes pc := by rfl
  spawned : spawnedPane pc' = spawnedPane pc := by rfl
  locked : lockedPane pc' = none := by rfl

theorem Continues.touched {pc' : Call} (h : Continues pc pc') :
    touchedPanes pc' ⊆ touchedPanes pc := by
  intro x hx
  unfold touchedPanes at hx ⊢
  rw [h.erasing] at hx
  rcases h.placed with hp | hp
  · rwa [hp] at hx
  · simp only [hp, Option.toList_none, List.map_nil, List.append_nil] at hx
    exact List.mem_append_left _ hx

theorem CallInv.continues {pc' : Call} (h : CallInv s pc) (hc : Continues pc pc') :
    CallInv s pc' where
  fresh := hc.fresh ▸ h.fresh
  distinct := hc.fresh ▸ h.distinct
  touched x hx := h.touched x (hc.touched hx)
  placed p w hp := by
    rcases hc.placed with heq | hnone
    · exact h.placed p w (heq ▸ hp)
    · rw [hnone] at hp
      cases hp
  inserting := hc.inserting ▸ h.inserting
  erasing := hc.erasing ▸ h.erasing
  locked p hp := by
    rw [hc.locked] at hp
    cases hp
  registering sid p w heq := by
    have hlocked := hc.locked
    rw [heq] at hlocked
    cases hlocked

/-- INTERNAL: the call goes on with what it had. -/
theorem EngineInv.proceed (h : EngineInv s) (hpc : s.calls.lookup c = some pc) {pc' : Call}
    (hc : Continues pc pc') (hcalls : s'.calls = s.calls.insert c pc') (hf : Framed s s' c pc)
    (hdisjoint : ∀ x ∈ freshIds pc, x ∉ touchedPanes pc)
    (hsl : holdsSessionsLock pc' = true → s'.sessionsLock = some c)
    (hpl : holdsPanesLock pc' = true → s'.panesLock = some c) : EngineInv s' := by
  apply h.frame hpc (some pc') hcalls hf
  · intro pc₁ hpc₁
    cases hpc₁
    refine ⟨(h.calls c pc hpc).continues hc, hsl, hpl, ?_, hc.fresh ▸ hdisjoint⟩
    intro c₂ pc₂ hne hpc₂
    apply (h.compat c c₂ pc pc₂ hne.symm hpc hpc₂).mono
    · exact fun x hx => hc.fresh ▸ hx
    · exact fun x hx => List.mem_append_right _ (hc.touched hx)
    · exact fun p hp => Or.inl (hc.inserting ▸ hp)
  · exact fun p hp => ⟨pc', rfl, hc.inserting ▸ hp⟩
  · exact fun p hp => ⟨pc', rfl, hc.erasing ▸ hp⟩
  · exact fun p hp => ⟨pc', rfl, hc.spawned ▸ hp⟩

/-- INTERNAL: the call returns with nothing left to do. -/
theorem EngineInv.finishes (h : EngineInv s) (hpc : s.calls.lookup c = some pc)
    (hcalls : s'.calls = s.calls.erase c) (hf : Framed s s' c pc)
    (hdone : insertingPane pc = none ∧ erasingPanes pc = [] ∧ spawnedPane pc = none) :
    EngineInv s' := by
  obtain ⟨hins, her, hsp⟩ := hdone
  apply h.frame hpc none hcalls hf
  · intro pc' hpc'
    cases hpc'
  · intro p hp
    rw [hins] at hp
    cases hp
  · intro p hp
    rw [her] at hp
    cases hp
  · intro p hp
    rw [hsp] at hp
    cases hp

end Moves

end Tymux.Analysis
