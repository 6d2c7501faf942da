import Tymux.Model.ReplayBudget
import Tymux.Lib.Total

/-!
# The global replay budget

The counter is what the live panes were granted, so the cap can only be broken by an addition: the
grant was computed from the value loaded before, and others may have been added since. A pane that
was granted nothing keeps the newest chunk nevertheless, as `push` never evicts it.
-/

set_option autoImplicit false

namespace Tymux.Analysis

open Tymux.Model Tymux.Lib

section Sums

variable {β : Type} (f : β → ℕ) (m : AList fun _ : ℕ => β)

/-- The sum over the values of a map. -/
def valueSum : ℕ := (m.entries.map fun e => f e.2).sum

variable {f m}

theorem valueSum_insert {a : ℕ} (b : β) (h : a ∉ m) : valueSum f (m.insert a b) = f b + valueSum f m := by
  unfold valueSum
  rw [AList.entries_insert_of_notMem h, List.map_cons, List.sum_cons]

theorem sum_kerase {a : ℕ} {b : β} {l : List (Sigma fun _ : ℕ => β)} (h : l.dlookup a = some b) :
    (l.map fun e => f e.2).sum = f b + ((l.kerase a).map fun e => f e.2).sum := by
  induction l with
  | nil => cases h
  | cons e l ih =>
      obtain ⟨a', b'⟩ := e
      by_cases heq : a = a'
      · subst heq
        rw [List.dlookup_cons_eq, Option.some_inj] at h
        subst h
        have hkerase : List.kerase a (⟨a, b'⟩ :: l) = l := List.kerase_cons_eq rfl
        rw [hkerase, List.map_cons, List.sum_cons]
      · rw [List.dlookup_cons_ne _ _ heq] at h
        rw [List.kerase_cons_ne heq, List.map_cons, List.map_cons, List.sum_cons, List.sum_cons, ih h]
        omega

theorem valueSum_erase {a : ℕ} {b : β} (h : m.lookup a = some b) :
    valueSum f m = f b + valueSum f (m.erase a) := sum_kerase h

theorem valueSum_replace {a : ℕ} {b b' : β} (h : m.lookup a = some b) (hf : f b' = f b) :
    valueSum f (m.insert a b') = valueSum f m := by
  have hinsert : valueSum f (m.insert a b') = f b' + valueSum f (m.erase a) := by
    unfold valueSum
    rw [AList.entries_insert, List.map_cons, List.sum_cons]
    rfl
  rw [hinsert, valueSum_erase h, hf]

end Sums

namespace Budget

theorem granted_eq (s : BudgetState) :
    s.granted = valueSum (fun log : PaneLog => log.replay.budgetBytes) s.panes := rfl

theorem pushAll_budgetBytes (r : ReplayBuffer) (entries : List (ℕ × List UInt8)) :
    (r.pushAll entries).budgetBytes = r.budgetBytes := by
  induction entries generalizing r with
  | nil => rfl
  | cons e entries ih => exact ih (r.push e.1 e.2)

theorem build_budgetBytes (grant : ℕ) (seed : Option LogSeed) :
    (PaneLog.build grant seed).replay.budgetBytes = grant := by
  cases seed with
  | none => rfl
  | some seed => exact pushAll_budgetBytes _ _

theorem granted_push {s : BudgetState} {pane : ℕ} {log : PaneLog}
    (h : s.panes.lookup pane = some log) (seq outputSeq : ℕ) (data : List UInt8) :
    BudgetState.granted
      { s with panes := s.panes.insert pane ⟨log.replay.push seq data, outputSeq⟩ } = s.granted := by
  rw [granted_eq, granted_eq]
  apply valueSum_replace h
  rfl

/-- The chunks a pane is built with. -/
def seeded (seed : Option LogSeed) : List (ℕ × List UInt8) := (seed.map LogSeed.replay).getD []

theorem build_entries_nil_iff (grant : ℕ) (seed : Option LogSeed) :
    (PaneLog.build grant seed).replay.entries = [] ↔ seeded seed = [] := by
  cases seed with
  | none => simp [PaneLog.build, ReplayBuffer.new, seeded]
  | some seed =>
      obtain ⟨hsuf, hne⟩ := (ReplayBuffer.new grant).pushAll_suffix seed.replay
      simp only [seeded, Option.map_some, Option.getD_some]
      constructor
      · intro hnil
        by_contra hseed
        apply hne _ hnil
        simpa [ReplayBuffer.new] using hseed
      · intro hseed
        rw [hseed] at hsuf
        simpa [ReplayBuffer.new, PaneLog.build, hseed] using hsuf

/-- A pane without a grant retains nothing, and no resume below its latest output is in the window. -/
def ZeroGrant (log : PaneLog) : Prop :=
  log.replay.budgetBytes = 0 →
    log.replay.entries = [] ∧ ∀ resumeFromSeq < log.outputSeq,
      ∃ oldest, log.replay.replaySince resumeFromSeq log.outputSeq = .gapExceeded oldest

theorem replaySince_nil {r : ReplayBuffer} (h : r.entries = []) {resumeFromSeq latestSeq : ℕ}
    (hlt : resumeFromSeq < latestSeq) : r.replaySince resumeFromSeq latestSeq = .gapExceeded none := by
  have holdest : r.oldestSeq = none := by simp [ReplayBuffer.oldestSeq, h]
  unfold ReplayBuffer.replaySince
  rw [if_neg (by omega), holdest]
  exact if_neg (by simpa using hlt)

theorem zeroGrant_iff (log : PaneLog) :
    ZeroGrant log ↔ (log.replay.budgetBytes = 0 → log.replay.entries = []) := by
  refine forall_congr' fun _ => ⟨And.left, fun h => ⟨h, fun resumeFromSeq hlt => ?_⟩⟩
  exact ⟨none, replaySince_nil h hlt⟩

/-- The cap is kept, and no pane without a grant retains anything. -/
def HardCap (s : BudgetState) : Prop :=
  s.granted ≤ globalReplayBufferBudgetBytes ∧
    ∀ pane log, s.panes.lookup pane = some log → ZeroGrant log

/-- A grant is added while nobody else's was since the counter was loaded, or while there is room
for a whole one, and neither a seed nor output reaches a pane that gets nothing. -/
def Roomy (s : BudgetState) : BudgetEvent → Prop
  | .load _ | .release _ => True
  | .fetchAdd call _ seed => ∀ used, s.allocating.lookup call = some used →
      (s.used ≤ used ∨ s.used + defaultReplayBufferBytes ≤ globalReplayBufferBudgetBytes) ∧
        (globalReplayBufferBudgetBytes ≤ used → seeded seed = [])
  | .push pane _ => ∀ log, s.panes.lookup pane = some log → log.replay.budgetBytes ≠ 0

/-- What holds as long as the cap does. -/
structure Accounted (s : BudgetState) : Prop where
  used : s.used = s.granted
  loaded : ∀ call used, s.allocating.lookup call = some used → used ≤ globalReplayBufferBudgetBytes
  cap : HardCap s

theorem accounted_init : Accounted .init where
  used := rfl
  loaded := fun call used h => by cases h
  cap := ⟨Nat.zero_le _, fun pane log h => by cases h⟩

/-! ## The events -/

theorem step_cases {s s' : BudgetState} {e : BudgetEvent} (h : s.step e = some s') :
    (∃ call, e = .load call ∧
      s' = { s with allocating := s.allocating.insert call s.used }) ∨
    (∃ call pane seed used, e = .fetchAdd call pane seed ∧ s.allocating.lookup call = some used ∧
      pane ∉ s.panes ∧
      s' = { used := s.used + replayGrant used, allocating := s.allocating.erase call,
             panes := s.panes.insert pane (.build (replayGrant used) seed) }) ∨
    (∃ pane log, e = .release pane ∧ s.panes.lookup pane = some log ∧
      s' = { s with used := s.used - log.replay.budgetBytes, panes := s.panes.erase pane }) ∨
    (∃ pane data log, e = .push pane data ∧ s.panes.lookup pane = some log ∧
      s' = { s with
        panes := s.panes.insert pane
          ⟨log.replay.push (log.outputSeq + 1) data, log.outputSeq + 1⟩ }) := by
  cases e with
  | load call =>
      simp only [BudgetState.step] at h
      split at h
      · cases h
      · cases h
        exact Or.inl ⟨call, rfl, rfl⟩
  | fetchAdd call pane seed =>
      simp only [BudgetState.step, Option.bind_eq_some_iff] at h
      obtain ⟨used, hused, h⟩ := h
      split at h
      · cases h
      · rename_i hpane
        cases h
        exact Or.inr (Or.inl ⟨call, pane, seed, used, rfl, hused, hpane, rfl⟩)
  | release pane =>
      simp only [BudgetState.step, Option.map_eq_some_iff] at h
      obtain ⟨log, hlog, rfl⟩ := h
      exact Or.inr (Or.inr (Or.inl ⟨pane, log, rfl, hlog, rfl⟩))
  | push pane data =>
      simp only [BudgetState.step, Option.map_eq_some_iff] at h
      obtain ⟨log, hlog, rfl⟩ := h
      exact Or.inr (Or.inr (Or.inr ⟨pane, data, log, rfl, hlog, rfl⟩))

/-- INTERNAL: an addition stays below the cap exactly if nobody else's came in between, or if there
is room for a whole grant.
SRC: replay_buffer.rs:49-55 -/
theorem replayGrant_fits_iff {s used : ℕ} (hused : used ≤ globalReplayBufferBudgetBytes) :
    s + replayGrant used ≤ globalReplayBufferBudgetBytes ↔
      (s ≤ used ∨ s + defaultReplayBufferBytes ≤ globalReplayBufferBudgetBytes) := by
  unfold replayGrant
  omega

theorem replayGrant_eq_zero_iff (used : ℕ) :
    replayGrant used = 0 ↔ globalReplayBufferBudgetBytes ≤ used := by
  unfold replayGrant defaultReplayBufferBytes
  omega

theorem forall_insert {panes : AList fun _ : ℕ => PaneLog} {pane : ℕ} {log : PaneLog}
    (h : ∀ p l, p ≠ pane → panes.lookup p = some l → ZeroGrant l) :
    (∀ p l, (panes.insert pane log).lookup p = some l → ZeroGrant l) ↔ ZeroGrant log := by
  constructor
  · intro hall
    exact hall pane log (AList.lookup_insert _)
  · intro hlog p l hl
    by_cases hp : p = pane
    · subst hp
      rw [AList.lookup_insert, Option.some_inj] at hl
      exact hl ▸ hlog
    · rw [AList.lookup_insert_ne hp] at hl
      exact h p l hp hl

theorem zeroGrant_build_iff (used : ℕ) (seed : Option LogSeed) :
    ZeroGrant (.build (replayGrant used) seed) ↔
      (globalReplayBufferBudgetBytes ≤ used → seeded seed = []) := by
  rw [zeroGrant_iff, build_budgetBytes, replayGrant_eq_zero_iff, build_entries_nil_iff]

theorem zeroGrant_push_iff (log : PaneLog) (seq outputSeq : ℕ) (data : List UInt8) :
    ZeroGrant ⟨log.replay.push seq data, outputSeq⟩ ↔ log.replay.budgetBytes ≠ 0 := by
  rw [zeroGrant_iff]
  constructor
  · intro h hzero
    exact (log.replay.push_suffix seq data).2 (h hzero)
  · intro hne hzero
    exact absurd hzero hne

/-- INTERNAL: from a state that keeps the cap, a step keeps it exactly if its condition holds. -/
theorem hardCap_step_iff {s s' : BudgetState} {e : BudgetEvent} (hs : Accounted s)
    (h : s.step e = some s') : Roomy s e ↔ HardCap s' := by
  obtain ⟨call, rfl, rfl⟩ | ⟨call, pane, seed, used, rfl, hused, hpane, rfl⟩ |
    ⟨pane, log, rfl, hlog, rfl⟩ | ⟨pane, data, log, rfl, hlog, rfl⟩ := step_cases h
  · exact ⟨fun _ => hs.cap, fun _ => trivial⟩
  · have hroom : s.used + replayGrant used ≤ globalReplayBufferBudgetBytes ↔ _ :=
      replayGrant_fits_iff (hs.loaded call used hused)
    have hpanes : (∀ p l, (s.panes.insert pane (.build (replayGrant used) seed)).lookup p = some l →
        ZeroGrant l) ↔ _ := forall_insert fun p l _ hl => hs.cap.2 p l hl
    have hgranted : BudgetState.granted
        { used := s.used + replayGrant used, allocating := s.allocating.erase call,
          panes := s.panes.insert pane (.build (replayGrant used) seed) } =
        replayGrant used + s.used := by
      rw [granted_eq, valueSum_insert _ hpane, build_budgetBytes, hs.used]
      rfl
    unfold HardCap
    rw [hgranted, hpanes, zeroGrant_build_iff, Nat.add_comm, hroom]
    simp [Roomy, hused]
  · refine ⟨fun _ => ⟨?_, fun p l hl => ?_⟩, fun _ => trivial⟩
    · have herase := valueSum_erase (f := fun log : PaneLog => log.replay.budgetBytes) hlog
      have hle := hs.cap.1
      rw [granted_eq] at hle ⊢
      show valueSum _ (s.panes.erase pane) ≤ _
      omega
    · by_cases hp : p = pane
      · subst hp
        rw [AList.lookup_erase] at hl
        cases hl
      · rw [AList.lookup_erase_ne hp] at hl
        exact hs.cap.2 p l hl
  · have hpanes : (∀ p l, (s.panes.insert pane
          ⟨log.replay.push (log.outputSeq + 1) data, log.outputSeq + 1⟩).lookup p = some l →
        ZeroGrant l) ↔ _ := forall_insert fun p l _ hl => hs.cap.2 p l hl
    unfold HardCap
    rw [granted_push hlog, hpanes, zeroGrant_push_iff]
    simp [Roomy, hlog, hs.cap.1]

theorem accounted_step {s s' : BudgetState} {e : BudgetEvent} (hs : Accounted s) (he : Roomy s e)
    (h : s.step e = some s') : Accounted s' := by
  have hcap := (hardCap_step_iff hs h).mp he
  obtain ⟨call, rfl, rfl⟩ | ⟨call, pane, seed, used, rfl, hused, hpane, rfl⟩ |
    ⟨pane, log, rfl, hlog, rfl⟩ | ⟨pane, data, log, rfl, hlog, rfl⟩ := step_cases h
  · refine ⟨hs.used, fun c used hused => ?_, hcap⟩
    by_cases hc : c = call
    · subst hc
      rw [AList.lookup_insert, Option.some_inj] at hused
      rw [← hused, hs.used]
      exact hs.cap.1
    · rw [AList.lookup_insert_ne hc] at hused
      exact hs.loaded c used hused
  · refine ⟨?_, fun c used hused => ?_, hcap⟩
    · rw [granted_eq, valueSum_insert _ hpane, build_budgetBytes, hs.used, Nat.add_comm]
      rfl
    · by_cases hc : c = call
      · subst hc
        rw [AList.lookup_erase] at hused
        cases hused
      · rw [AList.lookup_erase_ne hc] at hused
        exact hs.loaded c used hused
  · refine ⟨?_, hs.loaded, hcap⟩
    have herase := valueSum_erase (f := fun log : PaneLog => log.replay.budgetBytes) hlog
    have hused := hs.used
    rw [granted_eq] at hused ⊢
    show s.used - log.replay.budgetBytes = valueSum _ (s.panes.erase pane)
    omega
  · refine ⟨?_, hs.loaded, hcap⟩
    rw [granted_push hlog]
    exact hs.used

/-- **The states of a run keep the cap if and only if each grant is added where it still fits, and
nothing is written to a pane that was granted nothing.** -/
theorem hardCap_iff_roomy {es : List BudgetEvent} {s : BudgetState}
    (hrun : run BudgetState.step .init es = some s) :
    Along BudgetState.step Roomy .init es ↔
      ∀ es₁ s₁, es₁ <+: es → run BudgetState.step .init es₁ = some s₁ → HardCap s₁ := by
  apply along_iff_prefixes (I := Accounted) _ _ accounted_init accounted_init.cap hrun
  · intro s e s' hs h
    exact hardCap_step_iff hs h
  · intro s e s' hs he h
    exact accounted_step hs he h

/-- A pane that is built on its own and writes. -/
theorem hardCap_iff_roomy_alone :
    ∃ s, run BudgetState.step .init [.load 0, .fetchAdd 0 0 none, .push 0 [97]] = some s ∧
      HardCap s := by
  have hrun : run BudgetState.step .init [.load 0, .fetchAdd 0 0 none, .push 0 [97]] =
      some ⟨defaultReplayBufferBytes, ∅,
        AList.singleton 0 ⟨⟨[(1, [97])], 1, defaultReplayBufferBytes⟩, 1⟩⟩ := rfl
  have hroomy : Along BudgetState.step Roomy .init [.load 0, .fetchAdd 0 0 none, .push 0 [97]] := by
    refine ⟨trivial, fun s₁ h₁ => ?_⟩
    cases h₁
    refine ⟨fun used hused => ?_, fun s₂ h₂ => ?_⟩
    · cases hused
      exact ⟨Or.inl (Nat.le_refl _), fun _ => rfl⟩
    · cases h₂
      refine ⟨fun log hlog => ?_, fun s₃ _ => trivial⟩
      cases hlog
      decide
  exact ⟨_, hrun, (hardCap_iff_roomy hrun).mp hroomy _ _ (List.prefix_refl _) hrun⟩

/-! ## Runs that break the cap -/

/-- Panes built one after the other. -/
def grants : ℕ → List BudgetEvent
  | 0 => []
  | n + 1 => grants n ++ [.load n, .fetchAdd n n none]

/-- The state with `n` panes that were granted a whole budget each. -/
structure Granted (n : ℕ) (s : BudgetState) : Prop where
  used : s.used = n * defaultReplayBufferBytes
  allocating : s.allocating = ∅
  panes : ∀ pane, n ≤ pane → pane ∉ s.panes
  granted : s.granted = s.used

/-- An allocation that nobody else comes between. -/
theorem run_alone {s : BudgetState} (hs : s.allocating = ∅) (call : ℕ) {pane : ℕ}
    (hpane : pane ∉ s.panes) (seed : Option LogSeed) :
    run BudgetState.step s [.load call, .fetchAdd call pane seed] =
      some { used := s.used + replayGrant s.used, allocating := ∅,
             panes := s.panes.insert pane (.build (replayGrant s.used) seed) } := by
  have hload : s.step (.load call) =
      some { s with allocating := s.allocating.insert call s.used } := by
    simp [BudgetState.step, hs]
  have hempty : (s.allocating.insert call s.used).erase call = ∅ := by
    apply AList.ext
    rw [hs]
    exact List.kerase_cons_eq rfl
  rw [run_cons_of_step _ hload, run_cons]
  simp only [BudgetState.step, AList.lookup_insert, Option.bind_some, hpane, if_false, hempty, run_nil]

theorem run_grants (n : ℕ) (hn : n * defaultReplayBufferBytes ≤ globalReplayBufferBudgetBytes) :
    ∃ s, run BudgetState.step .init (grants n) = some s ∧ Granted n s := by
  induction n with
  | zero =>
      refine ⟨.init, rfl, ?_, rfl, ?_, rfl⟩
      · simp [BudgetState.init]
      · intro pane _
        exact AList.notMem_empty pane
  | succ n ih =>
      have hfits : n * defaultReplayBufferBytes + defaultReplayBufferBytes ≤
          globalReplayBufferBudgetBytes := by rwa [Nat.succ_mul] at hn
      obtain ⟨s, hrun, hs⟩ := ih (by omega)
      have hgrant : replayGrant s.used = defaultReplayBufferBytes := by
        unfold replayGrant
        rw [hs.used]
        omega
      have hfresh : n ∉ s.panes := hs.panes n (Nat.le_refl n)
      refine ⟨{ used := s.used + defaultReplayBufferBytes, allocating := ∅,
                panes := s.panes.insert n (.build defaultReplayBufferBytes none) }, ?_, ?_⟩
      · rw [grants, run_append, hrun, Option.bind_some, run_alone hs.allocating n hfresh none, hgrant]
      · refine ⟨?_, rfl, ?_, ?_⟩
        · rw [Nat.succ_mul, ← hs.used]
        · intro pane hpane
          rw [AList.mem_insert]
          rintro (rfl | hmem)
          · omega
          · exact hs.panes pane (by omega) hmem
        · rw [granted_eq, valueSum_insert _ hfresh, build_budgetBytes, ← granted_eq, hs.granted,
            Nat.add_comm]

/-- Two allocations that load the counter before either adds to it. -/
theorem run_together {s : BudgetState} (hs : s.allocating = ∅) {pane pane' : ℕ}
    (hpane : pane ∉ s.panes) (hpane' : pane' ∉ s.panes) (hne : pane' ≠ pane) :
    run BudgetState.step s [.load 0, .load 1, .fetchAdd 0 pane none, .fetchAdd 1 pane' none] =
      some { used := s.used + replayGrant s.used + replayGrant s.used, allocating := ∅,
             panes := (s.panes.insert pane (.build (replayGrant s.used) none)).insert pane'
               (.build (replayGrant s.used) none) } := by
  obtain ⟨used, allocating, panes⟩ := s
  simp only at hs hpane hpane'
  subst hs
  have hfirst : BudgetState.step ⟨used, (AList.insert 0 used ∅).insert 1 used, panes⟩
      (.fetchAdd 0 pane none) =
      some ⟨used + replayGrant used, AList.insert 1 used ∅,
        panes.insert pane (.build (replayGrant used) none)⟩ := if_neg hpane
  have hsecond : BudgetState.step ⟨used + replayGrant used, AList.insert 1 used ∅,
      panes.insert pane (.build (replayGrant used) none)⟩ (.fetchAdd 1 pane' none) =
      some ⟨used + replayGrant used + replayGrant used, ∅,
        (panes.insert pane (.build (replayGrant used) none)).insert pane'
          (.build (replayGrant used) none)⟩ := by
    apply if_neg
    rw [AList.mem_insert]
    rintro (h | h)
    · exact hne h
    · exact hpane' h
  show run BudgetState.step ⟨used, (AList.insert 0 used ∅).insert 1 used, panes⟩ _ = _
  rw [run_cons_of_step _ hfirst, run_cons_of_step _ hsecond, run_nil]

/-- Two panes are built at once where there is room for one. -/
def lateGrants : List BudgetEvent :=
  grants 255 ++ [.load 0, .load 1, .fetchAdd 0 255 none, .fetchAdd 1 256 none]

/-- A pane is built when nothing is left, and reads nothing but queries, which are stripped. -/
def strippedOutput : List BudgetEvent :=
  grants 256 ++ ([.load 0, .fetchAdd 0 256 none] ++ [.push 256 [], .push 256 []])

theorem lateGrants_granted :
    ∃ s, run BudgetState.step .init lateGrants = some s ∧
      s.granted = globalReplayBufferBudgetBytes + defaultReplayBufferBytes := by
  obtain ⟨s, hrun, hs⟩ := run_grants 255 (by decide)
  have h255 : 255 ∉ s.panes := hs.panes 255 (by decide)
  have h256 : 256 ∉ s.panes := hs.panes 256 (by decide)
  have hne : 256 ∉ s.panes.insert 255 (.build (replayGrant s.used) none) := by
    rw [AList.mem_insert]
    rintro (h | h)
    · omega
    · exact h256 h
  have hlate : run BudgetState.step .init lateGrants =
      run BudgetState.step s [.load 0, .load 1, .fetchAdd 0 255 none, .fetchAdd 1 256 none] := by
    rw [lateGrants, run_append, hrun, Option.bind_some]
  refine ⟨_, hlate.trans (run_together hs.allocating h255 h256 (by decide)), ?_⟩
  rw [granted_eq, valueSum_insert _ hne, valueSum_insert _ h255, build_budgetBytes, ← granted_eq,
    hs.granted, hs.used]
  decide

theorem strippedOutput_retained :
    ∃ s log, run BudgetState.step .init strippedOutput = some s ∧ s.panes.lookup 256 = some log ∧
      log.replay.budgetBytes = 0 ∧ log.replay.entries = [(1, []), (2, [])] ∧ log.outputSeq = 2 := by
  obtain ⟨s, hrun, hs⟩ := run_grants 256 (by decide)
  have hgrant : replayGrant s.used = 0 := by
    rw [hs.used]
    decide
  have hfresh : 256 ∉ s.panes := hs.panes 256 (by decide)
  refine ⟨⟨s.used, ∅, s.panes.insert 256 ⟨⟨[(1, []), (2, [])], 0, 0⟩, 2⟩⟩,
    ⟨⟨[(1, []), (2, [])], 0, 0⟩, 2⟩, ?_, AList.lookup_insert _, rfl, rfl, rfl⟩
  rw [strippedOutput, run_append, hrun, Option.bind_some, run_append,
    run_alone hs.allocating 0 hfresh none, Option.bind_some, hgrant]
  simp only [run_cons, BudgetState.step, AList.lookup_insert, Option.map_some, Option.bind_some,
    run_nil, AList.insert_insert]
  rfl

/-- The cap is exceeded by the first run, and the pane without a grant of the second retains two
entries and answers a resume from within its window. -/
theorem lateGrants_exceed :
    (∃ s, run BudgetState.step .init lateGrants = some s ∧
      globalReplayBufferBudgetBytes < s.granted) ∧
    (∃ s log, run BudgetState.step .init strippedOutput = some s ∧ s.panes.lookup 256 = some log ∧
      log.replay.budgetBytes = 0 ∧ log.replay.entries ≠ [] ∧ log.outputSeq = 2 ∧
      log.replay.replaySince 1 2 = .inWindow [(2, [])] 2) := by
  constructor
  · obtain ⟨s, hrun, hgranted⟩ := lateGrants_granted
    refine ⟨s, hrun, ?_⟩
    rw [hgranted]
    decide
  · obtain ⟨s, log, hrun, hlog, hbudget, hentries, hseq⟩ := strippedOutput_retained
    refine ⟨s, log, hrun, hlog, hbudget, ?_, hseq, ?_⟩
    · rw [hentries]
      decide
    · simp [ReplayBuffer.replaySince, ReplayBuffer.oldestSeq, hentries]

end Budget

end Tymux.Analysis
