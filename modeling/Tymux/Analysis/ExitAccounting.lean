import Tymux.Model.ExitHandshake
import Tymux.Lib.Run

/-!
# Every exit is accounted for once

The reader thread sets `exit_checked` and reads the hook slot under one lock, and `set_exit_hook`
fills the slot and reads `exit_checked` under the same lock, so exactly one of the two sides learns
of the other. The side that does calls `on_exit`; what it has yet to do is part of the invariant of
a pane, together with the calls already made for the current process and for those before it.
-/

set_option autoImplicit false

namespace Tymux.Analysis.Handshake

open Tymux.Model Tymux.Lib

/-! ## Ledgers -/

/-- The ledger is of earlier generations. -/
def Below (g : ℕ) (ledger : List (ℕ × Option ℤ)) : Prop := ∀ k ∈ ledger, k.1 < g

/-- The last entry is that of the generation, and its only one. -/
def Latest (ledger : List (ℕ × Option ℤ)) (g : ℕ) (code : Option ℤ) : Prop :=
  ∃ rest, ledger = (g, code) :: rest ∧ Below g rest

/-- The entries of a generation. -/
def entriesOf (g : ℕ) (ledger : List (ℕ × Option ℤ)) : List (ℕ × Option ℤ) :=
  ledger.filter fun k => k.1 = g

theorem entriesOf_of_below {g : ℕ} {ledger : List (ℕ × Option ℤ)} (h : Below g ledger) :
    entriesOf g ledger = [] := by
  apply List.filter_eq_nil_iff.mpr
  intro k hk
  have hlt := h k hk
  simp only [decide_eq_true_eq]
  omega

theorem entriesOf_of_latest {g : ℕ} {code : Option ℤ} {ledger : List (ℕ × Option ℤ)}
    (h : Latest ledger g code) : entriesOf g ledger = [(g, code)] := by
  obtain ⟨rest, rfl, hrest⟩ := h
  have hnil := entriesOf_of_below hrest
  unfold entriesOf at hnil ⊢
  rw [List.filter_cons_of_pos (by simp), hnil]

theorem entriesOf_cons_of_ne {g g' : ℕ} (code : Option ℤ) (ledger : List (ℕ × Option ℤ))
    (h : g' ≠ g) : entriesOf g ((g', code) :: ledger) = entriesOf g ledger := by
  unfold entriesOf
  rw [List.filter_cons_of_neg (by simpa using h)]

theorem Below.mono {g g' : ℕ} {ledger : List (ℕ × Option ℤ)} (h : Below g ledger) (hle : g ≤ g') :
    Below g' ledger := fun k hk => Nat.lt_of_lt_of_le (h k hk) hle

theorem Latest.below {g : ℕ} {code : Option ℤ} {ledger : List (ℕ × Option ℤ)}
    (h : Latest ledger g code) : Below (g + 1) ledger := by
  obtain ⟨rest, rfl, hrest⟩ := h
  intro k hk
  rcases List.mem_cons.mp hk with rfl | hk
  · exact Nat.lt_succ_self g
  · exact Nat.lt_succ_of_lt (hrest k hk)

theorem latest_cons {g : ℕ} (code : Option ℤ) {ledger : List (ℕ × Option ℤ)}
    (h : Below g ledger) : Latest ((g, code) :: ledger) g code := ⟨ledger, rfl, h⟩

/-! ## The invariant of a pane -/

/-- One call of `on_exit` for the generation, with the code that `wait` returned for it. -/
def Once (p : HookedPane) (g : ℕ) : Prop :=
  ∃ code, entriesOf g p.reaped = [(g, code)] ∧ entriesOf g p.calls = [(g, code)]

/-- The registration in progress is going to call `on_exit`. -/
def Pending (stage : Option RegistrationStage) : Prop :=
  stage = some .inserted ∨ stage = some (.hooked true)

/-- The call of `on_exit` for the current generation was made, or the registration is going to make
it, or the pane is not registered. -/
def Answered (p : HookedPane) (registered : Prop) (stage : Option RegistrationStage) : Prop :=
  Latest p.calls p.generation p.exitCode ∨
    Below p.generation p.calls ∧ (Pending stage ∨ ¬ registered)

def Unpublished (p : HookedPane) : Prop := ∀ g ∈ p.published, g < p.generation

/-- The exit of the current generation was published while the pane was registered. -/
def PublishedNow (p : HookedPane) (stage : Option RegistrationStage) : Prop :=
  (∃ rest, p.published = p.generation :: rest ∧ ∀ g ∈ rest, g < p.generation) ∧
    (Latest p.calls p.generation p.exitCode ∨ Below p.generation p.calls ∧ Pending stage)

/-- What is known about the current generation at each point of the reader thread. -/
def Phased (p : HookedPane) (registered : Prop) (stage : Option RegistrationStage) : Prop :=
  match p.reader with
  | .running => Below p.generation p.calls ∧ Below p.generation p.reaped ∧ Unpublished p ∧
      p.exitChecked = false
  | .stored code => Below p.generation p.calls ∧ Latest p.reaped p.generation code ∧ Unpublished p ∧
      p.exitChecked = false ∧ p.exitCode = code
  | .checked code true => Below p.generation p.calls ∧ Latest p.reaped p.generation code ∧
      Unpublished p ∧ p.exitChecked = true ∧ p.exitCode = code ∧ p.hook = true
  | .checked _ false | .accounted => Latest p.reaped p.generation p.exitCode ∧ Unpublished p ∧
      p.exitChecked = true ∧ Answered p registered stage
  | .exited => Latest p.reaped p.generation p.exitCode ∧ (Unpublished p ∨ PublishedNow p stage) ∧
      p.exitChecked = true ∧ Answered p registered stage

structure PaneInv (p : HookedPane) (registered : Prop) (stage : Option RegistrationStage) :
    Prop where
  past : ∀ g ∈ p.published, g < p.generation → Once p g
  atMostOnce : ∀ g, (entriesOf g p.calls).length ≤ 1
  unhooked : p.hook = false → p.calls = []
  slot : registered → p.hook = true ∨ stage = some .inserted
  inProgress : stage ≠ none → registered
  inserted : stage = some .inserted → p.hook = false
  hooked : stage = some (.hooked true) →
    p.calls = [] ∧ p.exitChecked = true ∧ ∀ code, p.reader ≠ .checked code true
  phased : Phased p registered stage

theorem paneInv_new (id : Uuid) {registered : Prop} (h : ¬ registered) :
    PaneInv ⟨id, .running, none, false, false, 0, [], [], []⟩ registered none where
  past := fun g hg => absurd hg List.not_mem_nil
  atMostOnce := fun g => Nat.zero_le 1
  unhooked := fun _ => rfl
  slot := fun hr => absurd hr h
  inProgress := fun hne => absurd rfl hne
  inserted := fun h => by cases h
  hooked := fun h => by cases h
  phased := by simp [Phased, Below, Unpublished]

/-- INTERNAL: the entry, the lock and the hook slot change, the reader thread does not move. -/
theorem Phased.imp {p : HookedPane} {registered registered' : Prop}
    {stage stage' : Option RegistrationStage} (h : Phased p registered stage) {hook : Bool}
    (hhook : p.hook = true → hook = true)
    (hanswered : p.exitChecked = true → Answered p registered stage → Answered p registered' stage')
    (hpublished : p.exitChecked = true → PublishedNow p stage →
      Unpublished p ∨ PublishedNow p stage') :
    Phased { p with hook := hook } registered' stage' := by
  unfold Phased at h ⊢
  split at h
  case h_1 hreader =>
      simp only [hreader]
      exact h
  case h_2 code hreader =>
      simp only [hreader]
      exact h
  case h_3 code hreader =>
      simp only [hreader]
      obtain ⟨hcalls, hreaped, hpub, hchecked, hcode, hslot⟩ := h
      exact ⟨hcalls, hreaped, hpub, hchecked, hcode, hhook hslot⟩
  case h_4 code hreader =>
      simp only [hreader]
      obtain ⟨hreaped, hpub, hchecked, hans⟩ := h
      exact ⟨hreaped, hpub, hchecked, hanswered hchecked hans⟩
  case h_5 hreader =>
      simp only [hreader]
      obtain ⟨hreaped, hpub, hchecked, hans⟩ := h
      exact ⟨hreaped, hpub, hchecked, hanswered hchecked hans⟩
  case h_6 hreader =>
      simp only [hreader]
      obtain ⟨hreaped, hpub, hchecked, hans⟩ := h
      exact ⟨hreaped, hpub.elim Or.inl (hpublished hchecked), hchecked, hanswered hchecked hans⟩

/-- A pane that is no longer registered. -/
theorem PaneInv.unregister {p : HookedPane} {registered registered' : Prop}
    (h : PaneInv p registered none) (hle : registered' → registered) : PaneInv p registered' none where
  past := h.past
  atMostOnce := h.atMostOnce
  unhooked := h.unhooked
  slot := fun hr => h.slot (hle hr)
  inProgress := fun hne => absurd rfl hne
  inserted := h.inserted
  hooked := h.hooked
  phased := by
    apply h.phased.imp (fun hhook => hhook) _ fun _ hpub => Or.inr hpub
    rintro _ (hlatest | ⟨hbelow, hpending | hnot⟩)
    · exact Or.inl hlatest
    · exact Or.inr ⟨hbelow, Or.inl hpending⟩
    · exact Or.inr ⟨hbelow, Or.inr fun hr => hnot (hle hr)⟩

/-! ## The registration -/

theorem PaneInv.register {p : HookedPane} {registered registered' : Prop}
    (h : PaneInv p registered none) (hhook : p.hook = false) (hreg : registered') :
    PaneInv p registered' (some .inserted) where
  past := h.past
  atMostOnce := h.atMostOnce
  unhooked := h.unhooked
  slot := fun _ => Or.inr rfl
  inProgress := fun _ => hreg
  inserted := fun _ => hhook
  hooked := fun hstage => by cases hstage
  phased := by
    have hcalls : p.calls = [] := h.unhooked hhook
    apply h.phased.imp (fun hhook => hhook)
    · intro _ _
      refine Or.inr ⟨?_, Or.inl (Or.inl rfl)⟩
      rw [hcalls]
      exact fun k hk => absurd hk List.not_mem_nil
    · rintro _ ⟨_, ⟨rest, hlatest, _⟩ | ⟨_, hpending⟩⟩
      · rw [hcalls] at hlatest
        cases hlatest
      · rcases hpending with hpending | hpending <;> cases hpending

/-- INTERNAL: the slot is filled after the reader thread looked, or before.
SRC: pane.rs:726-730 -/
theorem PaneInv.setExitHook {p : HookedPane} {registered : Prop}
    (h : PaneInv p registered (some .inserted)) :
    PaneInv { p with hook := true } registered (some (.hooked p.exitChecked)) where
  past := h.past
  atMostOnce := h.atMostOnce
  unhooked := fun hhook => by cases hhook
  slot := fun _ => Or.inl rfl
  inProgress := fun _ => h.inProgress (Option.some_ne_none _)
  inserted := fun hstage => by cases hstage
  hooked := fun hstage => by
    simp only [Option.some.injEq, RegistrationStage.hooked.injEq] at hstage
    refine ⟨h.unhooked (h.inserted rfl), hstage, fun code hreader => ?_⟩
    have hphased := h.phased
    have hreader' : p.reader = .checked code true := hreader
    simp only [Phased, hreader', h.inserted rfl] at hphased
    exact Bool.false_ne_true hphased.2.2.2.2.2
  phased := by
    have hpending : p.exitChecked = true → Pending (some (.hooked p.exitChecked)) := by
      intro hchecked
      rw [hchecked]
      exact Or.inr rfl
    apply h.phased.imp (fun _ => rfl)
    · rintro hchecked (hlatest | ⟨hbelow, _⟩)
      · exact Or.inl hlatest
      · exact Or.inr ⟨hbelow, Or.inl (hpending hchecked)⟩
    · rintro hchecked ⟨hlast, hlatest | ⟨hbelow, _⟩⟩
      · exact Or.inr ⟨hlast, Or.inl hlatest⟩
      · exact Or.inr ⟨hlast, Or.inr ⟨hbelow, hpending hchecked⟩⟩

/-- The reader thread looks at the slot after it was filled. -/
theorem PaneInv.finishHook {p : HookedPane} {registered : Prop}
    (h : PaneInv p registered (some (.hooked false))) : PaneInv p registered none where
  past := h.past
  atMostOnce := h.atMostOnce
  unhooked := h.unhooked
  slot := fun hr => by
    obtain hhook | hstage := h.slot hr
    · exact Or.inl hhook
    · cases hstage
  inProgress := fun hne => absurd rfl hne
  inserted := fun hstage => by cases hstage
  hooked := fun hstage => by cases hstage
  phased := by
    have hpending : ¬ Pending (some (.hooked false)) := by
      rintro (hstage | hstage) <;> cases hstage
    apply h.phased.imp (fun hhook => hhook)
    · rintro _ (hlatest | ⟨hbelow, hpend | hnot⟩)
      · exact Or.inl hlatest
      · exact absurd hpend hpending
      · exact Or.inr ⟨hbelow, Or.inr hnot⟩
    · rintro _ ⟨hlast, hlatest | ⟨_, hpend⟩⟩
      · exact Or.inr ⟨hlast, Or.inl hlatest⟩
      · exact absurd hpend hpending

theorem PaneInv.once_cons {p : HookedPane} {registered : Prop} {stage : Option RegistrationStage}
    (h : PaneInv p registered stage) (code : Option ℤ) {g : ℕ} (hg : g ∈ p.published)
    (hlt : g < p.generation) :
    Once { p with calls := (p.generation, code) :: p.calls } g := by
  obtain ⟨c, hreaped, hcalls⟩ := h.past g hg hlt
  refine ⟨c, hreaped, ?_⟩
  rw [entriesOf_cons_of_ne code p.calls (Nat.ne_of_gt hlt)]
  exact hcalls

theorem PaneInv.atMostOnce_cons {p : HookedPane} {registered : Prop}
    {stage : Option RegistrationStage} (h : PaneInv p registered stage) (code : Option ℤ)
    (hbelow : Below p.generation p.calls) (g : ℕ) :
    (entriesOf g ((p.generation, code) :: p.calls)).length ≤ 1 := by
  by_cases hg : p.generation = g
  · subst hg
    rw [entriesOf_of_latest (latest_cons code hbelow)]
    exact Nat.le_refl 1
  · rw [entriesOf_cons_of_ne code p.calls hg]
    exact h.atMostOnce g

/-- INTERNAL: the child exited before the hook was there, and the registration accounts for it.
SRC: supervision.rs:168-173 -/
theorem PaneInv.account {p : HookedPane} {registered : Prop}
    (h : PaneInv p registered (some (.hooked true))) :
    PaneInv { p with calls := (p.generation, p.exitCode) :: p.calls } registered none := by
  obtain ⟨hcalls, hchecked, hreader⟩ := h.hooked rfl
  have hhook : p.hook = true := by
    obtain hhook | hstage := h.slot (h.inProgress (Option.some_ne_none _))
    · exact hhook
    · cases hstage
  have hbelow : Below p.generation p.calls := by
    rw [hcalls]
    exact fun k hk => absurd hk List.not_mem_nil
  have hlatest : Latest ((p.generation, p.exitCode) :: p.calls) p.generation p.exitCode :=
    latest_cons p.exitCode hbelow
  refine ⟨fun g hg hlt => h.once_cons p.exitCode hg hlt, h.atMostOnce_cons p.exitCode hbelow,
    fun hunhooked => ?_, fun _ => Or.inl hhook, fun hne => absurd rfl hne, ?_, ?_, ?_⟩
  · rw [hhook] at hunhooked
    cases hunhooked
  · intro hstage
    cases hstage
  · intro hstage
    cases hstage
  · have hphased := h.phased
    unfold Phased at hphased ⊢
    split at hphased
    case h_1 _ => exact absurd (hchecked.symm.trans hphased.2.2.2) Bool.noConfusion
    case h_2 _ => exact absurd (hchecked.symm.trans hphased.2.2.2.1) Bool.noConfusion
    case h_3 code hcase => exact absurd hcase (hreader code)
    case h_4 code hcase =>
        simp only [hcase]
        obtain ⟨hreaped, hpub, _, _⟩ := hphased
        exact ⟨hreaped, hpub, hchecked, Or.inl hlatest⟩
    case h_5 hcase =>
        simp only [hcase]
        obtain ⟨hreaped, hpub, _, _⟩ := hphased
        exact ⟨hreaped, hpub, hchecked, Or.inl hlatest⟩
    case h_6 hcase =>
        simp only [hcase]
        obtain ⟨hreaped, hpub, _, _⟩ := hphased
        refine ⟨hreaped, ?_, hchecked, Or.inl hlatest⟩
        exact hpub.imp id fun hnow => ⟨hnow.1, Or.inl hlatest⟩

/-! ## The reader thread -/

theorem PaneInv.notHooked {p : HookedPane} {registered : Prop} {stage : Option RegistrationStage}
    (h : PaneInv p registered stage) (hchecked : p.exitChecked = false) :
    stage ≠ some (.hooked true) := by
  intro hstage
  have htrue := (h.hooked hstage).2.1
  rw [hchecked] at htrue
  cases htrue

theorem PaneInv.reap {p : HookedPane} {registered : Prop} {stage : Option RegistrationStage}
    (h : PaneInv p registered stage) (hreader : p.reader = .running) (code : Option ℤ) :
    PaneInv { p with reader := .stored code, exitCode := code,
                     reaped := (p.generation, code) :: p.reaped } registered stage := by
  have hphased := h.phased
  simp only [Phased, hreader] at hphased
  obtain ⟨hcalls, hreaped, hpub, hchecked⟩ := hphased
  refine ⟨fun g hg hlt => ?_, h.atMostOnce, h.unhooked, h.slot, h.inProgress, h.inserted,
    fun hstage => absurd hstage (h.notHooked hchecked), ?_⟩
  · obtain ⟨c, hc, honce⟩ := h.past g hg hlt
    refine ⟨c, ?_, honce⟩
    rw [entriesOf_cons_of_ne code p.reaped (Nat.ne_of_gt hlt)]
    exact hc
  · exact ⟨hcalls, latest_cons code hreaped, hpub, hchecked, rfl⟩

/-- INTERNAL: who finds no hook leaves the accounting to a registration, if there is one.
SRC: pane.rs:629-633 -/
theorem PaneInv.check {p : HookedPane} {registered : Prop} {stage : Option RegistrationStage}
    (h : PaneInv p registered stage) {code : Option ℤ} (hreader : p.reader = .stored code) :
    PaneInv { p with reader := .checked code p.hook, exitChecked := true } registered stage := by
  have hphased := h.phased
  simp only [Phased, hreader] at hphased
  obtain ⟨hcalls, hreaped, hpub, hchecked, hcode⟩ := hphased
  refine ⟨h.past, h.atMostOnce, h.unhooked, h.slot, h.inProgress, h.inserted,
    fun hstage => absurd hstage (h.notHooked hchecked), ?_⟩
  cases hhook : p.hook with
  | true => exact ⟨hcalls, hreaped, hpub, rfl, hcode, rfl⟩
  | false =>
      subst hcode
      refine ⟨hreaped, hpub, rfl, Or.inr ⟨hcalls, ?_⟩⟩
      by_cases hreg : registered
      · obtain hslot | hstage := h.slot hreg
        · rw [hhook] at hslot
          cases hslot
        · exact Or.inl (Or.inl hstage)
      · exact Or.inr hreg

/-- INTERNAL: who finds the hook calls it, and the hook accounts for a registered pane.
SRC: pane.rs:636-638, supervision.rs:181-199 -/
theorem PaneInv.callHook {p : HookedPane} {registered : Prop} (h : PaneInv p registered none)
    {code : Option ℤ} (hreader : p.reader = .checked code true) :
    PaneInv { p with reader := .accounted, calls := (p.generation, code) :: p.calls }
      registered none := by
  have hphased := h.phased
  simp only [Phased, hreader] at hphased
  obtain ⟨hcalls, hreaped, hpub, hchecked, hcode, hhook⟩ := hphased
  subst hcode
  refine ⟨fun g hg hlt => h.once_cons p.exitCode hg hlt, h.atMostOnce_cons p.exitCode hcalls,
    fun hunhooked => ?_, h.slot, h.inProgress, h.inserted, fun hstage => ?_, ?_⟩
  · have hfalse : p.hook = false := hunhooked
    rw [hhook] at hfalse
    cases hfalse
  · cases hstage
  · exact ⟨hreaped, hpub, hchecked, Or.inl (latest_cons p.exitCode hcalls)⟩

theorem PaneInv.callHook_unregistered {p : HookedPane} {registered : Prop}
    (h : PaneInv p registered none) {code : Option ℤ} (hreader : p.reader = .checked code true)
    (hreg : ¬ registered) : PaneInv { p with reader := .accounted } registered none := by
  have hphased := h.phased
  simp only [Phased, hreader] at hphased
  obtain ⟨hcalls, hreaped, hpub, hchecked, hcode, hhook⟩ := hphased
  subst hcode
  refine ⟨h.past, h.atMostOnce, h.unhooked, h.slot, h.inProgress, h.inserted,
    fun hstage => ?_, ?_⟩
  · cases hstage
  · exact ⟨hreaped, hpub, hchecked, Or.inr ⟨hcalls, Or.inr hreg⟩⟩

theorem PaneInv.skipHook {p : HookedPane} {registered : Prop} {stage : Option RegistrationStage}
    (h : PaneInv p registered stage) {code : Option ℤ} (hreader : p.reader = .checked code false) :
    PaneInv { p with reader := .accounted } registered stage := by
  have hphased := h.phased
  simp only [Phased, hreader] at hphased
  refine ⟨h.past, h.atMostOnce, h.unhooked, h.slot, h.inProgress, h.inserted,
    fun hstage => ?_, hphased⟩
  obtain ⟨hcalls, hchecked, _⟩ := h.hooked hstage
  exact ⟨hcalls, hchecked, fun c => ExitPhase.noConfusion⟩

theorem PaneInv.publish {p : HookedPane} {registered : Prop} {stage : Option RegistrationStage}
    (h : PaneInv p registered stage) (hreader : p.reader = .accounted) (hreg : registered) :
    PaneInv { p with reader := .exited, published := p.generation :: p.published }
      registered stage := by
  have hphased := h.phased
  simp only [Phased, hreader] at hphased
  obtain ⟨hreaped, hpub, hchecked, hanswered⟩ := hphased
  refine ⟨fun g hg hlt => ?_, h.atMostOnce, h.unhooked, h.slot, h.inProgress, h.inserted,
    fun hstage => ?_, ?_⟩
  · have hmem : g ∈ p.published := by
      rcases List.mem_cons.mp hg with heq | hmem
      · exact absurd (heq ▸ hlt) (Nat.lt_irrefl _)
      · exact hmem
    exact h.past g hmem hlt
  · obtain ⟨hcalls, hchecked', _⟩ := h.hooked hstage
    exact ⟨hcalls, hchecked', fun c => ExitPhase.noConfusion⟩
  · refine ⟨hreaped, Or.inr ⟨⟨p.published, rfl, hpub⟩, ?_⟩, hchecked, hanswered⟩
    obtain hlatest | ⟨hbelow, hpending | hnot⟩ := hanswered
    · exact Or.inl hlatest
    · exact Or.inr ⟨hbelow, hpending⟩
    · exact absurd hreg hnot

theorem PaneInv.publish_unregistered {p : HookedPane} {registered : Prop}
    {stage : Option RegistrationStage} (h : PaneInv p registered stage)
    (hreader : p.reader = .accounted) : PaneInv { p with reader := .exited } registered stage := by
  have hphased := h.phased
  simp only [Phased, hreader] at hphased
  obtain ⟨hreaped, hpub, hchecked, hanswered⟩ := hphased
  refine ⟨h.past, h.atMostOnce, h.unhooked, h.slot, h.inProgress, h.inserted,
    fun hstage => ?_, hreaped, Or.inl hpub, hchecked, hanswered⟩
  obtain ⟨hcalls, hchecked', _⟩ := h.hooked hstage
  exact ⟨hcalls, hchecked', fun c => ExitPhase.noConfusion⟩

/-! ## The respawn -/

/-- The exit of the current generation, once published, was accounted for. -/
theorem PaneInv.once_of_published {p : HookedPane} {registered : Prop}
    {stage : Option RegistrationStage} (h : PaneInv p registered stage) (hstage : ¬ Pending stage)
    {g : ℕ} (hg : g ∈ p.published) : Once p g := by
  by_cases hlt : g < p.generation
  · exact h.past g hg hlt
  · have hphased := h.phased
    unfold Phased at hphased
    split at hphased
    case h_1 _ => exact absurd (hphased.2.2.1 g hg) hlt
    case h_2 _ => exact absurd (hphased.2.2.1 g hg) hlt
    case h_3 _ => exact absurd (hphased.2.2.1 g hg) hlt
    case h_4 _ => exact absurd (hphased.2.1 g hg) hlt
    case h_5 _ => exact absurd (hphased.2.1 g hg) hlt
    case h_6 _ =>
        obtain ⟨hreaped, hun | ⟨⟨rest, hlast, hrest⟩, hlatest | ⟨_, hpending⟩⟩, _⟩ := hphased
        · exact absurd (hun g hg) hlt
        · have hgen : g = p.generation := by
            rw [hlast] at hg
            rcases List.mem_cons.mp hg with heq | hmem
            · exact heq
            · exact absurd (hrest g hmem) hlt
          rw [hgen]
          exact ⟨p.exitCode, entriesOf_of_latest hreaped, entriesOf_of_latest hlatest⟩
        · exact absurd hpending hstage

theorem PaneInv.respawn {p : HookedPane} {registered : Prop} (h : PaneInv p registered none)
    (hreader : p.reader = .exited) : PaneInv (HandshakeState.respawned p) registered none := by
  have hpending : ¬ Pending none := by
    rintro (hstage | hstage) <;> cases hstage
  refine ⟨fun g hg _ => h.once_of_published hpending hg, h.atMostOnce, h.unhooked, h.slot,
    h.inProgress, h.inserted, fun hstage => absurd hstage (by simp), ?_⟩
  have hphased := h.phased
  simp only [Phased, hreader] at hphased
  obtain ⟨hreaped, hpub, _, hanswered⟩ := hphased
  refine ⟨?_, hreaped.below, ?_, rfl⟩
  · obtain hlatest | ⟨hbelow, _⟩ := hanswered
    · exact hlatest.below
    · exact hbelow.mono (Nat.le_succ _)
  · intro g hg
    obtain hun | ⟨⟨rest, hlast, hrest⟩, _⟩ := hpub
    · exact Nat.lt_succ_of_lt (hun g hg)
    · have hg' : g ∈ p.published := hg
      rw [hlast] at hg'
      rcases List.mem_cons.mp hg' with rfl | hmem
      · exact Nat.lt_succ_self _
      · exact Nat.lt_succ_of_lt (hrest g hmem)

/-! ## The system -/

/-- How far the registration of the pane at an address is. -/
def stageOf (s : HandshakeState) (a : ℕ) : Option RegistrationStage :=
  s.lock.bind fun l => if l.1 = a then some l.2 else none

structure Inv (s : HandshakeState) : Prop where
  panes : ∀ a p, s.panes.lookup a = some p → PaneInv p (s.isPane a p) (stageOf s a)
  entries : ∀ id a, s.entries.lookup id = some (some a) → a ∈ s.panes
  lock : ∀ a stage, s.lock = some (a, stage) → a ∈ s.panes

theorem stageOf_none {s : HandshakeState} (h : s.lock = none) (a : ℕ) : stageOf s a = none := by
  rw [stageOf, h, Option.bind_none]

theorem inv_init : Inv .init where
  panes := fun a p h => by cases h
  entries := fun id a h => by cases h
  lock := fun a stage h => by cases h

/-- INTERNAL: one pane moves on, and the entries and the lock stay as they are. -/
theorem Inv.setPane {s : HandshakeState} (hs : Inv s) {a : ℕ} {p : HookedPane}
    (h : PaneInv p (s.isPane a p) (stageOf s a)) : Inv (s.setPane a p) where
  panes := fun b q hq => by
    by_cases hb : b = a
    · subst hb
      rw [HandshakeState.setPane, AList.lookup_insert, Option.some_inj] at hq
      subst hq
      exact h
    · rw [HandshakeState.setPane, AList.lookup_insert_ne hb] at hq
      exact hs.panes b q hq
  entries := fun id b hb => by
    rw [HandshakeState.setPane, AList.mem_insert]
    exact Or.inr (hs.entries id b hb)
  lock := fun b stage hb => by
    rw [HandshakeState.setPane, AList.mem_insert]
    exact Or.inr (hs.lock b stage hb)

theorem inv_readerNext {s : HandshakeState} (hs : Inv s) {a : ℕ} {p p' : HookedPane}
    {code : Option ℤ} (hp : s.panes.lookup a = some p) (h : s.readerNext a code p = some p') :
    PaneInv p' (s.isPane a p') (stageOf s a) := by
  have hpane := hs.panes a p hp
  unfold HandshakeState.readerNext at h
  split at h
  case h_1 hreader =>
      cases h
      exact hpane.reap hreader code
  case h_2 c hreader =>
      cases h
      exact hpane.check hreader
  case h_3 c hreader =>
      split at h
      case isFalse => cases h
      case isTrue hlock =>
          cases h
          rw [stageOf_none hlock] at hpane ⊢
          unfold HandshakeState.accountExit
          split
          case isTrue hreg => exact hpane.callHook hreader
          case isFalse hreg => exact hpane.callHook_unregistered hreader hreg
  case h_4 c hreader =>
      cases h
      exact hpane.skipHook hreader
  case h_5 hreader =>
      cases h
      cases hreg : s.isPane a p with
      | true => exact hpane.publish hreader hreg
      | false => exact hpane.publish_unregistered hreader
  case h_6 => cases h

theorem inv_spawn {s s' : HandshakeState} (hs : Inv s) {a : ℕ} {id : Uuid}
    (h : s.step (.spawn a id) = some s') : Inv s' := by
  simp only [HandshakeState.step] at h
  split at h
  case isTrue => cases h
  case isFalse hnew =>
      cases h
      apply hs.setPane
      have hstage : stageOf s a = none := by
        unfold stageOf
        cases hlock : s.lock with
        | none => rfl
        | some l =>
            have hmem := hs.lock l.1 l.2 hlock
            have hne : l.1 ≠ a := fun heq => hnew (heq ▸ hmem)
            rw [Option.bind_some, if_neg hne]
      rw [hstage]
      apply paneInv_new
      intro hreg
      simp only [HandshakeState.isPane, decide_eq_true_eq] at hreg
      exact hnew (hs.entries id a hreg)

/-- INTERNAL: the entries change while the lock is free, and no pane becomes registered. -/
theorem Inv.setEntries {s : HandshakeState} (hs : Inv s) (hlock : s.lock = none)
    {entries : AList fun _ : Uuid => Option ℕ}
    (hle : ∀ id a, entries.lookup id = some (some a) → s.entries.lookup id = some (some a)) :
    Inv { s with entries := entries } where
  panes := fun a p hp => by
    have hpane := hs.panes a p hp
    rw [stageOf_none hlock] at hpane
    rw [stageOf_none (s := { s with entries := entries }) hlock]
    apply hpane.unregister
    intro hreg
    simp only [HandshakeState.isPane, decide_eq_true_eq] at hreg ⊢
    exact hle p.id a hreg
  entries := fun id a h => hs.entries id a (hle id a h)
  lock := hs.lock

theorem inv_register {s s' : HandshakeState} (hs : Inv s) {a : ℕ}
    (h : s.step (.register a) = some s') : Inv s' := by
  simp only [HandshakeState.step, Option.bind_eq_some_iff] at h
  obtain ⟨p, hp, h⟩ := h
  split at h
  case isFalse => cases h
  case isTrue hfree =>
      obtain ⟨hlock, hhook⟩ := hfree
      cases h
      refine ⟨fun b q hq => ?_, fun id b hb => ?_, fun b stage hb => ?_⟩
      · have hpane := hs.panes b q hq
        rw [stageOf_none hlock] at hpane
        by_cases hb : b = a
        · subst hb
          have heq : p = q := Option.some_inj.mp (hp.symm.trans hq)
          subst heq
          have hstage : stageOf { s with entries := s.entries.insert p.id (some b),
                                         lock := some (b, .inserted) } b = some .inserted := by
            simp [stageOf]
          rw [hstage]
          apply hpane.register hhook
          simp [HandshakeState.isPane]
        · have hstage : stageOf { s with entries := s.entries.insert p.id (some a),
                                         lock := some (a, .inserted) } b = none := by
            simp [stageOf, Ne.symm hb]
          rw [hstage]
          apply hpane.unregister
          intro hreg
          simp only [HandshakeState.isPane, decide_eq_true_eq] at hreg ⊢
          by_cases hid : q.id = p.id
          · rw [hid, AList.lookup_insert, Option.some_inj, Option.some_inj] at hreg
            exact absurd hreg.symm hb
          · rwa [AList.lookup_insert_ne hid] at hreg
      · by_cases hid : id = p.id
        · rw [hid, AList.lookup_insert, Option.some_inj, Option.some_inj] at hb
          rw [← hb]
          exact AList.lookup_isSome.mp (by rw [hp]; rfl)
        · rw [AList.lookup_insert_ne hid] at hb
          exact hs.entries id b hb
      · cases hb
        exact AList.lookup_isSome.mp (by rw [hp]; rfl)

/-- INTERNAL: the registration of a pane moves on, and with it the pane. -/
theorem Inv.setStage {s : HandshakeState} (hs : Inv s) {a : ℕ} {stage : RegistrationStage}
    (hlock : s.lock = some (a, stage)) {p : HookedPane} {lock : Option (ℕ × RegistrationStage)}
    (hnext : ∀ b stage', lock = some (b, stage') → b = a)
    (h : PaneInv p (s.isPane a p) (stageOf { s with lock := lock } a)) :
    Inv { s.setPane a p with lock := lock } where
  panes := fun b q hq => by
    by_cases hb : b = a
    · subst hb
      simp only [HandshakeState.setPane, AList.lookup_insert, Option.some_inj] at hq
      subst hq
      exact h
    · simp only [HandshakeState.setPane, AList.lookup_insert_ne hb] at hq
      have hpane := hs.panes b q hq
      have hstage : stageOf s b = none := by
        rw [stageOf, hlock, Option.bind_some, if_neg (Ne.symm hb)]
      have hstage' : stageOf { s.setPane a p with lock := lock } b = none := by
        unfold stageOf
        cases lock with
        | none => rfl
        | some l =>
            have hne : l.1 ≠ b := fun heq => hb (heq ▸ hnext l.1 l.2 rfl)
            rw [Option.bind_some, if_neg hne]
      rw [hstage] at hpane
      rw [hstage']
      exact hpane
  entries := fun id b hb => by
    simp only [HandshakeState.setPane, AList.mem_insert]
    exact Or.inr (hs.entries id b hb)
  lock := fun b stage' hb => by
    simp only [HandshakeState.setPane, AList.mem_insert]
    exact Or.inl (hnext b stage' hb)

theorem stageOf_self {s : HandshakeState} {a : ℕ} {stage : RegistrationStage}
    (h : s.lock = some (a, stage)) : stageOf s a = some stage := by
  rw [stageOf, h, Option.bind_some, if_pos rfl]

theorem inv_setExitHook {s s' : HandshakeState} (hs : Inv s)
    (h : s.step .setExitHook = some s') : Inv s' := by
  simp only [HandshakeState.step] at h
  split at h
  case h_2 => cases h
  case h_1 a hlock =>
      rw [Option.map_eq_some_iff] at h
      obtain ⟨p, hp, rfl⟩ := h
      have hpane := hs.panes a p hp
      rw [stageOf_self hlock] at hpane
      apply hs.setStage hlock
      · intro b stage hb
        cases hb
        rfl
      · rw [stageOf_self (s := { s with lock := some (a, .hooked p.exitChecked) }) rfl]
        exact hpane.setExitHook

theorem inv_finishHook {s s' : HandshakeState} (hs : Inv s)
    (h : s.step .finishHook = some s') : Inv s' := by
  simp only [HandshakeState.step] at h
  split at h
  case h_3 => cases h
  case h_1 a hlock =>
      rw [Option.map_eq_some_iff] at h
      obtain ⟨p, hp, rfl⟩ := h
      have hpane := hs.panes a p hp
      rw [stageOf_self hlock] at hpane
      have hreg : s.isPane a p = true := hpane.inProgress (Option.some_ne_none _)
      have haccount : s.accountExit a p p.exitCode =
          { p with calls := (p.generation, p.exitCode) :: p.calls } := if_pos hreg
      rw [haccount]
      apply hs.setStage hlock
      · intro b stage hb
        cases hb
      · exact hpane.account
  case h_2 a hlock =>
      cases h
      obtain ⟨p, hp⟩ := Option.isSome_iff_exists.mp (AList.lookup_isSome.mpr (hs.lock a _ hlock))
      have hpane := hs.panes a p hp
      rw [stageOf_self hlock] at hpane
      refine ⟨fun b q hq => ?_, hs.entries, fun b stage hb => by cases hb⟩
      rw [stageOf_none (s := { s with lock := none }) rfl]
      by_cases hb : b = a
      · subst hb
        have heq : p = q := Option.some_inj.mp (hp.symm.trans hq)
        subst heq
        exact hpane.finishHook
      · have hother := hs.panes b q hq
        have hstage : stageOf s b = none := by
          rw [stageOf, hlock, Option.bind_some, if_neg (Ne.symm hb)]
        rw [hstage] at hother
        exact hother

theorem inv_step {s s' : HandshakeState} {e : HandshakeEvent} (hs : Inv s)
    (h : s.step e = some s') : Inv s' := by
  cases e with
  | spawn a id => exact inv_spawn hs h
  | register a => exact inv_register hs h
  | setExitHook => exact inv_setExitHook hs h
  | finishHook => exact inv_finishHook hs h
  | registerRestored id =>
      simp only [HandshakeState.step] at h
      split at h
      case isFalse => cases h
      case isTrue hlock =>
          cases h
          apply hs.setEntries hlock
          intro id' a hid
          by_cases heq : id' = id
          · rw [heq, AList.lookup_insert, Option.some_inj] at hid
            cases hid
          · rwa [AList.lookup_insert_ne heq] at hid
  | forget id =>
      simp only [HandshakeState.step] at h
      split at h
      case isFalse => cases h
      case isTrue hlock =>
          cases h
          apply hs.setEntries hlock
          intro id' a hid
          by_cases heq : id' = id
          · rw [heq, AList.lookup_erase] at hid
            cases hid
          · rwa [AList.lookup_erase_ne heq] at hid
  | respawn id =>
      simp only [HandshakeState.step] at h
      split at h
      case isFalse => cases h
      case isTrue hlock =>
          simp only [Option.bind_eq_some_iff] at h
          obtain ⟨a, _, p, hp, h⟩ := h
          split at h
          case isFalse => cases h
          case isTrue hreader =>
              cases h
              have hpane := hs.panes a p hp
              rw [stageOf_none hlock] at hpane
              apply hs.setPane
              rw [stageOf_none hlock]
              exact hpane.respawn hreader
  | reader a code =>
      simp only [HandshakeState.step, Option.bind_eq_some_iff, Option.map_eq_some_iff] at h
      obtain ⟨p, hp, p', hp', rfl⟩ := h
      exact hs.setPane (inv_readerNext hs hp hp')

/-- **An exit that was published while the pane was registered is accounted for exactly once, with
the code of its generation**, as soon as the registration of the pane is over; and `on_exit` is
never called twice for a generation. -/
theorem exit_accounted_once {es : List HandshakeEvent} {s : HandshakeState}
    (hrun : run HandshakeState.step .init es = some s) {a : ℕ} {p : HookedPane}
    (hp : s.panes.lookup a = some p) :
    (∀ g, (entriesOf g p.calls).length ≤ 1) ∧
      (stageOf s a = none → ∀ g ∈ p.published, Once p g) := by
  have hinv : Inv s := by
    apply run_invariant Inv (fun _ => True) _ (fun _ _ => trivial) inv_init hrun
    intro s e s' _ hs h
    exact inv_step hs h
  have hpane := hinv.panes a p hp
  refine ⟨hpane.atMostOnce, fun hstage g hg => ?_⟩
  apply hpane.once_of_published _ hg
  rw [hstage]
  rintro (h | h) <;> cases h

/-- The child exits while its pane is being registered, is restarted, and exits again. -/
def earlyExit : List HandshakeEvent :=
  [.spawn 0 7, .reader 0 (some 1), .reader 0 none, .register 0, .setExitHook, .reader 0 none,
    .reader 0 none, .finishHook, .respawn 7, .reader 0 (some 2), .reader 0 none, .reader 0 none,
    .reader 0 none]

theorem exit_accounted_once_early :
    ∃ s p, run HandshakeState.step .init earlyExit = some s ∧ s.panes.lookup 0 = some p ∧
      p.published = [1, 0] ∧ Once p 0 ∧ Once p 1 := by
  obtain ⟨s, p, hrun, hp, hstage, hpublished⟩ : ∃ s p,
      run HandshakeState.step .init earlyExit = some s ∧ s.panes.lookup 0 = some p ∧
        stageOf s 0 = none ∧ p.published = [1, 0] := ⟨_, _, rfl, rfl, rfl, rfl⟩
  have honce := (exit_accounted_once hrun hp).2 hstage
  refine ⟨s, p, hrun, hp, hpublished, honce 0 ?_, honce 1 ?_⟩
  · rw [hpublished]
    decide
  · rw [hpublished]
    decide

end Tymux.Analysis.Handshake
