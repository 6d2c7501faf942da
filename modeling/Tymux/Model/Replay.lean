import Tymux.Model.Basic
import Mathlib.Data.List.Basic

/-!
# The replay buffer

`replay_buffer.rs`: the recent output chunks of a pane, oldest first, under a byte budget.
-/

set_option autoImplicit false

namespace Tymux.Model

/-- SRC: replay_buffer.rs:67-76 -/
inductive ReplayOutcome where
  | inWindow (chunks : List (ℕ × List UInt8)) (tailSeq : ℕ)
  | gapExceeded (oldestAvailableSeq : Option ℕ)
  deriving DecidableEq, Repr

/-- SRC: replay_buffer.rs:82-86 -/
structure ReplayBuffer where
  entries : List (ℕ × List UInt8)
  totalBytes : ℕ
  budgetBytes : ℕ
  deriving DecidableEq, Repr

namespace ReplayBuffer

/-- SRC: replay_buffer.rs:89-95 -/
def new (budgetBytes : ℕ) : ReplayBuffer := ⟨[], 0, budgetBytes⟩

/-- The loop of `push`: entries go from the front while the budget is exceeded, but never the
last one.
SRC: replay_buffer.rs:104-108 -/
def evict (budgetBytes : ℕ) : ℕ → List (ℕ × List UInt8) → ℕ × List (ℕ × List UInt8)
  | totalBytes, e :: e' :: entries =>
    if budgetBytes < totalBytes then evict budgetBytes (totalBytes - e.2.length) (e' :: entries)
    else (totalBytes, e :: e' :: entries)
  | totalBytes, entries => (totalBytes, entries)

/-- SRC: replay_buffer.rs:101-109 -/
def push (r : ReplayBuffer) (seq : ℕ) (data : List UInt8) : ReplayBuffer :=
  let kept := evict r.budgetBytes (r.totalBytes + data.length) (r.entries ++ [(seq, data)])
  { r with totalBytes := kept.1, entries := kept.2 }

/-- SRC: replay_buffer.rs:117-119 -/
def oldestSeq (r : ReplayBuffer) : Option ℕ := r.entries.head?.map Prod.fst

/-- SRC: replay_buffer.rs:135-160 -/
def replaySince (r : ReplayBuffer) (resumeFromSeq latestSeq : ℕ) : ReplayOutcome :=
  if latestSeq < resumeFromSeq then .gapExceeded r.oldestSeq
  else
    let availableFrom := r.oldestSeq.getD latestSeq
    if availableFrom ≤ resumeFromSeq then
      .inWindow (r.entries.filter fun e => resumeFromSeq < e.1 ∧ e.1 ≤ latestSeq) latestSeq
    else .gapExceeded r.oldestSeq

theorem evict_suffix (budgetBytes totalBytes : ℕ) (entries : List (ℕ × List UInt8)) :
    (evict budgetBytes totalBytes entries).2 <:+ entries ∧
      (entries ≠ [] → (evict budgetBytes totalBytes entries).2 ≠ []) := by
  fun_induction evict budgetBytes totalBytes entries with
  | case1 totalBytes e e' entries hover ih =>
      exact ⟨ih.1.trans (List.suffix_cons ..), fun _ => ih.2 (by simp)⟩
  | case2 totalBytes e e' entries hover => exact ⟨List.suffix_refl _, fun h => h⟩
  | case3 totalBytes entries hshort => exact ⟨List.suffix_refl _, fun h => h⟩

/-- INTERNAL: a push keeps a suffix, and at least the new entry.
SRC: replay_buffer.rs:101-109 -/
theorem push_suffix (r : ReplayBuffer) (seq : ℕ) (data : List UInt8) :
    (r.push seq data).entries <:+ r.entries ++ [(seq, data)] ∧ (r.push seq data).entries ≠ [] := by
  obtain ⟨hsuf, hne⟩ := evict_suffix r.budgetBytes (r.totalBytes + data.length)
    (r.entries ++ [(seq, data)])
  exact ⟨hsuf, hne (by simp)⟩

/-- The entries of another buffer pushed into this one, as the import of a handoff does.
SRC: pane/handoff.rs:81-83 -/
def pushAll (r : ReplayBuffer) (entries : List (ℕ × List UInt8)) : ReplayBuffer :=
  entries.foldl (fun r e => r.push e.1 e.2) r

theorem pushAll_suffix (r : ReplayBuffer) (entries : List (ℕ × List UInt8)) :
    (r.pushAll entries).entries <:+ r.entries ++ entries ∧
      (r.entries ++ entries ≠ [] → (r.pushAll entries).entries ≠ []) := by
  induction entries generalizing r with
  | nil => simp [pushAll]
  | cons e entries ih =>
      obtain ⟨hsuf, hne⟩ := ih (r.push e.1 e.2)
      obtain ⟨hpush, hpushed⟩ := r.push_suffix e.1 e.2
      constructor
      · apply hsuf.trans
        obtain ⟨dropped, hdropped⟩ := hpush
        refine ⟨dropped, ?_⟩
        rw [← List.append_assoc, hdropped]
        simp
      · intro _
        exact hne (by simp [hpushed])

/-- INTERNAL: an answer within the window is every retained chunk after the resume point, up
to the latest. -/
theorem replaySince_cases (r : ReplayBuffer) (resumeFromSeq latestSeq : ℕ) :
    (∃ oldest, r.replaySince resumeFromSeq latestSeq = .gapExceeded oldest) ∨
      resumeFromSeq ≤ latestSeq ∧ r.oldestSeq.getD latestSeq ≤ resumeFromSeq ∧
        r.replaySince resumeFromSeq latestSeq =
          .inWindow (r.entries.filter fun e => resumeFromSeq < e.1 ∧ e.1 ≤ latestSeq)
            latestSeq := by
  unfold replaySince
  by_cases hfuture : latestSeq < resumeFromSeq
  · rw [if_pos hfuture]
    exact Or.inl ⟨_, rfl⟩
  · rw [if_neg hfuture]
    by_cases hwindow : r.oldestSeq.getD latestSeq ≤ resumeFromSeq
    · rw [if_pos hwindow]
      exact Or.inr ⟨by omega, hwindow, rfl⟩
    · rw [if_neg hwindow]
      exact Or.inl ⟨_, rfl⟩

end ReplayBuffer

end Tymux.Model
