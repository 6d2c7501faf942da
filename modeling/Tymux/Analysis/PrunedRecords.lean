import Tymux.Model.Pruning
import Mathlib.Algebra.Ring.Int.Defs

/-!
# Only old records are pruned

The loop takes away what is a record, not of the future and older than it was told. How old is the
product of the days in 64 bits, which may have wrapped around: then it takes the records between the
two ages as well, unless nothing is left of the product and pruning is switched off.
-/

set_option autoImplicit false

namespace Tymux.Analysis.PrunedRecords

open Tymux.Model

/-! ## What a record is -/

/-- The name of a record: its session, and `.json` behind it. -/
def IsRecord (name : OsString) : Prop := ∃ session, session ≠ [] ∧ name = session ++ osString ".json"

theorem extension_eq_iff {name ext : OsString} (hfree : period ∉ ext) (hext : ext ≠ []) :
    extension name = some ext ↔ ∃ stem, stem ≠ [] ∧ name = stem ++ period :: ext := by
  have hsplit : name.reverse.takeWhile (· ≠ period) ++ name.reverse.dropWhile (· ≠ period) =
      name.reverse := List.takeWhile_append_dropWhile
  constructor
  · intro h
    unfold extension at h
    split at h
    · cases h
    · split at h
      · rename_i c d rest hdrop
        have hc : c = period := by
          have hhead := List.head?_dropWhile_not (· ≠ period) name.reverse
          rw [hdrop] at hhead
          simpa using hhead
        refine ⟨(d :: rest).reverse, by simp, ?_⟩
        rw [hdrop, hc] at hsplit
        have hback := congrArg List.reverse hsplit
        rw [List.reverse_reverse, List.reverse_append, Option.some.inj h, List.reverse_cons] at hback
        rw [← hback, List.append_assoc]
        rfl
      · cases h
  · rintro ⟨stem, hstem, rfl⟩
    obtain ⟨d, rest, hrest⟩ := List.exists_cons_of_ne_nil (List.reverse_ne_nil_iff.mpr hstem)
    have hne : ∀ c ∈ ext.reverse, decide (c ≠ period) = true := fun c hc =>
      decide_eq_true fun heq => hfree (heq ▸ List.mem_reverse.mp hc)
    have hrev : (stem ++ period :: ext).reverse = ext.reverse ++ period :: d :: rest := by
      rw [List.reverse_append, List.reverse_cons, hrest, List.append_assoc]
      rfl
    have hdots : stem ++ period :: ext ≠ [period, period] := by
      intro hdots
      obtain ⟨init, last, rfl⟩ := (List.eq_nil_or_concat ext).resolve_left hext
      have hends : (stem ++ period :: init) ++ [last] = [period] ++ [period] := by
        rw [List.concat_eq_append] at hdots
        rw [List.append_assoc, List.cons_append, hdots]
        rfl
      have hlast : last = period := (List.append_singleton_inj.mp hends).2
      exact hfree (by simp [hlast])
    unfold extension
    rw [if_neg hdots, hrev, List.dropWhile_append_of_pos hne, List.takeWhile_append_of_pos hne,
      List.dropWhile_cons_of_neg (by simp), List.takeWhile_cons_of_neg (by simp), List.append_nil,
      List.reverse_reverse]

theorem extension_eq_json_iff {name : OsString} :
    extension name = some (osString "json") ↔ IsRecord name :=
  extension_eq_iff (by decide) (by decide)


/-! ## What is taken -/

variable {dir : ReadDir} {maxAge : ℕ} {now : ℤ} {e : DirEntry} {env : Environment}

/-- A record that can be removed, and is older than `maxAge`, which none of the future is. -/
structure Taken (maxAge : ℕ) (now : ℤ) (e : DirEntry) : Prop where
  record : IsRecord e.fileName
  aged : ∃ modified, e.modified = some modified ∧ (maxAge : ℤ) < now - modified
  removable : e.removable = true

/-- One round takes its entry away, or leaves it. -/
theorem pruneEntry_cases (maxAge : ℕ) (now : ℤ) (p : Pruned) (e : DirEntry) :
    (Taken maxAge now e ∧ pruneEntry maxAge now p e = ⟨p.removed ++ [e], p.pruned + 1⟩) ∨
      (¬ Taken maxAge now e ∧ pruneEntry maxAge now p e = p) := by
  unfold pruneEntry
  split
  · rename_i hext
    exact Or.inr ⟨fun h => hext (extension_eq_json_iff.mpr h.record), rfl⟩
  · rename_i hext
    have hrecord := extension_eq_json_iff.mp (not_not.mp hext)
    split
    · rename_i hmodified
      refine Or.inr ⟨fun h => ?_, rfl⟩
      obtain ⟨modified, hsome, _⟩ := h.aged
      rw [hmodified] at hsome
      cases hsome
    · rename_i modified hmodified
      have hage : Taken maxAge now e → (maxAge : ℤ) < now - modified := by
        intro h
        obtain ⟨other, hsome, hlt⟩ := h.aged
        rw [hmodified, Option.some_inj] at hsome
        rwa [hsome]
      split
      · exact Or.inr ⟨fun h => by have hlt := hage h; omega, rfl⟩
      · split
        · exact Or.inr ⟨fun h => by have hlt := hage h; omega, rfl⟩
        · rename_i hold
          split
          · rename_i hremovable
            exact Or.inl ⟨⟨hrecord, ⟨modified, hmodified, Int.not_le.mp hold⟩, hremovable⟩, rfl⟩
          · rename_i hremovable
            exact Or.inr ⟨fun h => hremovable h.removable, rfl⟩

theorem mem_foldl_pruneEntry (es : List DirEntry) (p : Pruned) :
    e ∈ (es.foldl (pruneEntry maxAge now) p).removed ↔
      e ∈ p.removed ∨ (e ∈ es ∧ Taken maxAge now e) := by
  induction es generalizing p with
  | nil => simp
  | cons f es ih =>
      rw [List.foldl_cons, ih]
      obtain ⟨htaken, hp⟩ | ⟨htaken, hp⟩ := pruneEntry_cases maxAge now p f
      · rw [hp, List.mem_append, List.mem_singleton, List.mem_cons, or_assoc]
        refine or_congr_right ⟨?_, ?_⟩
        · rintro (rfl | ⟨hes, he⟩)
          · exact ⟨Or.inl rfl, htaken⟩
          · exact ⟨Or.inr hes, he⟩
        · rintro ⟨rfl | hes, he⟩
          · exact Or.inl rfl
          · exact Or.inr ⟨hes, he⟩
      · rw [hp, List.mem_cons]
        refine or_congr_right (and_congr_left fun he => (or_iff_right ?_).symm)
        rintro rfl
        exact htaken he

theorem mem_pruneStaleAt :
    e ∈ (pruneStaleAt dir maxAge now).removed ↔ e ∈ dir.entries ∧ Taken maxAge now e := by
  unfold pruneStaleAt
  rw [mem_foldl_pruneEntry]
  exact or_iff_right List.not_mem_nil

/-! ## The age in days -/

/-- `d` days in seconds, and as they come out of 64 bits. -/
def seconds (days : UInt64) : ℕ := days.toNat * 86400

def wrapped (days : UInt64) : ℕ := seconds days % 2 ^ 64

/-- The variable that tells the age. -/
def maxAgeDays : String := "TYMUXD_STALE_SESSION_MAX_AGE_DAYS"

variable {days : UInt64}

theorem mem_startupPrune (hdays : (env.var maxAgeDays).bind parseU64 = some days) :
    e ∈ (startupPrune env dir now).removed ↔
      wrapped days ≠ 0 ∧ e ∈ dir.entries ∧ Taken (wrapped days * 10 ^ 9) now e := by
  have hage : staleSessionMaxAge env = days * 86400 := by
    unfold staleSessionMaxAge
    unfold maxAgeDays at hdays
    rw [hdays, Option.map_some, Option.getD_some]
  have hnat : (days * 86400).toNat = wrapped days := UInt64.toNat_mul days 86400
  have hzero : days * 86400 = 0 ↔ wrapped days = 0 := by
    rw [← hnat, ← UInt64.toNat_inj]
    rfl
  unfold startupPrune
  rw [hage]
  split
  · rename_i hoff
    exact iff_of_false List.not_mem_nil fun h => h.1 (hzero.mp hoff)
  · rename_i hon
    rw [hnat, mem_pruneStaleAt, and_iff_right (mt hzero.mpr hon)]

/-- Pruning is on, and the file is older than `d` days. -/
structure Old (days : UInt64) (now : ℤ) (e : DirEntry) : Prop where
  positive : 0 < days
  aged : ∃ modified, e.modified = some modified ∧ ((seconds days * 10 ^ 9 : ℕ) : ℤ) < now - modified

/-- The file is a record, and not of the future. -/
structure Proper (now : ℤ) (e : DirEntry) : Prop where
  record : IsRecord e.fileName
  past : ∃ modified, e.modified = some modified ∧ modified ≤ now

/-- The days fit in 64 bits, or nothing is left of them, or no record that can be removed is of an age
between what is left and the days. -/
def Spared (days : UInt64) (dir : ReadDir) (now : ℤ) : Prop :=
  seconds days < 2 ^ 64 ∨ wrapped days = 0 ∨
    ∀ e ∈ dir.entries, IsRecord e.fileName → e.removable = true →
      ∀ modified, e.modified = some modified →
        ¬ (((wrapped days * 10 ^ 9 : ℕ) : ℤ) < now - modified ∧
          now - modified ≤ ((seconds days * 10 ^ 9 : ℕ) : ℤ))

end Tymux.Analysis.PrunedRecords
