import Mathlib.Data.List.AList

/-!
# Maps filled by a loop

A loop that inserts one entry per element of a list keeps, for each key, the entry of the last
element with that key.
-/

set_option autoImplicit false

namespace Tymux.Lib

variable {κ α β : Type} [DecidableEq κ] (key : α → κ) (val : α → β)

/-- The entries of the list inserted into `m`, one after the other. -/
def fill (m : AList fun _ : κ => β) (l : List α) : AList fun _ : κ => β :=
  l.foldl (fun m x => m.insert (key x) (val x)) m

/-- The elements that no later element with the same key replaces. -/
def lastOf : List α → List α
  | [] => []
  | x :: l => if key x ∈ l.map key then lastOf l else x :: lastOf l

theorem lookup_fill_of_notMem (m : AList fun _ : κ => β) {l : List α} {k : κ}
    (h : k ∉ l.map key) : (fill key val m l).lookup k = m.lookup k := by
  induction l generalizing m with
  | nil => rfl
  | cons x l ih =>
      rw [List.map_cons, List.mem_cons, not_or] at h
      calc (fill key val (m.insert (key x) (val x)) l).lookup k
          = (m.insert (key x) (val x)).lookup k := ih _ h.2
        _ = m.lookup k := AList.lookup_insert_ne h.1

theorem lookup_fill (m : AList fun _ : κ => β) {l : List α} {x : α} (h : x ∈ lastOf key l) :
    (fill key val m l).lookup (key x) = some (val x) := by
  induction l generalizing m with
  | nil => exact absurd h List.not_mem_nil
  | cons y l ih =>
      unfold lastOf at h
      split at h
      · exact ih _ h
      · rename_i hlast
        rcases List.mem_cons.mp h with rfl | htail
        · apply (lookup_fill_of_notMem key val _ hlast).trans
          apply AList.lookup_insert
        · exact ih _ htail

theorem lastOf_subset {l : List α} {x : α} (h : x ∈ lastOf key l) : x ∈ l := by
  induction l with
  | nil => exact h
  | cons y l ih =>
      unfold lastOf at h
      split at h
      · exact List.mem_cons_of_mem _ (ih h)
      · rcases List.mem_cons.mp h with rfl | htail
        · exact List.mem_cons_self
        · exact List.mem_cons_of_mem _ (ih htail)

theorem exists_lastOf {l : List α} {k : κ} (h : k ∈ l.map key) : ∃ x ∈ lastOf key l, key x = k := by
  induction l with
  | nil => exact absurd h List.not_mem_nil
  | cons y l ih =>
      unfold lastOf
      split
      · rename_i hlater
        apply ih
        rcases List.mem_cons.mp h with rfl | htail
        · exact hlater
        · exact htail
      · rcases List.mem_cons.mp h with rfl | htail
        · exact ⟨y, List.mem_cons_self, rfl⟩
        · obtain ⟨x, hx, hkey⟩ := ih htail
          exact ⟨x, List.mem_cons_of_mem _ hx, hkey⟩

theorem nodup_lastOf (l : List α) : ((lastOf key l).map key).Nodup := by
  induction l with
  | nil => exact List.nodup_nil
  | cons y l ih =>
      unfold lastOf
      split
      · exact ih
      · rename_i hlast
        apply List.nodup_cons.mpr
        refine ⟨fun hmem => hlast ?_, ih⟩
        obtain ⟨x, hx, hkey⟩ := List.mem_map.mp hmem
        exact List.mem_map.mpr ⟨x, lastOf_subset key hx, hkey⟩

theorem lastOf_eq_self {l : List α} (h : (l.map key).Nodup) : lastOf key l = l := by
  induction l with
  | nil => rfl
  | cons y l ih =>
      rw [List.map_cons, List.nodup_cons] at h
      unfold lastOf
      rw [if_neg h.1, ih h.2]

/-- With distinct keys every element has its entry. -/
theorem lookup_fill_of_nodup (m : AList fun _ : κ => β) {l : List α} (h : (l.map key).Nodup)
    {x : α} (hx : x ∈ l) : (fill key val m l).lookup (key x) = some (val x) := by
  apply lookup_fill
  rwa [lastOf_eq_self key h]

/-- INTERNAL: The map filled from nothing has exactly the entries of the last elements. -/
theorem entries_fill_perm (l : List α) :
    (fill key val ∅ l).entries.Perm ((lastOf key l).map fun x => ⟨key x, val x⟩) := by
  have hkeys : ((lastOf key l).map fun x => (⟨key x, val x⟩ : Σ _ : κ, β)).NodupKeys := by
    unfold List.NodupKeys List.keys
    rw [List.map_map]
    exact nodup_lastOf key l
  apply (List.perm_ext_iff_of_nodup (fill key val ∅ l).nodupKeys.nodup hkeys.nodup).mpr
  rintro ⟨k, b⟩
  have hentry : ⟨k, b⟩ ∈ (fill key val ∅ l).entries ↔ (fill key val ∅ l).lookup k = some b :=
    AList.mem_lookup_iff.symm
  rw [hentry, List.mem_map]
  by_cases hk : k ∈ l.map key
  · obtain ⟨x, hx, rfl⟩ := exists_lastOf key hk
    rw [lookup_fill key val ∅ hx]
    constructor
    · intro h
      exact ⟨x, hx, by rw [Option.some.inj h]⟩
    · rintro ⟨y, hy, hxy⟩
      obtain ⟨hkey, hval⟩ := Sigma.mk.inj_iff.mp hxy
      have hsame : y = x := List.inj_on_of_nodup_map (nodup_lastOf key l) hy hx hkey
      rw [← hsame, eq_of_heq hval]
  · rw [lookup_fill_of_notMem key val ∅ hk, AList.lookup_empty]
    constructor
    · intro h
      cases h
    · rintro ⟨y, hy, hxy⟩
      obtain ⟨rfl, -⟩ := Sigma.mk.inj_iff.mp hxy
      exact absurd (List.mem_map_of_mem (lastOf_subset key hy)) hk

end Tymux.Lib
