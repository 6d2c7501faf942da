import Mathlib.Data.List.AList

/-!
# Maps and the lists they are an index of

`collect f m` lists what the entries of a map contribute, up to order: an entry can be taken out,
put in or replaced. `Mirrors m l` says that the map `m` is the index of the list `l` of pairs, whose
keys are distinct. There is one rule for each update of an index.
-/

set_option autoImplicit false

namespace Tymux.Lib

variable {κ ν γ : Type*} [DecidableEq κ]

/-! ## What is looked up after an update -/

section Lookup

variable {m : AList fun _ : κ => ν} {k k' : κ} {v v' : ν}

/-- What is found after an insertion was inserted, or was there before. -/
theorem lookup_of_insert (h : (m.insert k v).lookup k' = some v') :
    (k' = k ∧ v' = v) ∨ m.lookup k' = some v' := by
  by_cases hk : k' = k
  · subst hk
    rw [AList.lookup_insert, Option.some_inj] at h
    exact Or.inl ⟨rfl, h.symm⟩
  · rw [AList.lookup_insert_ne hk] at h
    exact Or.inr h

theorem lookup_of_erase (h : (m.erase k).lookup k' = some v') :
    k' ≠ k ∧ m.lookup k' = some v' := by
  by_cases hk : k' = k
  · subst hk
    rw [AList.lookup_erase] at h
    cases h
  · rw [AList.lookup_erase_ne hk] at h
    exact ⟨hk, h⟩

theorem lookup_foldl_erase (ks : List κ) (m : AList fun _ : κ => ν) {k : κ} {v : ν}
    (h : (ks.foldl (fun m x => m.erase x) m).lookup k = some v) : m.lookup k = some v := by
  induction ks generalizing m with
  | nil => exact h
  | cons x ks ih => exact (lookup_of_erase (ih (m.erase x) h)).2

theorem lookup_foldl_erase_of_notMem (ks : List κ) (m : AList fun _ : κ => ν) {k : κ}
    (h : k ∉ ks) : (ks.foldl (fun m x => m.erase x) m).lookup k = m.lookup k := by
  induction ks generalizing m with
  | nil => rfl
  | cons x ks ih =>
      rw [List.mem_cons, not_or] at h
      rw [List.foldl_cons, ih (m.erase x) h.2, AList.lookup_erase_ne h.1]

theorem lookup_foldl_insert (es : List (κ × ν)) (m : AList fun _ : κ => ν) {k : κ} {v : ν}
    (h : (es.foldl (fun m e => m.insert e.1 e.2) m).lookup k = some v) :
    (k, v) ∈ es ∨ m.lookup k = some v := by
  induction es generalizing m with
  | nil => exact Or.inr h
  | cons e es ih =>
      obtain hmem | hinsert := ih (m.insert e.1 e.2) h
      · exact Or.inl (List.mem_cons_of_mem _ hmem)
      · obtain ⟨rfl, rfl⟩ | hold := lookup_of_insert hinsert
        · exact Or.inl List.mem_cons_self
        · exact Or.inr hold

theorem mem_foldl_insert (es : List (κ × ν)) (m : AList fun _ : κ => ν) (k : κ) :
    k ∈ es.foldl (fun m e => m.insert e.1 e.2) m ↔ k ∈ es.map Prod.fst ∨ k ∈ m := by
  induction es generalizing m with
  | nil => simp
  | cons e es ih =>
      rw [List.foldl_cons, ih, AList.mem_insert, List.map_cons, List.mem_cons]
      tauto

end Lookup

/-! ## What the entries contribute -/

section Collect

variable (f : κ → ν → List γ)

/-- What the entries of a map contribute, one after the other. -/
def collect (m : AList fun _ : κ => ν) : List γ := m.entries.flatMap fun e => f e.1 e.2

variable {f}

theorem mem_collect {m : AList fun _ : κ => ν} {x : γ} :
    x ∈ collect f m ↔ ∃ k v, m.lookup k = some v ∧ x ∈ f k v := by
  unfold collect
  rw [List.mem_flatMap]
  constructor
  · rintro ⟨⟨k, v⟩, he, hx⟩
    exact ⟨k, v, AList.mem_lookup_iff.mpr he, hx⟩
  · rintro ⟨k, v, hk, hx⟩
    exact ⟨⟨k, v⟩, AList.mem_lookup_iff.mp hk, hx⟩

/-- An entry can be taken out first. -/
theorem collect_of_lookup {m : AList fun _ : κ => ν} {k : κ} {v : ν} (h : m.lookup k = some v) :
    (collect f m).Perm (f k v ++ collect f (m.erase k)) := by
  have hmem : k ∈ m.entries.keys := AList.lookup_isSome.mp (by rw [h]; rfl)
  obtain ⟨w, before, after, hbefore, hentries, herase⟩ := List.exists_of_kerase hmem
  have hw : m.lookup k = some w := by
    apply AList.mem_lookup_iff.mpr
    rw [hentries]
    exact List.mem_append_right _ List.mem_cons_self
  rw [h, Option.some_inj] at hw
  have hrest : (m.erase k).entries = before ++ after := herase
  unfold collect
  rw [hentries, hrest, ← hw]
  simp only [List.flatMap_append, List.flatMap_cons]
  rw [← List.append_assoc, ← List.append_assoc]
  exact List.perm_append_comm.append_right _

theorem collect_insert (m : AList fun _ : κ => ν) (k : κ) (v : ν) :
    (collect f (m.insert k v)).Perm (f k v ++ collect f (m.erase k)) := by
  unfold collect
  rw [AList.entries_insert, List.flatMap_cons]
  exact List.Perm.refl _

theorem collect_erase_of_none {m : AList fun _ : κ => ν} {k : κ} (h : m.lookup k = none) :
    collect f (m.erase k) = collect f m := by
  have herase : (m.erase k).entries = m.entries :=
    List.kerase_of_notMem_keys (AList.lookup_eq_none.mp h)
  unfold collect
  rw [herase]

/-- A new key contributes its own part. -/
theorem collect_insert_of_none {m : AList fun _ : κ => ν} {k : κ} (v : ν) (h : m.lookup k = none) :
    (collect f (m.insert k v)).Perm (f k v ++ collect f m) := by
  have hinsert := collect_insert (f := f) m k v
  rwa [collect_erase_of_none h] at hinsert

/-- Where the contribution of a key grows by `more`, the whole does. -/
theorem collect_insert_grow {m : AList fun _ : κ => ν} {k : κ} {v v' : ν} {more : List γ}
    (h : m.lookup k = some v) (hmore : (f k v').Perm (more ++ f k v)) :
    (collect f (m.insert k v')).Perm (more ++ collect f m) := by
  refine (collect_insert m k v').trans ?_
  refine (hmore.append_right _).trans ?_
  rw [List.append_assoc]
  exact ((collect_of_lookup h).symm).append_left more

/-- Where the contribution of a key shrinks by `less`, the whole does. -/
theorem collect_insert_shrink {m : AList fun _ : κ => ν} {k : κ} {v v' : ν} {less : List γ}
    (h : m.lookup k = some v) (hless : (f k v).Perm (less ++ f k v')) :
    (collect f m).Perm (less ++ collect f (m.insert k v')) := by
  refine (collect_of_lookup h).trans ?_
  refine (hless.append_right _).trans ?_
  rw [List.append_assoc]
  exact ((collect_insert m k v').symm).append_left less

end Collect

/-! ## Indices -/

/-- The map is the index of the list, whose keys are distinct. -/
structure Mirrors (m : AList fun _ : κ => ν) (l : List (κ × ν)) : Prop where
  nodup : (l.map Prod.fst).Nodup
  lookup : ∀ k v, m.lookup k = some v ↔ (k, v) ∈ l

theorem mirrors_empty : Mirrors (∅ : AList fun _ : κ => ν) [] where
  nodup := List.nodup_nil
  lookup k v := by simp

namespace Mirrors

variable {m : AList fun _ : κ => ν} {l l' : List (κ × ν)}

theorem perm (h : Mirrors m l) (hl : l'.Perm l) : Mirrors m l' where
  nodup := (hl.map Prod.fst).nodup_iff.mpr h.nodup
  lookup k v := (h.lookup k v).trans hl.mem_iff.symm

theorem mem_iff (h : Mirrors m l) (k : κ) : k ∈ m ↔ k ∈ l.map Prod.fst := by
  rw [← AList.lookup_isSome, Option.isSome_iff_exists, List.mem_map]
  constructor
  · rintro ⟨v, hv⟩
    exact ⟨(k, v), (h.lookup k v).mp hv, rfl⟩
  · rintro ⟨⟨k', v⟩, hmem, rfl⟩
    exact ⟨v, (h.lookup k' v).mpr hmem⟩

theorem insert (h : Mirrors m l) {k : κ} (hk : k ∉ l.map Prod.fst) (v : ν) :
    Mirrors (m.insert k v) ((k, v) :: l) where
  nodup := List.nodup_cons.mpr ⟨hk, h.nodup⟩
  lookup k' v' := by
    by_cases hk' : k' = k
    · subst hk'
      have hnot : (k', v') ∉ l := fun hmem => hk (List.mem_map_of_mem hmem)
      rw [AList.lookup_insert, Option.some_inj, List.mem_cons, Prod.mk.injEq]
      constructor
      · rintro rfl
        exact Or.inl ⟨rfl, rfl⟩
      · rintro (⟨-, rfl⟩ | hmem)
        · rfl
        · exact absurd hmem hnot
    · rw [AList.lookup_insert_ne hk', h.lookup, List.mem_cons, Prod.mk.injEq]
      constructor
      · exact Or.inr
      · rintro (⟨hfst, -⟩ | hmem)
        · exact absurd hfst hk'
        · exact hmem

theorem erase {k : κ} {v : ν} (h : Mirrors m ((k, v) :: l)) : Mirrors (m.erase k) l where
  nodup := (List.nodup_cons.mp h.nodup).2
  lookup k' v' := by
    by_cases hk' : k' = k
    · subst hk'
      have hnot : (k', v') ∉ l := by
        intro hmem
        apply (List.nodup_cons.mp h.nodup).1
        exact List.mem_map.mpr ⟨(k', v'), hmem, rfl⟩
      rw [AList.lookup_erase]
      constructor
      · intro hnone
        cases hnone
      · intro hmem
        exact absurd hmem hnot
    · rw [AList.lookup_erase_ne hk', h.lookup, List.mem_cons, Prod.mk.injEq]
      constructor
      · rintro (⟨hfst, -⟩ | hmem)
        · exact absurd hfst hk'
        · exact hmem
      · exact Or.inr

/-- The keys of a part of the list are erased one after the other. -/
theorem eraseAll (gone : List (κ × ν)) (h : Mirrors m (gone ++ l)) :
    Mirrors ((gone.map Prod.fst).foldl (fun m k => m.erase k) m) l := by
  induction gone generalizing m with
  | nil => exact h
  | cons e gone ih => exact ih h.erase

end Mirrors

end Tymux.Lib
