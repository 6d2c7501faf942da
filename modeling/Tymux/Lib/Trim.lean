import Mathlib.Algebra.Ring.Nat
import Mathlib.Data.List.Basic
import Mathlib.Algebra.BigOperators.Group.List.Basic

/-!
# Logs under a weight budget

`trim weight budget` drops from the front of a list while what is left weighs more than the
budget, but never the last entry. What remains is the longest suffix that fits, so that a log
which is trimmed after every append is the trimmed list of everything ever appended, and how many
entries it has says how little the newest of them weigh.
-/

set_option autoImplicit false

namespace Tymux.Lib

variable {α : Type*} (weight : α → ℕ) (budget : ℕ)

def totalWeight (xs : List α) : ℕ := (xs.map weight).sum

def trim : List α → List α
  | x :: y :: xs =>
    if budget < totalWeight weight (x :: y :: xs) then trim (y :: xs) else x :: y :: xs
  | xs => xs

variable {weight budget}

@[simp] theorem totalWeight_nil : totalWeight weight [] = 0 := rfl

@[simp] theorem totalWeight_cons (x : α) (xs : List α) :
    totalWeight weight (x :: xs) = weight x + totalWeight weight xs := by
  simp [totalWeight]

@[simp] theorem totalWeight_append (xs ys : List α) :
    totalWeight weight (xs ++ ys) = totalWeight weight xs + totalWeight weight ys := by
  simp [totalWeight]

theorem totalWeight_suffix {xs ys : List α} (h : xs <:+ ys) :
    totalWeight weight xs ≤ totalWeight weight ys := by
  obtain ⟨dropped, rfl⟩ := h
  simp

theorem trim_suffix (xs : List α) : trim weight budget xs <:+ xs := by
  fun_induction trim weight budget xs with
  | case1 x y xs hover ih => exact ih.trans (List.suffix_cons ..)
  | case2 x y xs hfits => exact List.suffix_refl _
  | case3 xs hshort => exact List.suffix_refl _

@[simp] theorem getLast?_trim (xs : List α) : (trim weight budget xs).getLast? = xs.getLast? := by
  fun_induction trim weight budget xs with
  | case1 x y xs hover ih => rw [ih, List.getLast?_cons_cons]
  | case2 x y xs hfits => rfl
  | case3 xs hshort => rfl

theorem trim_fits (xs : List α) :
    totalWeight weight (trim weight budget xs) ≤ budget ∨ (trim weight budget xs).length ≤ 1 := by
  fun_induction trim weight budget xs with
  | case1 x y xs hover ih => exact ih
  | case2 x y xs hfits => exact Or.inl (Nat.le_of_not_lt hfits)
  | case3 xs hshort =>
      right
      match xs with
      | [] => simp
      | [x] => simp
      | x :: y :: xs => exact absurd rfl (hshort x y xs)

/-- What remains weighs no more than the budget, or than the newest entry where that is heavier. -/
theorem totalWeight_trim_le {xs : List α} {newest : α} (h : xs.getLast? = some newest) :
    totalWeight weight (trim weight budget xs) ≤ max budget (weight newest) := by
  obtain hfits | hone : totalWeight weight (trim weight budget xs) ≤ budget ∨
      (trim weight budget xs).length ≤ 1 := trim_fits xs
  · exact Nat.le_trans hfits (Nat.le_max_left ..)
  · have hlast : (trim weight budget xs).getLast? = xs.getLast? := getLast?_trim xs
    rw [h] at hlast
    obtain ⟨before, hbefore⟩ := List.getLast?_eq_some_iff.mp hlast
    rw [hbefore, List.length_append, List.length_singleton] at hone
    have hnil : before = [] := List.length_eq_zero_iff.mp (by omega)
    rw [hbefore, hnil, List.nil_append, totalWeight_cons, totalWeight_nil, Nat.add_zero]
    exact Nat.le_max_right ..

/-- Nothing is dropped that would have fitted: every longer suffix is too heavy. -/
theorem trim_longest {xs longer : List α} (hkept : trim weight budget xs <:+ longer)
    (hsuf : longer <:+ xs) (hne : longer ≠ trim weight budget xs) :
    budget < totalWeight weight longer := by
  fun_induction trim weight budget xs with
  | case1 x y xs hover ih =>
      obtain rfl | htail := List.suffix_cons_iff.mp hsuf
      · exact hover
      · exact ih hkept htail hne
  | case2 x y xs hfits =>
      exact absurd (hsuf.eq_of_length_le hkept.length_le) hne
  | case3 xs hshort => exact absurd (hsuf.eq_of_length_le hkept.length_le) hne

/-- **Trimming as one goes.** To trim before an append changes nothing of what remains after it. -/
theorem trim_append (xs : List α) (x : α) :
    trim weight budget (trim weight budget xs ++ [x]) = trim weight budget (xs ++ [x]) := by
  fun_induction trim weight budget xs with
  | case1 y z xs hover ih =>
      have hmore : budget < totalWeight weight (y :: z :: (xs ++ [x])) := by
        simp only [totalWeight_cons, totalWeight_append] at hover ⊢
        omega
      rw [ih]
      exact (if_pos hmore).symm
  | case2 y z xs hfits => rfl
  | case3 xs hshort => rfl

/-- How many entries remain, by what the newest of all entries weigh. -/
theorem length_trim_le_iff {xs : List α} {n : ℕ} (hn : 1 ≤ n) :
    (trim weight budget xs).length ≤ n ↔
      ∀ newest, newest <:+ xs → newest.length = n + 1 → budget < totalWeight weight newest := by
  constructor
  · intro hle newest hsuf hlength
    have hkept : trim weight budget xs <:+ newest := by
      apply List.suffix_of_suffix_length_le (trim_suffix xs) hsuf
      omega
    apply trim_longest hkept hsuf
    intro heq
    rw [heq] at hlength
    omega
  · intro hheavy
    by_contra hgt
    have hlong : n + 1 ≤ (trim weight budget xs).length := by omega
    let newest := (trim weight budget xs).drop ((trim weight budget xs).length - (n + 1))
    have hnewest : newest <:+ trim weight budget xs := List.drop_suffix ..
    have hlength : newest.length = n + 1 := by
      simp only [newest, List.length_drop]
      omega
    have hover := hheavy newest (hnewest.trans (trim_suffix xs)) hlength
    have hweight : totalWeight weight newest ≤ totalWeight weight (trim weight budget xs) :=
      totalWeight_suffix hnewest
    obtain hfits | hone : totalWeight weight (trim weight budget xs) ≤ budget ∨
      (trim weight budget xs).length ≤ 1 := trim_fits xs
    · omega
    · omega

end Tymux.Lib
