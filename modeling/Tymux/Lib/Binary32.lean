import Mathlib.Data.Int.Log
import Mathlib.Data.Rat.Floor
import Mathlib.Tactic.Linarith
import Mathlib.Tactic.Positivity
import Mathlib.Tactic.FieldSimp

/-!
# Single-precision numbers

The values of an IEEE 754 `binary32`, up to the sign of zero, with the operations of a program
that adds and multiplies them: the exact rational result is rounded to the nearest multiple of
the quantum at its magnitude, ties to even. The fact a program relies on here is that rounding
never passes an integer: `ofRat_le`.
-/

set_option autoImplicit false

namespace Tymux.Lib

inductive F32 where
  | finite (value : ℚ)
  | inf (negative : Bool)
  | nan
  deriving DecidableEq, Repr

/-- The nearest integer, ties to even. -/
def roundEven (x : ℚ) : ℤ :=
  if x - ⌊x⌋ < 1 / 2 then ⌊x⌋
  else if 1 / 2 < x - ⌊x⌋ then ⌊x⌋ + 1
  else if ⌊x⌋ % 2 = 0 then ⌊x⌋
  else ⌊x⌋ + 1

theorem roundEven_le {x : ℚ} {n : ℤ} (h : x ≤ n) : roundEven x ≤ n := by
  have hfloor : ⌊x⌋ ≤ n := by
    have hle := Int.floor_mono h
    rwa [Int.floor_intCast] at hle
  have hup : ¬ x - ⌊x⌋ < 1 / 2 → ⌊x⌋ + 1 ≤ n := by
    intro hfrac
    have hlt : (⌊x⌋ : ℚ) < n := by linarith
    exact_mod_cast hlt
  unfold roundEven
  split_ifs with hlow
  · exact hfloor
  · exact hup hlow
  · exact hfloor
  · exact hup hlow

theorem roundEven_nonneg {x : ℚ} (h : 0 ≤ x) : 0 ≤ roundEven x := by
  have hfloor : 0 ≤ ⌊x⌋ := Int.floor_nonneg.mpr h
  unfold roundEven
  split_ifs <;> omega

/-- The exponent of the quantum: 23 binary places below the magnitude of `x`. -/
def quantumExponent (x : ℚ) : ℤ := max (-126) (Int.log 2 |x|) - 23

def quantum (x : ℚ) : ℚ := 2 ^ quantumExponent x

theorem quantum_pos (x : ℚ) : 0 < quantum x := by
  unfold quantum
  exact zpow_pos (by norm_num) _

namespace F32

/-- The rational rounded to a single-precision number. -/
def ofRat (x : ℚ) : F32 :=
  let r := roundEven (x / quantum x) * quantum x
  if 2 ^ 128 ≤ |r| then .inf (r < 0) else .finite r

def neg : F32 → F32
  | finite x => finite (-x)
  | inf negative => inf !negative
  | nan => nan

def add : F32 → F32 → F32
  | finite x, finite y => ofRat (x + y)
  | finite _, inf negative => inf negative
  | inf negative, finite _ => inf negative
  | inf n, inf m => if n = m then inf n else nan
  | _, _ => nan

def sub (a b : F32) : F32 := a.add b.neg

def abs : F32 → F32
  | finite x => finite |x|
  | inf _ => inf false
  | nan => nan

/-- `a > b`, false for a NaN. -/
def gt : F32 → F32 → Bool
  | finite x, finite y => y < x
  | inf n, finite _ => !n
  | finite _, inf m => m
  | inf n, inf m => !n && m
  | _, _ => false

def mul : F32 → F32 → F32
  | finite x, finite y => ofRat (x * y)
  | finite x, inf m => if x = 0 then nan else inf (decide (x < 0) != m)
  | inf n, finite y => if y = 0 then nan else inf (n != decide (y < 0))
  | inf n, inf m => inf (n != m)
  | _, _ => nan

/-- `x.floor() as uN`, which saturates; a NaN becomes 0. -/
def floorTo (top : ℕ) : F32 → ℕ
  | finite x => min ⌊x⌋.toNat top
  | inf negative => if negative then 0 else top
  | nan => 0

/-- INTERNAL: Rounding a number between zero and an integer of at most 16 bits does not pass
that integer. -/
theorem ofRat_le {x : ℚ} {n : ℕ} (hx : 0 ≤ x) (hxn : x ≤ n) (hn : n < 2 ^ 16) :
    ∃ r, ofRat x = finite r ∧ 0 ≤ r ∧ r ≤ n := by
  have hq := quantum_pos x
  -- the integer is a multiple of the quantum
  have hexp : quantumExponent x ≤ 0 := by
    have hlog : Int.log 2 |x| ≤ 16 := by
      rw [abs_of_nonneg hx]
      have hmono : Int.log 2 x ≤ Int.log 2 ((2 : ℚ) ^ (16 : ℕ)) ∨ x = 0 := by
        rcases hx.eq_or_lt with h0 | hpos
        · exact Or.inr h0.symm
        · left
          apply Int.log_mono_right hpos
          have hle : (n : ℚ) ≤ 2 ^ 16 := by exact_mod_cast hn.le
          linarith
      rcases hmono with hmono | rfl
      · have hpow : Int.log 2 ((2 : ℚ) ^ (16 : ℕ)) = 16 := by
          have := Int.log_zpow (R := ℚ) (b := 2) (by norm_num) 16
          exact_mod_cast this
        omega
      · rw [Int.log_zero_right]
        omega
    unfold quantumExponent
    omega
  obtain ⟨k, hk⟩ : ∃ k : ℕ, quantumExponent x = -(k : ℤ) := ⟨(-quantumExponent x).toNat, by omega⟩
  have hquantum : quantum x * 2 ^ k = 1 := by
    unfold quantum
    rw [hk, zpow_neg, zpow_natCast]
    exact inv_mul_cancel₀ (by positivity)
  have hmultiple : (n : ℚ) = ((n * 2 ^ k : ℤ) : ℚ) * quantum x := by
    push_cast
    calc (n : ℚ) = n * (quantum x * 2 ^ k) := by rw [hquantum, mul_one]
      _ = n * 2 ^ k * quantum x := by ring
  have hscaled : x / quantum x ≤ ((n * 2 ^ k : ℤ) : ℚ) := by
    rw [div_le_iff₀ hq, ← hmultiple]
    exact hxn
  have hround := roundEven_le hscaled
  have hnonneg := roundEven_nonneg (div_nonneg hx hq.le)
  have hupper : (roundEven (x / quantum x) : ℚ) * quantum x ≤ n := by
    rw [hmultiple]
    apply mul_le_mul_of_nonneg_right _ hq.le
    exact_mod_cast hround
  have hlower : 0 ≤ (roundEven (x / quantum x) : ℚ) * quantum x := by
    apply mul_nonneg _ hq.le
    exact_mod_cast hnonneg
  refine ⟨_, ?_, hlower, hupper⟩
  unfold ofRat
  dsimp only
  rw [abs_of_nonneg hlower, if_neg]
  have hle : (n : ℚ) < 2 ^ 16 := by exact_mod_cast hn
  have hpow : (2 : ℚ) ^ 16 ≤ 2 ^ 128 := by norm_num
  linarith

end F32

end Tymux.Lib
