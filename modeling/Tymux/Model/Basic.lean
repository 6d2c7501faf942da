import Mathlib.Data.List.Basic
import Mathlib.Data.Rat.Floor
import Mathlib.Tactic.Linarith

/-!
# Identifiers and fixed-width arithmetic

What every part of the daemon shares: `Uuid` names panes, windows and sessions, and the
unsigned arithmetic of the source is written with the checked operations below, where
`none` is the panic of an overflowing `+` or an underflowing `-`.
-/

set_option autoImplicit false

namespace Tymux.Model

/-- A pane, window or session id. The source draws them with `Uuid::new_v4`; all the code
does with one is to compare it. -/
abbrev Uuid := ℕ

/-- `u16::MAX`. -/
def u16Max : ℕ := 65535

/-- `u32::MAX` and `u64::MAX`. -/
def u32Max : ℕ := 4294967295

def u64Max : ℕ := 18446744073709551615

/-- `a.saturating_add(b)` on the type whose largest value is `top`. -/
def saturatingAdd (top a b : ℕ) : ℕ := min (a + b) top

/-- The values of an `f64` up to the sign of zero. -/
inductive F64 where
  | finite (value : ℚ)
  | inf (negative : Bool)
  | nan
  deriving DecidableEq, Repr

/-- `f64::is_finite` -/
def F64.isFinite : F64 → Bool
  | finite _ => true
  | _ => false

/-- `x >= a && x <= b`, false for a NaN. -/
def F64.inRange (a b : ℚ) : F64 → Bool
  | finite x => a ≤ x && x ≤ b
  | _ => false

/-- `a + b` on `u16`. -/
def checkedAdd (a b : ℕ) : Option ℕ := if a + b ≤ u16Max then some (a + b) else none

/-- `a - b` on an unsigned type. -/
def checkedSub (a b : ℕ) : Option ℕ := if b ≤ a then some (a - b) else none

theorem checkedAdd_of_le {a b : ℕ} (h : a + b ≤ u16Max) : checkedAdd a b = some (a + b) :=
  if_pos h

theorem checkedSub_of_le {a b : ℕ} (h : b ≤ a) : checkedSub a b = some (a - b) :=
  if_pos h

theorem checkedSub_eq_some {a b c : ℕ} (h : checkedSub a b = some c) : b ≤ a ∧ c = a - b := by
  unfold checkedSub at h
  split at h
  case isTrue hle =>
      cases h
      exact ⟨hle, rfl⟩
  case isFalse => cases h

end Tymux.Model
