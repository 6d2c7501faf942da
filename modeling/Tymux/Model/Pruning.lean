import Tymux.Model.Startup
import Mathlib.Algebra.Ring.Nat
import Mathlib.Data.List.ReduceOption

/-!
# Pruning at startup

`FsPersistenceBackend::prune_stale_at` over the entries of the sessions directory, and the start of
`tymuxd` that calls it, `main.rs`. A time is in nanoseconds, before the epoch too; the age is a
number of seconds of 64 bits, whose product is taken as a release build takes it.
-/

set_option autoImplicit false

namespace Tymux.Model

/-- One entry of the directory: `modified` is the time that its metadata gives, and `removable` is
whether `remove_file` works. -/
structure DirEntry where
  fileName : OsString
  modified : Option ℤ
  removable : Bool
  deriving DecidableEq

/-- What `read_dir` gives: an error, or entries that may be errors themselves. -/
abbrev ReadDir := Option (List (Option DirEntry))

/-- `entries.flatten()`. -/
def ReadDir.entries (dir : ReadDir) : List DirEntry := (dir.getD []).reduceOption

/-- `Path::extension` of a file name: what is behind its last dot, where something is before it. -/
def extension (name : OsString) : Option OsString :=
  if name = [period, period] then none
  else
    match name.reverse.dropWhile (· ≠ period) with
    | _ :: _ :: _ => some (name.reverse.takeWhile (· ≠ period)).reverse
    | _ => none

/-- The files that are removed, in order, and their number, which is returned. -/
structure Pruned where
  removed : List DirEntry
  pruned : ℕ
  deriving DecidableEq

/-- One round of the loop.
SRC: persistence.rs:385-413 -/
def pruneEntry (maxAge : ℕ) (now : ℤ) (p : Pruned) (entry : DirEntry) : Pruned :=
  if extension entry.fileName ≠ some (osString "json") then p
  else
    match entry.modified with
    | none => p
    | some modified =>
        if now < modified then p
        else if now - modified ≤ maxAge then p
        else if entry.removable then ⟨p.removed ++ [entry], p.pruned + 1⟩
        else p

/-- SRC: persistence.rs:379-416 -/
def pruneStaleAt (dir : ReadDir) (maxAge : ℕ) (now : ℤ) : Pruned :=
  dir.entries.foldl (pruneEntry maxAge now) ⟨[], 0⟩

/-- One more digit, where it is one and the number still fits. -/
def pushDigit (n : ℕ) (c : Char) : Option ℕ :=
  if c.isDigit ∧ n * 10 + (c.toNat - '0'.toNat) < 2 ^ 64 then some (n * 10 + (c.toNat - '0'.toNat))
  else none

/-- `s.parse::<u64>()`: digits, behind a plus sign or none. -/
def parseU64 (s : String) : Option UInt64 :=
  let digits :=
    match s.toList with
    | '+' :: rest => rest
    | cs => cs
  if digits = [] then none else (digits.foldlM pushDigit 0).map UInt64.ofNat

/-- SRC: persistence.rs:362 -/
def staleSessionMaxAgeDefault : UInt64 := 30 * 24 * 60 * 60

/-- In seconds.
SRC: main.rs:2053-2057 -/
def staleSessionMaxAge (env : Environment) : UInt64 :=
  (((env.var "TYMUXD_STALE_SESSION_MAX_AGE_DAYS").bind parseU64).map (· * 86400)).getD
    staleSessionMaxAgeDefault

/-- SRC: main.rs:2058-2073 -/
def startupPrune (env : Environment) (dir : ReadDir) (now : ℤ) : Pruned :=
  if staleSessionMaxAge env = 0 then ⟨[], 0⟩
  else pruneStaleAt dir ((staleSessionMaxAge env).toNat * 10 ^ 9) now

end Tymux.Model
