import Tymux.Model.Startup

/-!
# A flag before its variable

The value of a flag is asked for first, and whether it is empty is only looked at afterwards: the
token and the group filter what they have chosen, and the path filters its variable alone. So an
empty flag hides the variable, and the socket is bound at an empty path; and a variable that is not
UTF-8 is no value for any of them.
-/

set_option autoImplicit false

namespace Tymux.Analysis.FlagPrecedence

open Tymux.Model Tymux.Lib

/-! ## What the docs promise -/

/-- The first of these values that is there and not empty. -/
def firstNonEmpty (values : List (Option OsString)) : Option OsString :=
  values.findSome? fun value => value.filter (· ≠ [])

/-- The flag's value, then the variable; an empty value of either is none.
SRC: auth.rs:44-57, 102-104, 131-134 -/
def promised (env : Environment) (args : List String) (flag name : String) : Option OsString :=
  firstNonEmpty [(flagValue flag args).map osString, env name]

/-! ## Texts and their bytes -/

theorem osString_of_fromUtf8 {bytes : OsString} {s : String} (h : fromUtf8 bytes = some s) :
    osString s = bytes := by
  unfold fromUtf8 String.fromUTF8? at h
  split at h
  · rw [← Option.some.inj h]
    rfl
  · cases h

theorem osString_eq_nil_iff {s : String} : osString s = [] ↔ s = "" := by
  unfold osString
  rw [Array.toList_eq_nil_iff, ← String.toByteArray_inj]
  exact ⟨fun h => ByteArray.ext h, fun h => congrArg ByteArray.data h⟩

theorem filter_osString (s : String) :
    (some (osString s)).filter (· ≠ []) = ((some s).filter (· ≠ "")).map osString := by
  by_cases hs : s = ""
  · rw [hs]
    rfl
  · have hbytes : osString s ≠ [] := mt osString_eq_nil_iff.mp hs
    rw [Option.filter_some, Option.filter_some, if_pos (decide_eq_true hbytes),
      if_pos (decide_eq_true hs), Option.map_some]

theorem fromUtf8_nil : fromUtf8 [] = some "" := by decide

/-! ## What is chosen -/

/-- The flag's value, or else the variable, and this where it is not empty. -/
def chosen (env : Environment) (args : List String) (flag name : String) : Option String :=
  ((flagValue flag args).or (env.var name)).filter (· ≠ "")

/-- An empty flag has no value of the variable to hide; and the variable is UTF-8 where there is no
flag. -/
structure Heard (env : Environment) (args : List String) (flag name : String) : Prop where
  hidden : flagValue flag args = some "" → env.nonEmpty name = none
  unicode : flagValue flag args = none → ∀ value, env name = some value → (fromUtf8 value).isSome

variable {env : Environment} {args : List String} {flag name : String}

theorem promised_some {s : String} (h : flagValue flag args = some s) :
    promised env args flag name =
      (((some s).filter (· ≠ "")).map osString).or (env.nonEmpty name) := by
  unfold promised firstNonEmpty Environment.nonEmpty
  rw [h, Option.map_some, List.findSome?_cons, filter_osString]
  cases ((some s).filter (· ≠ "")).map osString with
  | some value => rfl
  | none =>
      rw [List.findSome?_cons, List.findSome?_nil]
      cases (env name).filter (· ≠ []) <;> rfl

theorem promised_none (h : flagValue flag args = none) :
    promised env args flag name = env.nonEmpty name := by
  unfold promised firstNonEmpty Environment.nonEmpty
  rw [h, Option.map_none, List.findSome?_cons, Option.filter_none, List.findSome?_cons,
    List.findSome?_nil]
  cases (env name).filter (· ≠ []) <;> rfl

/-- A variable is read as it is, if and only if it is UTF-8. -/
theorem var_eq_nonEmpty_iff : ((env.var name).filter (· ≠ "")).map osString = env.nonEmpty name ↔
    ∀ value, env name = some value → (fromUtf8 value).isSome := by
  unfold Environment.var Environment.nonEmpty
  cases henv : env name with
  | none => simp
  | some value =>
      rw [Option.bind_some]
      cases hutf8 : fromUtf8 value with
      | some s =>
          rw [← osString_of_fromUtf8 hutf8, filter_osString]
          simp [osString_of_fromUtf8 hutf8, hutf8]
      | none =>
          have hne : value ≠ [] := by
            rintro rfl
            rw [fromUtf8_nil] at hutf8
            cases hutf8
          rw [Option.filter_none, Option.map_none, Option.filter_some, if_pos (decide_eq_true hne)]
          simp [hutf8]

theorem chosen_eq_promised_iff :
    (chosen env args flag name).map osString = promised env args flag name ↔
      Heard env args flag name := by
  unfold chosen
  cases hflag : flagValue flag args with
  | none =>
      rw [Option.none_or, promised_none hflag, var_eq_nonEmpty_iff]
      exact ⟨fun h => ⟨fun hempty => by simp [hflag] at hempty, fun _ => h⟩, fun h => h.unicode hflag⟩
  | some s =>
      rw [Option.some_or, promised_some hflag]
      by_cases hs : s = ""
      · subst hs
        rw [Option.filter_some, if_neg (by simp), Option.map_none, Option.none_or, eq_comm]
        exact ⟨fun h => ⟨fun _ => h, fun hnone => by simp [hflag] at hnone⟩, fun h => h.hidden hflag⟩
      · rw [Option.filter_some, if_pos (decide_eq_true hs), Option.map_some, Option.some_or]
        refine iff_of_true rfl ⟨fun hempty => ?_, fun hnone => ?_⟩
        · rw [hflag, Option.some_inj] at hempty
          exact absurd hempty hs
        · rw [hflag] at hnone
          cases hnone

/-! ## The three -/

theorem resolveToken_eq : (resolveToken env args).map BearerToken.raw =
    chosen env args "--token" "TYMUXD_TOKEN" := by
  unfold resolveToken chosen
  cases (flagValue "--token" args).or (env.var "TYMUXD_TOKEN") with
  | none => rfl
  | some s =>
      rw [Option.bind_some, Option.filter_some]
      unfold BearerToken.parse
      by_cases hs : s = ""
      · rw [dif_neg (not_not.mpr hs), if_neg (by simp [hs]), Option.map_none]
      · rw [dif_pos hs, if_pos (decide_eq_true hs), Option.map_some]

theorem defaultUdsSocketPath_ne_nil (env : Environment) (uid : UInt32) :
    defaultUdsSocketPath env uid ≠ [] := by
  have hsock : osString "tymuxd.sock" ≠ [] := by decide
  unfold defaultUdsSocketPath
  split
  · exact UnixPath.push_ne_nil _ hsock
  · exact UnixPath.push_ne_nil _ hsock

variable (env args) in
/-- A flag for the path is not empty; and where there is none, the variable is UTF-8, or is the
default path itself. -/
structure HeardPath (uid : UInt32) (flag name : String) : Prop where
  hidden : flagValue flag args ≠ some ""
  unicode : flagValue flag args = none → ∀ value, env name = some value →
    (fromUtf8 value).isSome ∨ value = defaultUdsSocketPath env uid

theorem resolveUdsSocketPath_eq_iff (uid : UInt32) :
    resolveUdsSocketPath env args uid =
        (promised env args "--socket-path" "TYMUXD_SOCKET_PATH").getD (defaultUdsSocketPath env uid) ↔
      HeardPath env args uid "--socket-path" "TYMUXD_SOCKET_PATH" := by
  have hdefault := defaultUdsSocketPath_ne_nil env uid
  unfold resolveUdsSocketPath
  cases hflag : flagValue "--socket-path" args with
  | some s =>
      rw [Option.some_or, promised_some hflag, Option.map_some, Option.getD_some]
      by_cases hs : s = ""
      · -- the path is empty, and no promised one is
        subst hs
        have hleft : osString "" = [] := rfl
        have hright : (env.nonEmpty "TYMUXD_SOCKET_PATH").getD (defaultUdsSocketPath env uid) ≠ [] := by
          cases hvar : env.nonEmpty "TYMUXD_SOCKET_PATH" with
          | none => exact hdefault
          | some value => exact of_decide_eq_true (Option.filter_eq_some_iff.mp hvar).2
        rw [Option.filter_some, if_neg (by simp), Option.map_none, Option.none_or, hleft]
        exact iff_of_false hright.symm fun h => h.hidden hflag
      · rw [Option.filter_some, if_pos (decide_eq_true hs), Option.map_some, Option.some_or,
          Option.getD_some]
        refine iff_of_true rfl ⟨fun hempty => ?_, fun hnone => ?_⟩
        · rw [hflag, Option.some_inj] at hempty
          exact hs hempty
        · rw [hflag] at hnone
          cases hnone
  | none =>
      have hcond : HeardPath env args uid "--socket-path" "TYMUXD_SOCKET_PATH" ↔
          ∀ value, env "TYMUXD_SOCKET_PATH" = some value →
            (fromUtf8 value).isSome ∨ value = defaultUdsSocketPath env uid := by
        refine ⟨fun h => h.unicode hflag, fun h => ⟨fun hempty => ?_, fun _ => h⟩⟩
        rw [hflag] at hempty
        cases hempty
      rw [Option.none_or, promised_none hflag, hcond]
      by_cases hutf8 : ∀ value, env "TYMUXD_SOCKET_PATH" = some value → (fromUtf8 value).isSome
      · rw [var_eq_nonEmpty_iff.mpr hutf8]
        exact iff_of_true rfl fun value hvalue => Or.inl (hutf8 value hvalue)
      · -- the variable is lost, and the default stands in for it
        simp only [not_forall] at hutf8
        obtain ⟨value, hvalue, hlost⟩ := hutf8
        rw [Option.isSome_iff_ne_none, not_not] at hlost
        have hne : value ≠ [] := by
          rintro rfl
          rw [fromUtf8_nil] at hlost
          cases hlost
        unfold Environment.var Environment.nonEmpty
        rw [hvalue, Option.bind_some, hlost, Option.filter_none, Option.map_none, Option.getD_none,
          Option.filter_some, if_pos (decide_eq_true hne), Option.getD_some]
        constructor
        · rintro hdef other hother
          rw [← Option.some_inj.mp hother]
          exact Or.inr hdef.symm
        · intro h
          obtain hsome | hdef := h value rfl
          · rw [hlost] at hsome
            cases hsome
          · exact hdef.symm

/-- INTERNAL: **Flags before variables.** Each of the three yields the first value that is not empty,
of its flag and of its variable, and its default where there is none, if and only if an empty flag
hides no value of the variable and the variable is UTF-8 where no flag is given; an empty path hides
the default as well.
SRC: auth.rs:62-76, 102-153 -/
theorem flag_before_variable (env : Environment) (args : List String) (uid : UInt32) :
    ((resolveToken env args).map (fun token => osString token.raw) =
        promised env args "--token" "TYMUXD_TOKEN" ↔
      Heard env args "--token" "TYMUXD_TOKEN") ∧
    (resolveUdsSocketPath env args uid =
        (promised env args "--socket-path" "TYMUXD_SOCKET_PATH").getD (defaultUdsSocketPath env uid) ↔
      HeardPath env args uid "--socket-path" "TYMUXD_SOCKET_PATH") ∧
    ((resolveSocketGroupName env args).map osString =
        promised env args "--socket-group" "TYMUXD_SOCKET_GROUP" ↔
      Heard env args "--socket-group" "TYMUXD_SOCKET_GROUP") := by
  have htoken : (resolveToken env args).map (fun token => osString token.raw) =
      (chosen env args "--token" "TYMUXD_TOKEN").map osString := by
    rw [← resolveToken_eq, Option.map_map]
    rfl
  refine ⟨?_, resolveUdsSocketPath_eq_iff uid, chosen_eq_promised_iff⟩
  rw [htoken]
  exact chosen_eq_promised_iff

/-- An empty flag hides the token, and the group, in the environment; and the socket is bound at an
empty path. -/
theorem flag_before_variable_empty :
    let env : Environment := fun name =>
      [("TYMUXD_TOKEN", osString "secret"), ("TYMUXD_SOCKET_GROUP", osString "staff")].lookup name
    let args := ["tymuxd", "--token", "", "--socket-path=", "--socket-group="]
    (promised env args "--token" "TYMUXD_TOKEN" = some (osString "secret") ∧
      resolveToken env args = none) ∧
    (promised env args "--socket-path" "TYMUXD_SOCKET_PATH" = none ∧
      resolveUdsSocketPath env args 1000 = []) ∧
    (promised env args "--socket-group" "TYMUXD_SOCKET_GROUP" = some (osString "staff") ∧
      resolveSocketGroupName env args = none) := by
  decide +kernel

end Tymux.Analysis.FlagPrecedence
