import Tymux.Model.Startup

/-!
# One default socket path

The daemon and the command line push two names on the directory, and the Go client joins all three,
which cleans what it joins. The texts are the same where the directory has nothing to be cleaned but
one separator at its end, and only there.
-/

set_option autoImplicit false

namespace Tymux.Analysis.DefaultSocketPath

open Tymux.Model Tymux.Lib

/-! ## The names behind the directory -/

theorem osString_append (s t : String) : osString (s ++ t) = osString s ++ osString t := by
  unfold osString
  rw [String.toUTF8_eq_toByteArray, String.toUTF8_eq_toByteArray, String.toUTF8_eq_toByteArray,
    String.toByteArray_append, ByteArray.data_append, Array.toList_append]

theorem osString_ofList_cons (c : Char) (cs : List Char) :
    osString (String.ofList (c :: cs)) = String.utf8EncodeChar c ++ osString (String.ofList cs) := by
  unfold osString
  rw [String.toUTF8_eq_toByteArray, String.toUTF8_eq_toByteArray, String.toByteArray_ofList,
    String.toByteArray_ofList, List.utf8Encode_cons, ByteArray.data_append, Array.toList_append,
    List.utf8Encode_singleton, List.data_toByteArray]

/-- A digit is one byte, which is not the separator. -/
theorem slash_not_mem_digit {c : Char} (h : c.isDigit) : slash ∉ String.utf8EncodeChar c := by
  have hzero : '0'.toNat = 48 := rfl
  have hnine : '9'.toNat = 57 := rfl
  rw [Char.isDigit_iff_toNat, hzero, hnine] at h
  have hsize : c.utf8Size = 1 := by
    rw [Char.utf8Size_eq_one_iff, UInt32.le_iff_toNat_le]
    exact h.2.trans (by decide)
  rw [String.utf8EncodeChar_eq_singleton hsize, List.mem_singleton]
  intro heq
  have hval := congrArg UInt8.toNat heq
  rw [UInt32.toNat_toUInt8] at hval
  change 47 = c.toNat % 256 at hval
  omega

theorem slash_not_mem_digits (cs : List Char) (h : ∀ c ∈ cs, c.isDigit) :
    slash ∉ osString (String.ofList cs) := by
  induction cs with
  | nil => decide
  | cons c cs ih =>
      rw [List.forall_mem_cons] at h
      rw [osString_ofList_cons, List.mem_append, not_or]
      exact ⟨slash_not_mem_digit h.1, ih h.2⟩

theorem slash_not_mem_toString (n : ℕ) : slash ∉ osString (toString n) := by
  rw [Nat.toString_eq_repr, Nat.repr_eq_ofList_toDigits]
  exact slash_not_mem_digits _ fun c hc => Nat.isDigit_of_mem_toDigits (by decide) (by decide) hc


theorem name_tymuxd : UnixPath.Name slash period (osString "tymuxd") := by
  refine ⟨⟨?_, ?_, ?_⟩, ?_⟩ <;> decide

theorem name_tymuxd_sock : UnixPath.Name slash period (osString "tymuxd.sock") := by
  refine ⟨⟨?_, ?_, ?_⟩, ?_⟩ <;> decide

theorem name_tymuxd_uid (uid : UInt32) :
    UnixPath.Name slash period (osString ("tymuxd-" ++ toString uid.toNat)) := by
  have htext : osString "tymuxd-" = 0x74 :: (osString "tymuxd-").tail := by decide
  have hfree : slash ∉ osString "tymuxd-" := by decide
  have hfirst : ∀ rest : OsString, period ≠ 0x74 ∧ osString "tymuxd-" ++ rest ≠ [] := by
    intro rest
    exact ⟨by decide, by rw [htext]; exact List.cons_ne_nil _ _⟩
  rw [osString_append]
  refine ⟨⟨(hfirst _).2, ?_, ?_⟩, ?_⟩
  · rw [htext]
    exact fun h => (hfirst []).1 (List.cons.inj h).1.symm
  · rw [htext]
    exact fun h => (hfirst []).1 (List.cons.inj h).1.symm
  · rw [List.mem_append, not_or]
    exact ⟨hfree, slash_not_mem_toString _⟩

/-! ## The directory -/

/-- The directory that the path is put in: the one for the session, the one for temporary files, or
`/tmp`. -/
def directory (env : Environment) : OsString :=
  (env.nonEmpty "XDG_RUNTIME_DIR").getD ((env.nonEmpty "TMPDIR").getD (osString "/tmp"))

theorem nonEmpty_eq_none_iff {env : Environment} {name : String} :
    env.nonEmpty name = none ↔ Go.getenv env name = [] := by
  unfold Environment.nonEmpty Go.getenv
  cases env name with
  | none => simp
  | some value => by_cases hvalue : value = [] <;> simp [Option.filter_some, hvalue]

theorem getenv_eq_of_nonEmpty {env : Environment} {name : String} {value : OsString}
    (h : env.nonEmpty name = some value) : Go.getenv env name = value ∧ value ≠ [] := by
  obtain ⟨hset, hne⟩ := Option.filter_eq_some_iff.mp h
  unfold Go.getenv
  rw [hset, Option.getD_some]
  exact ⟨rfl, of_decide_eq_true hne⟩

theorem agree_iff {env : Environment} {uid : UInt32} :
    defaultUdsSocketPath env uid = Go.defaultSocketPath env uid.toNat ↔
      UnixPath.Tidy slash period (directory env) := by
  unfold defaultUdsSocketPath Go.defaultSocketPath directory
  cases hxdg : env.nonEmpty "XDG_RUNTIME_DIR" with
  | some dir =>
      obtain ⟨hgo, hne⟩ := getenv_eq_of_nonEmpty hxdg
      rw [Option.getD_some, hgo]
      dsimp only
      rw [if_pos hne]
      exact UnixPath.push_eq_join_iff hne name_tymuxd name_tymuxd_sock
  | none =>
      have huid : toString (uid.toNat : ℤ) = toString uid.toNat := rfl
      have hbase : (if Go.getenv env "TMPDIR" = [] then osString "/tmp" else Go.getenv env "TMPDIR") =
          (env.nonEmpty "TMPDIR").getD (osString "/tmp") := by
        cases htmp : env.nonEmpty "TMPDIR" with
        | none => rw [if_pos (nonEmpty_eq_none_iff.mp htmp), Option.getD_none]
        | some value =>
            obtain ⟨hgo, hne⟩ := getenv_eq_of_nonEmpty htmp
            rw [hgo, if_neg hne, Option.getD_some]
      have hne : (env.nonEmpty "TMPDIR").getD (osString "/tmp") ≠ [] := by
        cases htmp : env.nonEmpty "TMPDIR" with
        | none => decide
        | some value => exact (getenv_eq_of_nonEmpty htmp).2
      rw [Option.getD_none, nonEmpty_eq_none_iff.mp hxdg]
      dsimp only
      rw [if_neg (not_not.mpr rfl), hbase, huid]
      exact UnixPath.push_eq_join_iff hne (name_tymuxd_uid uid) name_tymuxd_sock

/-- INTERNAL: **One default socket path.** The daemon, the command line and the Go client work out
the same bytes, if and only if the directory has nothing to be cleaned: its elements are names, behind
upward ones where it is relative, with one separator between and at most one at the end.
SRC: auth.rs:91-100; main.rs:210-219; udsdialer.go:32-41 -/
theorem default_socket_paths_agree (env : Environment) (uid : UInt32) :
    (defaultUdsSocketPath env uid = Go.defaultSocketPath env uid.toNat ∧
      Cli.defaultUdsSocketPath env uid = Go.defaultSocketPath env uid.toNat) ↔
      UnixPath.Tidy slash period (directory env) := by
  have hcli : Cli.defaultUdsSocketPath env uid = defaultUdsSocketPath env uid := rfl
  rw [hcli, and_self_iff]
  exact agree_iff

/-- A separator twice in the directory stays for the daemon, and is one for the Go client. -/
theorem default_socket_paths_agree_doubled :
    let env : Environment := fun name => [("TMPDIR", osString "/var//tmp")].lookup name
    defaultUdsSocketPath env 1000 = osString "/var//tmp/tymuxd-1000/tymuxd.sock" ∧
    Cli.defaultUdsSocketPath env 1000 = osString "/var//tmp/tymuxd-1000/tymuxd.sock" ∧
    Go.defaultSocketPath env 1000 = osString "/var/tmp/tymuxd-1000/tymuxd.sock" ∧
    osString "/var//tmp/tymuxd-1000/tymuxd.sock" ≠ osString "/var/tmp/tymuxd-1000/tymuxd.sock" := by
  decide +kernel

end Tymux.Analysis.DefaultSocketPath
