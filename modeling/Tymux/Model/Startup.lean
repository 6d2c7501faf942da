import Tymux.Lib.UnixPath
import Mathlib.Data.List.Infix

/-!
# What the daemon is started with

`auth.rs`: the token, the socket path and the socket group, from the arguments and the environment;
and the default socket path as the two clients work it out, `main.rs` of `tymux-cli` and
`udsdialer.go`. An argument is a `String`, a value in the environment is any bytes.
-/

set_option autoImplicit false

namespace Tymux.Model

open Tymux.Lib

/-- The bytes of a path or of a value in the environment. -/
abbrev OsString := List UInt8

def osString (s : String) : OsString := s.toUTF8.data.toList

/-- The variables that are set. -/
abbrev Environment := String → Option OsString

/-- `String::from_utf8`. -/
def fromUtf8 (bytes : OsString) : Option String := String.fromUTF8? ⟨bytes.toArray⟩

namespace Environment

/-- `std::env::var(name).ok()`: a value that is not Unicode is an error, and no value. -/
def var (env : Environment) (name : String) : Option String := (env name).bind fromUtf8

/-- `std::env::var_os(name).filter(|v| !v.is_empty())`. -/
def nonEmpty (env : Environment) (name : String) : Option OsString := (env name).filter (· ≠ [])

end Environment

/-- The separator of paths. -/
def slash : UInt8 := 0x2f

/-- The element for the directory itself is this character alone. -/
def period : UInt8 := 0x2e

/-! ## The daemon -/

/-- SRC: auth.rs:21-22, 36-38 -/
structure BearerToken where
  raw : String
  ne_empty : raw ≠ ""
  deriving DecidableEq

/-- SRC: auth.rs:36-38 -/
def BearerToken.parse (raw : String) : Option BearerToken :=
  if h : raw ≠ "" then some ⟨raw, h⟩ else none

/-- `s.strip_prefix(pre)`. -/
def stripPrefix (pre s : String) : Option String :=
  (s.toList.dropPrefix? pre.toList).map String.ofList

/-- The value of a flag, behind it or joined to it.
SRC: auth.rs:63-71, 114-122, 142-150 -/
def flagValue (flag : String) (args : List String) : Option String :=
  ((args.idxOf? flag).bind fun i => args[i + 1]?).or (args.findSome? (stripPrefix (flag ++ "=")))

/-- SRC: auth.rs:62-76 -/
def resolveToken (env : Environment) (args : List String) : Option BearerToken :=
  ((flagValue "--token" args).or (env.var "TYMUXD_TOKEN")).bind BearerToken.parse

/-- SRC: auth.rs:91-100 -/
def defaultUdsSocketPath (env : Environment) (uid : UInt32) : OsString :=
  match env.nonEmpty "XDG_RUNTIME_DIR" with
  | some dir => UnixPath.push slash (UnixPath.push slash dir (osString "tymuxd")) (osString "tymuxd.sock")
  | none =>
    let base := (env.nonEmpty "TMPDIR").getD (osString "/tmp")
    UnixPath.push slash (UnixPath.push slash base (osString ("tymuxd-" ++ toString uid.toNat)))
      (osString "tymuxd.sock")

/-- SRC: auth.rs:113-129 -/
def resolveUdsSocketPath (env : Environment) (args : List String) (uid : UInt32) : OsString :=
  (((flagValue "--socket-path" args).or ((env.var "TYMUXD_SOCKET_PATH").filter (· ≠ ""))).map
    osString).getD (defaultUdsSocketPath env uid)

/-- SRC: auth.rs:141-153 -/
def resolveSocketGroupName (env : Environment) (args : List String) : Option String :=
  ((flagValue "--socket-group" args).or (env.var "TYMUXD_SOCKET_GROUP")).filter (· ≠ "")

/-! ## The clients -/

namespace Cli

/-- SRC: tymux-cli/src/main.rs:210-219 -/
def defaultUdsSocketPath (env : Environment) (uid : UInt32) : OsString :=
  match env.nonEmpty "XDG_RUNTIME_DIR" with
  | some dir => UnixPath.push slash (UnixPath.push slash dir (osString "tymuxd")) (osString "tymuxd.sock")
  | none =>
    let base := (env.nonEmpty "TMPDIR").getD (osString "/tmp")
    UnixPath.push slash (UnixPath.push slash base (osString ("tymuxd-" ++ toString uid.toNat)))
      (osString "tymuxd.sock")

end Cli

namespace Go

/-- `os.Getenv`: a variable that is not set is empty. -/
def getenv (env : Environment) (name : String) : OsString := (env name).getD []

/-- SRC: udsdialer.go:32-41 -/
def defaultSocketPath (env : Environment) (uid : ℤ) : OsString :=
  let dir := getenv env "XDG_RUNTIME_DIR"
  if dir ≠ [] then UnixPath.join slash period [dir, osString "tymuxd", osString "tymuxd.sock"]
  else
    let base := getenv env "TMPDIR"
    let base := if base = [] then osString "/tmp" else base
    UnixPath.join slash period [base, osString ("tymuxd-" ++ toString uid), osString "tymuxd.sock"]

end Go

end Tymux.Model
