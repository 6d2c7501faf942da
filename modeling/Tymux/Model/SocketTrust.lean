import Tymux.Model.Startup
import Tymux.Lib.LinkWalk

/-!
# Whether a control socket is trusted

`checkSocketTrust` of the Go client, `trust.go` and `trust_unix.go`, over the three calls that it
makes; and the filesystem behind these (`osFS`), which does not change. An inode's names are those
from the root along directories, and a link is followed by the kernel and by `EvalSymlinks`, up to a
number of links each.
-/

set_option autoImplicit false

namespace Tymux.Model

open Tymux.Lib

/-! ## The policy -/

/-- SRC: trust.go:39-43 -/
structure TrustPolicy where
  uid : ℤ
  trusted : List UInt32
  deriving DecidableEq

namespace TrustPolicy

/-- SRC: trust.go:45-47 -/
def trustedUID (p : TrustPolicy) (owner : ℤ) : Bool :=
  decide (owner ≥ 0) && p.trusted.contains (UInt32.ofNat owner.toNat)

/-- SRC: trust.go:49-52 -/
def allows (p : TrustPolicy) (owner : ℤ) : Bool :=
  decide (owner = p.uid) || decide (owner = 0) || p.trustedUID owner

/-- SRC: trust.go:54-55 -/
def allowsNonRoot (p : TrustPolicy) (owner : ℤ) : Bool :=
  decide (owner = p.uid) || p.trustedUID owner

end TrustPolicy

/-! ## The calls -/

inductive FileType
  | regular
  | directory
  | symlink
  | socket
  | other
  deriving DecidableEq

/-- `fs.FileMode`: its type, its sticky bit and `Perm`. -/
structure FileMode where
  type : FileType
  sticky : Bool
  perm : BitVec 9
  deriving DecidableEq

/-- `fs.FileInfo`; `sys` is the owner, where `Sys` is a `syscall.Stat_t`. -/
structure FileInfo where
  mode : FileMode
  sys : Option UInt32
  deriving DecidableEq

/-- An error of any kind is `none`.
SRC: trust.go:57-61 -/
structure TrustFS where
  lstat : OsString → Option FileInfo
  stat : OsString → Option FileInfo
  eval : OsString → Option OsString

/-- SRC: trust_unix.go:15-21 -/
def ownerUID (fi : FileInfo) : ℤ × Bool :=
  match fi.sys with
  | some uid => (uid.toNat, true)
  | none => (0, false)

/-! ## The check -/

/-- Why a path is not trusted, with what the text of it names. -/
inductive Untrusted
  | notClean (path : OsString)
  | socketLink (cur : OsString)
  | linkOwner (cur : OsString) (owner : ℤ)
  | notSticky (dir : OsString)
  | sharedDirOwner (dir : OsString) (owner : ℤ)
  | sharedSocketOwner (path : OsString) (owner : ℤ) (dir : OsString)
  | groupWritable (dir : OsString)
  | owners (path : OsString) (sockOwner : ℤ) (dir : OsString) (dirOwner : ℤ)
  | owner (path : OsString) (owner : ℤ)
  deriving DecidableEq

/-- SRC: trust_unix.go:43, 57, 60, 83, 86, 89, 94, 97, 100 -/
def Untrusted.format : Untrusted → String
  | notClean _ => "socket path %q must be absolute and clean (no '.', '..', '//' or trailing '/')"
  | socketLink _ => "%s is a symlink"
  | linkOwner _ _ => "%s is a symlink owned by uid %d"
  | notSticky _ => "%s is world-writable and not sticky"
  | sharedDirOwner _ _ => "shared directory %s is owned by uid %d"
  | sharedSocketOwner _ _ _ => "%s is owned by uid %d in shared directory %s"
  | groupWritable _ => "%s is group-writable, so a group member could replace the socket"
  | owners _ _ _ _ => "%s (uid %d) and its directory %s (uid %d) have different owners"
  | owner _ _ => "%s is owned by uid %d, which is not you, root or a trusted owner"

/-- `strings.Trim(s, cutset)` for one character. -/
def trim (c : UInt8) (s : OsString) : OsString :=
  ((s.dropWhile (· = c)).reverse.dropWhile (· = c)).reverse

/-- The loop over the elements behind `cur`: `none` where it goes through, and else what the check
returns from it.
SRC: trust_unix.go:49-62 -/
def checkElements (pol : TrustPolicy) (f : TrustFS) (cur : OsString) :
    List OsString → Option (Option Untrusted)
  | [] => none
  | e :: rest =>
      let cur := UnixPath.join slash period [cur, e]
      match f.lstat cur with
      | none => some none
      | some fi =>
          if fi.mode.type ≠ .symlink then checkElements pol f cur rest
          else if rest = [] then some (some (.socketLink cur))
          else
            let owner := ownerUID fi
            if !owner.2 || !pol.allows owner.1 then some (some (.linkOwner cur owner.1))
            else checkElements pol f cur rest

/-- What the owners and the permissions say.
SRC: trust_unix.go:75-103 -/
def checkOwners (pol : TrustPolicy) (clean dir : OsString) (di fi : FileInfo) : Option Untrusted :=
  let sockOwner := ownerUID fi
  let dirOwner := ownerUID di
  if !sockOwner.2 || !dirOwner.2 then none
  else
    let perm := di.mode.perm
    if perm &&& 0o002 ≠ 0 then
      if !di.mode.sticky then some (.notSticky dir)
      else if !pol.allows dirOwner.1 then some (.sharedDirOwner dir dirOwner.1)
      else if !pol.allowsNonRoot sockOwner.1 then some (.sharedSocketOwner clean sockOwner.1 dir)
      else none
    else if perm &&& 0o020 ≠ 0 then some (.groupWritable dir)
    else if sockOwner.1 ≠ dirOwner.1 then some (.owners clean sockOwner.1 dir dirOwner.1)
    else if !pol.allows dirOwner.1 then some (.owner clean dirOwner.1)
    else none

/-- `none` is `nil`: the path is trusted, or the dial is left to fail.
SRC: trust_unix.go:39-104 -/
def checkSocketTrust (path : OsString) (pol : TrustPolicy) (f : TrustFS) : Option Untrusted :=
  if path = [] ∨ ¬ UnixPath.IsAbs slash path ∨ UnixPath.clean slash period path ≠ path then
    some (.notClean path)
  else
    let clean := path
    match checkElements pol f [slash] ((trim slash clean).splitOn slash) with
    | some result => result
    | none =>
        match f.eval (UnixPath.dir slash period clean) with
        | none => none
        | some dir =>
            match f.stat dir with
            | none => none
            | some di =>
                match f.lstat (UnixPath.join slash period [dir, UnixPath.base slash period clean]) with
                | none => none
                | some fi => checkOwners pol clean dir di fi

/-! ## The filesystem -/

/-- `target` is what a symbolic link leads to. -/
structure Inode where
  mode : FileMode
  uid : UInt32
  target : OsString
  deriving DecidableEq

/-- The inodes that can be reached, with a directory at the root. -/
structure FileSystem where
  node : LinkWalk.Location UInt8 → Option Inode
  root : ∃ i, node [] = some i ∧ i.mode.type = .directory

namespace FileSystem

def tree (fs : FileSystem) : LinkWalk.Tree UInt8 Inode where
  node := fs.node
  isDir i := decide (i.mode.type = .directory)
  target i := if i.mode.type = .symlink then some i.target else none

/-- How many links the kernel follows in one path. -/
def maxSymlinks : ℕ := 40

/-- How many links `filepath.EvalSymlinks` follows. -/
def maxLinksWalked : ℕ := 255

/-- How the kernel walks an absolute path. -/
def resolve (fs : FileSystem) (followLast : Bool) (bound : ℕ) (path : OsString) :
    Option (LinkWalk.Trail UInt8 Inode) :=
  LinkWalk.walk fs.tree slash period followLast bound [] (LinkWalk.elements slash false path)

def info (i : Inode) : FileInfo := ⟨i.mode, some i.uid⟩

/-- `os.Lstat`. -/
def lstat (fs : FileSystem) (path : OsString) : Option FileInfo :=
  (fs.resolve false maxSymlinks path).bind fun t => (fs.node t.last).map info

/-- `os.Stat`. -/
def stat (fs : FileSystem) (path : OsString) : Option FileInfo :=
  (fs.resolve true maxSymlinks path).bind fun t => (fs.node t.last).map info

/-- `filepath.EvalSymlinks`. -/
def eval (fs : FileSystem) (path : OsString) : Option OsString :=
  (fs.resolve true maxLinksWalked path).map fun t => UnixPath.absolute slash t.last

/-- SRC: trust.go:63-65 -/
def osFS (fs : FileSystem) : TrustFS where
  lstat := fs.lstat
  stat := fs.stat
  eval := fs.eval

end FileSystem

end Tymux.Model
