import Tymux.Model.Persistence
import Tymux.Model.Pruning
import Tymux.Lib.Run

/-!
# The session store

`FsPersistenceBackend` of `persistence.rs` at the granularity of its system calls. The engine orders
saves and deletes by its persist lock, and `tymuxd` prunes before it serves, so there is one at a
time. Each call may fail, and the daemon may die between any two: the files stay as the calls left
them, and the next daemon finds them.
-/

set_option autoImplicit false

namespace Tymux.Model.SessionStore

open Persistence

/-- What the store has from other crates: the text of a record, what is read from a text, and the
text of an id. -/
structure Formats where
  toVecPretty : PersistedSessionRecord → Option (List UInt8)
  fromSlice : List UInt8 → Option PersistedSessionRecord
  display : Uuid → OsString

/-- The regular files of the sessions directory. -/
abbrev Files := AList fun _ : OsString => List UInt8

/-- `rename(2)`. -/
def Files.rename (files : Files) (old new : OsString) : Option Files :=
  (files.lookup old).map fun bytes => (files.erase old).insert new bytes

/-- Where a save stands. -/
inductive Saving where
  | create (record : PersistedSessionRecord) (json : List UInt8)
  /-- The temporary file is open. -/
  | write (record : PersistedSessionRecord) (written rest : List UInt8)
  deriving DecidableEq, Repr

end SessionStore

structure SessionStore where
  files : SessionStore.Files
  saving : Option SessionStore.Saving
  /-- Ghost: the record of each session whose save came to its end, until it is deleted or pruned. -/
  committed : Uuid → Option Persistence.PersistedSessionRecord

namespace SessionStore

open Persistence

inductive Event where
  | save (record : PersistedSessionRecord)
  | create (opens : Bool)
  /-- `write(2)` takes so many bytes, or fails. -/
  | write (count : Option ℕ)
  | rename (renames : Bool)
  | delete (sessionId : Uuid) (removes : Bool)
  /-- One round of the prune. -/
  | prune (maxAge : ℕ) (now : ℤ) (entry : DirEntry)
  /-- The daemon dies, and the next one starts. -/
  | crash
  deriving DecidableEq

variable (fmt : Formats)

/-- SRC: persistence.rs:297-299 -/
def Formats.finalPath (sessionId : Uuid) : OsString := fmt.display sessionId ++ osString ".json"

/-- SRC: persistence.rs:301-303 -/
def Formats.tmpPath (sessionId : Uuid) : OsString := fmt.display sessionId ++ osString ".json.tmp"

/-- What is there when the first daemon starts. -/
def init (files : Files) : SessionStore where
  files := files
  saving := none
  committed := fun _ => none

/-- The save returns. -/
def finish (s : SessionStore) : SessionStore := { s with saving := none }

/-- `std::fs::write`, up to the rename.
SRC: persistence.rs:307-310 -/
def advance (s : SessionStore) : Saving → Event → Option SessionStore
  | .create record json, .create opens =>
    if opens then some { s with
      files := s.files.insert (fmt.tmpPath record.sessionId) []
      saving := some (.write record [] json) }
    else some s.finish
  | .write record written (b :: rest), .write (some (n + 1)) =>
    let written := written ++ (b :: rest).take (n + 1)
    some { s with
      files := s.files.insert (fmt.tmpPath record.sessionId) written
      saving := some (.write record written ((b :: rest).drop (n + 1))) }
  | .write _ _ (_ :: _), .write _ => some s.finish
  | .write record _ [], .rename renames =>
    match s.files.rename (fmt.tmpPath record.sessionId) (fmt.finalPath record.sessionId) with
    | some files =>
      if renames then some { s.finish with
        files := files
        committed := Function.update s.committed record.sessionId (some record) }
      else some s.finish
    | none => some s.finish
  | _, _ => none

/-- `std::fs::remove_file`. -/
def removeFile (s : SessionStore) (name : OsString) : SessionStore where
  __ := s
  files := s.files.erase name
  committed := fun id => if fmt.finalPath id = name then none else s.committed id

/-- SRC: persistence.rs:348-350 -/
def delete (s : SessionStore) (sessionId : Uuid) (removes : Bool) : SessionStore :=
  if removes then s.removeFile fmt (fmt.finalPath sessionId) else s

/-- SRC: persistence.rs:385-413 -/
def prune (s : SessionStore) (maxAge : ℕ) (now : ℤ) (entry : DirEntry) : SessionStore :=
  if entry ∈ (pruneEntry maxAge now ⟨[], 0⟩ entry).removed then s.removeFile fmt entry.fileName else s

def step (s : SessionStore) : Event → Option SessionStore
  | .crash => some s.finish
  | e =>
    match s.saving, e with
    | some saving, e => s.advance fmt saving e
    | none, .save record =>
      match fmt.toVecPretty record with
      | some json => some { s with saving := some (.create record json) }
      | none => some s
    | none, .delete sessionId removes => some (s.delete fmt sessionId removes)
    | none, .prune maxAge now entry => some (s.prune fmt maxAge now entry)
    | none, _ => none

/-! ## Loading -/

/-- What is read from the text of a record, if it passes the validation. -/
def Formats.admit (bytes : List UInt8) : Option PersistedSessionRecord :=
  match fmt.fromSlice bytes with
  | none => none
  | some record =>
    match record.validate with
    | .ok () => some record
    | .error _ => none

/-- One round of the loop: `read` is `std::fs::read`.
SRC: persistence.rs:324-343 -/
def Formats.loadEntry (read : OsString → Option (List UInt8)) (entry : DirEntry) :
    Option PersistedSessionRecord :=
  if extension entry.fileName ≠ some (osString "json") then none
  else (read entry.fileName).bind fmt.admit

/-- SRC: persistence.rs:315-346 -/
def Formats.loadAll (read : OsString → Option (List UInt8)) (dir : ReadDir) :
    List PersistedSessionRecord :=
  dir.entries.filterMap (fmt.loadEntry read)

end SessionStore

end Tymux.Model
