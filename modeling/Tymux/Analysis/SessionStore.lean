import Tymux.Model.SessionStore

/-!
# What a restart loads

A save writes the text of a record beside its file and renames it into place. So a record's file is
at all times the whole text of one record, the last whose save came to its end, wherever a call has
failed or a daemon has died (`Sound`); and a restart reads no other file.
-/

set_option autoImplicit false

namespace Tymux.Analysis.SessionStore

open Tymux.Lib Tymux.Model Tymux.Model.SessionStore Tymux.Model.Persistence

/-- What the store relies on: ids have texts that tell them apart, and none is empty. -/
structure Named (fmt : Formats) : Prop where
  injective : Function.Injective fmt.display
  nonempty : ∀ id, fmt.display id ≠ []

theorem extension_append {stem ext : OsString} (hstem : stem ≠ []) (hext : period ∉ ext)
    (hsome : ext ≠ []) : extension (stem ++ period :: ext) = some ext := by
  have hdots : stem ++ period :: ext ≠ [period, period] := by
    rcases stem with _ | ⟨a, _ | ⟨b, rest⟩⟩
    · exact absurd rfl hstem
    · simp [hsome]
    · simp
  have hends : ∀ b ∈ ext.reverse, b ≠ period := fun b hb hperiod =>
    hext (List.mem_reverse.mp (hperiod ▸ hb))
  have hsplit : (stem ++ period :: ext).reverse = ext.reverse ++ period :: stem.reverse := by simp
  unfold extension
  rw [if_neg hdots, hsplit, List.dropWhile_append_of_pos (by simpa using hends),
    List.takeWhile_append_of_pos (by simpa using hends)]
  obtain ⟨a, rest, hrest⟩ := List.exists_cons_of_ne_nil (List.reverse_ne_nil_iff.mpr hstem)
  simp [hrest]

section

variable {fmt : Formats}

theorem extension_finalPath (hfmt : Named fmt) (id : Uuid) :
    extension (fmt.finalPath id) = some (osString "json") :=
  extension_append (hfmt.nonempty id) (by decide) (by decide)

theorem finalPath_injective (hfmt : Named fmt) : Function.Injective fmt.finalPath :=
  fun _ _ h => hfmt.injective (List.append_cancel_right h)

theorem extension_tmpPath (hfmt : Named fmt) (id : Uuid) :
    extension (fmt.tmpPath id) = some (osString "tmp") := by
  have hpath : fmt.tmpPath id = (fmt.display id ++ osString ".json") ++ period :: osString "tmp" := by
    unfold Formats.tmpPath
    rw [List.append_assoc]
    rfl
  rw [hpath]
  exact extension_append (by simp [hfmt.nonempty id]) (by decide) (by decide)

theorem tmpPath_ne_finalPath (hfmt : Named fmt) (id id' : Uuid) :
    fmt.tmpPath id ≠ fmt.finalPath id' := by
  intro h
  have htmp := extension_tmpPath hfmt id
  rw [h, extension_finalPath hfmt] at htmp
  exact absurd htmp (by decide)

end

/-! ## The files -/

/-- The file of a session. -/
@[grind] def Holds (fmt : Formats) (file : Option (List UInt8)) :
    Option PersistedSessionRecord → Prop
  | none => file = none
  | some record => ∃ json, fmt.toVecPretty record = some json ∧ file = some json

/-- What a save in progress has written. -/
@[grind] def Progress (fmt : Formats) (files : Files) : Option Saving → Prop
  | none => True
  | some (.create record json) => fmt.toVecPretty record = some json
  | some (.write record written rest) =>
    fmt.toVecPretty record = some (written ++ rest) ∧
      files.lookup (fmt.tmpPath record.sessionId) = some written

structure Sound (fmt : Formats) (s : SessionStore) : Prop where
  holds : ∀ id, Holds fmt (s.files.lookup (fmt.finalPath id)) (s.committed id)
  own : ∀ name ∈ s.files, extension name = some (osString "json") → ∃ id, name = fmt.finalPath id
  progress : Progress fmt s.files s.saving

section

variable {fmt : Formats} {s s' : SessionStore}

theorem sound_init {files : Files}
    (hfiles : ∀ name ∈ files, extension name ≠ some (osString "json")) (hfmt : Named fmt) :
    Sound fmt (init files) where
  holds id := by
    refine AList.lookup_eq_none.mpr fun hmem => ?_
    exact hfiles _ hmem (extension_finalPath hfmt id)
  own name hmem hjson := absurd hjson (hfiles name hmem)
  progress := trivial

/-- INTERNAL: a change to the temporary file. -/
theorem Sound.tmp (h : Sound fmt s) (hfmt : Named fmt) (id : Uuid) (bytes : List UInt8)
    {saving : Option Saving}
    (hprogress : Progress fmt (s.files.insert (fmt.tmpPath id) bytes) saving) :
    Sound fmt { s with files := s.files.insert (fmt.tmpPath id) bytes, saving := saving } where
  holds id' := by
    simpa [tmpPath_ne_finalPath hfmt id id', (tmpPath_ne_finalPath hfmt id id').symm] using h.holds id'
  own name hmem hjson := by
    rcases (AList.mem_insert _).mp hmem with rfl | hmem
    · simp [extension_tmpPath hfmt] at hjson
      exact absurd hjson (by decide)
    · exact h.own name hmem hjson
  progress := hprogress

theorem Sound.finish (h : Sound fmt s) : Sound fmt s.finish :=
  ⟨h.holds, h.own, trivial⟩

theorem Sound.removeFile (h : Sound fmt s) (name : OsString) (hsaving : s.saving = none) :
    Sound fmt (s.removeFile fmt name) where
  holds id := by
    unfold SessionStore.removeFile
    dsimp only
    split_ifs with hname
    · rw [hname]
      exact AList.lookup_erase name s.files
    · rw [AList.lookup_erase_ne hname]
      exact h.holds id
  own name' hmem := h.own name' (AList.mem_erase.mp hmem).2
  progress := by
    show Progress fmt _ s.saving
    rw [hsaving]
    trivial

theorem Sound.rename (h : Sound fmt s) (hfmt : Named fmt) {record : PersistedSessionRecord}
    {written : List UInt8} (hsaving : s.saving = some (.write record written [])) {files : Files}
    (hfiles : s.files.rename (fmt.tmpPath record.sessionId) (fmt.finalPath record.sessionId) =
      some files) :
    Sound fmt { s.finish with
      files := files
      committed := Function.update s.committed record.sessionId (some record) } := by
  have hprogress := h.progress
  rw [hsaving] at hprogress
  obtain ⟨hjson, htmp⟩ := hprogress
  unfold Files.rename at hfiles
  rw [htmp] at hfiles
  cases hfiles
  constructor
  · intro id
    dsimp only
    rcases eq_or_ne id record.sessionId with rfl | hid
    · rw [Function.update_self, AList.lookup_insert]
      exact ⟨written, by simpa using hjson, rfl⟩
    · rw [Function.update_of_ne hid, AList.lookup_insert_ne ((finalPath_injective hfmt).ne hid),
        AList.lookup_erase_ne (tmpPath_ne_finalPath hfmt _ _).symm]
      exact h.holds id
  · intro name hmem hext
    rcases (AList.mem_insert _).mp hmem with rfl | hmem
    · exact ⟨_, rfl⟩
    · exact h.own name (AList.mem_erase.mp hmem).2 hext
  · trivial

theorem Sound.advance (h : Sound fmt s) (hfmt : Named fmt) {saving : Saving}
    (hsaving : s.saving = some saving) {e : Event} (hs : s.advance fmt saving e = some s') :
    Sound fmt s' := by
  have hprogress := h.progress
  rw [hsaving] at hprogress
  unfold SessionStore.advance at hs
  split at hs
  · split_ifs at hs
    · cases hs
      exact h.tmp hfmt _ _ ⟨hprogress, AList.lookup_insert _⟩
    · cases hs
      exact h.finish
  · cases hs
    refine h.tmp hfmt _ _ ⟨?_, AList.lookup_insert _⟩
    rw [List.append_assoc, List.take_append_drop]
    exact hprogress.1
  · cases hs
    exact h.finish
  · split at hs
    · split_ifs at hs
      · cases hs
        exact h.rename hfmt hsaving ‹_›
      · cases hs
        exact h.finish
    · cases hs
      exact h.finish
  · cases hs

theorem Sound.step (h : Sound fmt s) (hfmt : Named fmt) {e : Event}
    (hs : s.step fmt e = some s') : Sound fmt s' := by
  unfold SessionStore.step at hs
  split at hs
  · cases hs
    exact h.finish
  · split at hs
    · exact h.advance hfmt ‹_› hs
    · split at hs
      · cases hs
        exact ⟨h.holds, h.own, ‹_›⟩
      · cases hs
        exact h
    · cases hs
      unfold SessionStore.delete
      split_ifs
      · exact h.removeFile _ ‹_›
      · exact h
    · cases hs
      unfold SessionStore.prune
      split_ifs
      · exact h.removeFile _ ‹_›
      · exact h
    · cases hs

theorem sound_of_run (hfmt : Named fmt) {files : Files}
    (hfiles : ∀ name ∈ files, extension name ≠ some (osString "json")) {es : List Event}
    (hrun : run (SessionStore.step fmt) (init files) es = some s) : Sound fmt s :=
  run_invariant (Sound fmt) (fun _ => True) (fun _ _ _ _ h hs => h.step hfmt hs)
    (fun _ _ => trivial) (sound_init hfiles hfmt) hrun

/-! ## Loading -/

/-- What reading the text of a record gives. -/
def reloaded (fmt : Formats) (record : PersistedSessionRecord) : Option PersistedSessionRecord :=
  (fmt.toVecPretty record).bind fmt.admit

theorem loadEntry_finalPath (h : Sound fmt s) (hfmt : Named fmt) {entry : DirEntry} {id : Uuid}
    (hentry : entry.fileName = fmt.finalPath id) :
    fmt.loadEntry s.files.lookup entry = (s.committed id).bind (reloaded fmt) := by
  have hholds := h.holds id
  unfold Formats.loadEntry
  rw [hentry, if_neg (not_not.mpr (extension_finalPath hfmt id))]
  cases hcommitted : s.committed id with
  | none =>
      rw [hcommitted] at hholds
      simp [show s.files.lookup (fmt.finalPath id) = none from hholds]
  | some record =>
      rw [hcommitted] at hholds
      obtain ⟨json, hjson, hfile⟩ := hholds
      simp [reloaded, hjson, hfile]

/-- INTERNAL: the entries that are loaded are those of some sessions, each once. -/
theorem exists_sessions (h : Sound fmt s) (hfmt : Named fmt) (entries : List DirEntry)
    (hnodup : (entries.map DirEntry.fileName).Nodup)
    (hfiles : ∀ entry ∈ entries, entry.fileName ∈ s.files) :
    ∃ ids : List Uuid, ids.Nodup ∧
      (∀ id, id ∈ ids ↔ fmt.finalPath id ∈ entries.map DirEntry.fileName) ∧
      entries.filterMap (fmt.loadEntry s.files.lookup) =
        ids.filterMap fun id => (s.committed id).bind (reloaded fmt) := by
  induction entries with
  | nil => exact ⟨[], by simp⟩
  | cons entry entries ih =>
      obtain ⟨hnew, hnodup⟩ := List.nodup_cons.mp hnodup
      obtain ⟨ids, hids, hmem, hload⟩ := ih hnodup fun e he => hfiles e (List.mem_cons_of_mem _ he)
      by_cases hext : extension entry.fileName = some (osString "json")
      · obtain ⟨id, hid⟩ := h.own _ (hfiles entry List.mem_cons_self) hext
        refine ⟨id :: ids, List.nodup_cons.mpr ⟨?_, hids⟩, fun id' => ?_, ?_⟩
        · rw [hmem, ← hid]
          exact hnew
        · simp [hmem, hid, (finalPath_injective hfmt).eq_iff]
        · rw [List.filterMap_cons, List.filterMap_cons, loadEntry_finalPath h hfmt hid, hload]
      · refine ⟨ids, hids, fun id => ?_, ?_⟩
        · rw [hmem, List.map_cons, List.mem_cons, or_iff_right]
          rintro hid
          exact hext (hid ▸ extension_finalPath hfmt id)
        · rw [List.filterMap_cons, ← hload, Formats.loadEntry, if_pos hext]

end

end Tymux.Analysis.SessionStore

namespace Tymux.Analysis

open Tymux.Model Tymux.Model.SessionStore SessionStore

/-- INTERNAL: **what a restart loads.** After any run of saves, deletes and prunes, calls that fail
and daemons that die between any two calls, `load_all` gives for each session, once, what the last
record that was put in place for it reads back as: never a text that was cut off, and never a record
from before it.
SRC: persistence.rs:285-350, 379-416, engine.rs:440-446, 1043-1056 -/
theorem load_all_committed {fmt : Formats} (hfmt : Named fmt) {files : Files}
    (hfiles : ∀ name ∈ files, extension name ≠ some (osString "json")) {es : List Event}
    {s : SessionStore} (hrun : Lib.run (SessionStore.step fmt) (init files) es = some s)
    {dir : ReadDir} (hdir : (dir.entries.map DirEntry.fileName).Perm s.files.keys) :
    ∃ ids : List Uuid, ids.Nodup ∧ (∀ id, id ∈ ids ↔ (s.committed id).isSome = true) ∧
      fmt.loadAll s.files.lookup dir =
        ids.filterMap fun id => (s.committed id).bind (reloaded fmt) := by
  have hsound := sound_of_run hfmt hfiles hrun
  have hlisted : ∀ name, name ∈ dir.entries.map DirEntry.fileName ↔ name ∈ s.files := fun name =>
    hdir.mem_iff.trans AList.mem_keys.symm
  obtain ⟨ids, hids, hmem, hload⟩ := exists_sessions hsound hfmt dir.entries
    (hdir.nodup_iff.mpr s.files.keys_nodup)
    fun entry hentry => (hlisted _).mp (List.mem_map_of_mem hentry)
  refine ⟨ids, hids, fun id => ?_, hload⟩
  have hholds := hsound.holds id
  rw [hmem, hlisted, ← AList.lookup_isSome]
  cases hcommitted : s.committed id with
  | none =>
      rw [hcommitted] at hholds
      simp [show s.files.lookup (fmt.finalPath id) = none from hholds]
  | some record =>
      rw [hcommitted] at hholds
      obtain ⟨json, -, hfile⟩ := hholds
      simp [hfile]

/-- A session under a name. -/
def namedSession (name : String) : Persistence.PersistedSessionRecord where
  schemaVersion := 1
  sessionId := 1
  name := name
  windows := []
  activeWindowId := 1
  defaultRestartPolicy := none

/-- The texts of `namedSession`. -/
def sessionText (name : String) : List UInt8 :=
  osString ("\x7b\n  \"schema_version\": 1,\n  \"session_id\": " ++
    "\"00000000-0000-0000-0000-000000000001\",\n  \"name\": \"" ++ name ++
    "\",\n  \"windows\": [],\n  \"active_window_id\": " ++
    "\"00000000-0000-0000-0000-000000000001\"\n\x7d")

def sessionFormats : Formats where
  toVecPretty record := some (sessionText record.name)
  fromSlice bytes := ["work", "play"].findSome? fun name =>
    if bytes = sessionText name then some (namedSession name) else none
  display id := if id = 1 then osString "00000000-0000-0000-0000-000000000001"
    else List.replicate (id + 37) 0x30

theorem length_display (id : Uuid) :
    (sessionFormats.display id).length = if id = 1 then 36 else id + 37 := by
  show (if id = 1 then _ else _ : OsString).length = _
  split_ifs
  · rfl
  · exact List.length_replicate

theorem named_sessionFormats : Named sessionFormats where
  injective id id' h := by
    have hlength := congrArg List.length h
    rw [length_display, length_display] at hlength
    grind -ring -linarith
  nonempty id h := by
    have hlength := congrArg List.length h
    rw [length_display, List.length_nil] at hlength
    grind -ring -linarith

/-- A save that comes to its end, and one that its daemon does not live to end. -/
def cutSave : List Event :=
  [.save (namedSession "work"), .create true, .write (some 200), .rename true,
    .save (namedSession "play"), .create true, .write (some 9), .crash]

def bothFiles : ReadDir :=
  some [some ⟨sessionFormats.tmpPath 1, none, true⟩, some ⟨sessionFormats.finalPath 1, none, true⟩]

theorem load_all_committed_cutSave : ∃ s,
    Lib.run (SessionStore.step sessionFormats) (init ∅) cutSave = some s ∧
    sessionFormats.loadAll s.files.lookup bothFiles = [namedSession "work"] ∧
    ∃ ids : List Uuid, ids.Nodup ∧ (∀ id, id ∈ ids ↔ (s.committed id).isSome = true) ∧
      sessionFormats.loadAll s.files.lookup bothFiles =
        ids.filterMap fun id => (s.committed id).bind (reloaded sessionFormats) := by
  have hempty : ∀ name ∈ (∅ : Files), extension name ≠ some (osString "json") := by
    intro name hname
    cases AList.notMem_empty name hname
  refine ⟨_, rfl, by decide +kernel, ?_⟩
  refine @load_all_committed sessionFormats named_sessionFormats ∅ hempty cutSave _ rfl bothFiles ?_
  decide +kernel

end Tymux.Analysis
