import Tymux.Analysis.LastPrinted
import Tymux.Analysis.Vt.Representation
import Tymux.Model.Priming

/-!
# The payloads after a snapshot

The emulator of the pane reads a chunk at once, and the clients get it with the end of an open
sequence held back. A snapshot is therefore ahead of the payloads by what is held: what a client is
sent after the snapshot, up to the end of the process, is the held bytes and then what the emulator
of the pane reads after the snapshot (`Since`). Any bytes can come then (`Ends`).
-/

set_option autoImplicit false

namespace Tymux.Analysis

open Tymux.Lib Tymux.Model Tymux.Model.Vt Tymux.Model.TerminalQuery
open Tymux.Analysis.Vt (WidthLaw ScreenFits Call)

section

variable {σ : Type} {tok : Tokenizer σ} {width : Char → Option ℕ} {colors : Colors}

/-! ## What an emulator is after some bytes -/

theorem collecting_fst {γ : Type} (f : Screen → Vt.Action → Option (Screen × List γ)) (s : Screen)
    (acts : List Vt.Action) :
    (collecting f s acts).map Prod.fst = acts.foldlM (fun s a => (f s a).map Prod.fst) s := by
  unfold collecting
  generalize ([] : List γ) = before
  induction acts generalizing s before with
  | nil => rfl
  | cons a acts ih =>
      rw [List.foldlM_cons, List.foldlM_cons]
      cases f s a with
      | none => rfl
      | some next => exact ih next.1 (before ++ next.2)

/-- The calls that are made on the way do not matter. -/
def emulatorAfter (tok : Tokenizer σ) (width : Char → Option ℕ) (p : Parser σ)
    (bytes : List UInt8) : Option (Parser σ) :=
  (screenAfter width p.screen (p.advance tok bytes).2).map fun screen =>
    { (p.advance tok bytes).1 with screen }

theorem processing_fst {γ : Type} (f : Screen → Vt.Action → Option (Screen × List γ))
    (hf : ∀ s a, (f s a).map Prod.fst = (Screen.perform width s a).map Prod.fst) (p : Parser σ)
    (bytes : List UInt8) :
    (processing f tok p bytes).map Prod.fst = emulatorAfter tok width p bytes := by
  have hscreen : (collecting f p.screen (p.advance tok bytes).2).map Prod.fst =
      screenAfter width p.screen (p.advance tok bytes).2 := by
    rw [collecting_fst]
    unfold screenAfter
    congr 1
    funext s a
    exact hf s a
  unfold emulatorAfter processing
  rw [← hscreen, advance_eq]
  dsimp only
  rw [Option.map_map, Option.map_map]
  rfl

theorem process_fst (p : Parser σ) (bytes : List UInt8) :
    (p.process tok width bytes).map Prod.fst = emulatorAfter tok width p bytes := by
  rw [process_eq]
  exact processing_fst _ (fun _ _ => rfl) p bytes

theorem processReplying_fst (p : Parser σ) (bytes : List UInt8) (colors : Colors) :
    (processReplying tok width colors p bytes).map Prod.fst = emulatorAfter tok width p bytes := by
  rw [processReplying_eq]
  refine processing_fst _ (fun s a => ?_) p bytes
  unfold replying
  rw [Option.map_map]
  rfl

theorem emulatorAfter_nil (p : Parser σ) : emulatorAfter tok width p [] = some p := by
  unfold emulatorAfter
  rw [advance_eq]
  rfl

theorem emulatorAfter_append (p : Parser σ) (u v : List UInt8) :
    emulatorAfter tok width p (u ++ v) =
      (emulatorAfter tok width p u).bind fun q => emulatorAfter tok width q v := by
  rw [← process_fst, ← process_fst, (process_append tok width {} p u v).1, Option.map_bind]
  cases p.process tok width u with
  | none => rfl
  | some r =>
      show Option.map _ (Option.map _ _) = emulatorAfter tok width r.1 v
      rw [← process_fst, Option.map_map]
      rfl

/-- How the bytes are cut into payloads does not matter. -/
theorem processAll_eq (p : Parser σ) (payloads : List (List UInt8)) :
    p.processAll tok width payloads = emulatorAfter tok width p payloads.flatten := by
  induction payloads generalizing p with
  | nil => exact (emulatorAfter_nil p).symm
  | cons data payloads ih =>
      rw [List.flatten_cons, emulatorAfter_append, ← process_fst]
      unfold Parser.processAll
      rw [List.foldlM_cons]
      show Option.bind _ _ = _
      congr 1
      funext q
      exact ih q

theorem screen_emulatorAfter (p : Parser σ) (bytes : List UInt8) :
    (emulatorAfter tok width p bytes).map Parser.screen =
      screenAfter width p.screen (p.advance tok bytes).2 := by
  unfold emulatorAfter
  rw [Option.map_map]
  exact Option.map_id'

/-! ## What has been sent since the snapshot -/

/-- The bytes of the payloads with a higher seq. -/
def liveBytes (seq : ℕ) (sent : List (ℕ × List UInt8)) : List UInt8 :=
  (livePayloads seq sent).flatten

theorem liveBytes_append (seq : ℕ) (sent : List (ℕ × List UInt8)) (next : ℕ) (data : List UInt8) :
    liveBytes seq (sent ++ [(next, data)]) =
      liveBytes seq sent ++ if seq < next then data else [] := by
  unfold liveBytes livePayloads
  rw [List.filter_append, List.map_append, List.flatten_append]
  congr 1
  by_cases hnext : seq < next
  · rw [if_pos hnext, List.filter_cons_of_pos (by simpa using hnext)]
    exact List.append_nil data
  · rw [if_neg hnext, List.filter_cons_of_neg (by simpa using hnext)]
    rfl

/-- The seqs of the pane: the chunk under way has the next one until it is pushed. -/
structure Numbered (p : ReaderPane σ) : Prop where
  sent : ∀ entry ∈ p.sent, entry.1 ≤ p.outputSeq
  stage : match p.stage with
    | .decided next _ _ | .parsed next _ _ | .scanned next _ _ => next = p.outputSeq + 1
    | .pushed next _ _ => next = p.outputSeq
    | _ => True

theorem broadcast_sent {p p' : ReaderPane σ} (h : p.broadcast = some p') :
    ∃ next daemon scanned payload, p.stage = .pushed next daemon scanned ∧
      payload = (if daemon then scanned.stripped else scanned.raw) ∧ p' =
        { p with
          sent := if payload.isEmpty then p.sent else p.sent ++ [(next, payload)]
          stage := .waiting } := by
  unfold ReaderPane.broadcast at h
  split at h
  · rename_i next daemon scanned hstage
    cases h
    exact ⟨next, daemon, scanned, _, hstage, rfl, rfl⟩
  · cases h

/-- The bytes that the emulator reads in a step. -/
def readBy (p : ReaderPane σ) : PaneEvent → List UInt8
  | .parse => match p.stage with
    | .decided _ _ chunk => chunk
    | _ => []
  | .inject data => data
  | _ => []

theorem emulatorAfter_step {p p' : ReaderPane σ} {e : PaneEvent}
    (hstep : p.step tok width colors e = some p') :
    emulatorAfter tok width p.parser (readBy p e) = some p'.parser := by
  have hstill : emulatorAfter tok width p.parser [] = some p.parser := emulatorAfter_nil _
  by_cases hclient : OfClient e
  · obtain ⟨clients, new, -, rfl⟩ := client_inv hclient hstep
    have hnone : readBy p e = [] := by
      cases e <;> first | rfl | exact hclient.elim
    rw [hnone]
    exact hstill
  cases e with
  | decide chunk =>
      obtain ⟨next, daemon, -, rfl⟩ := decide_inv hstep
      exact hstill
  | parse =>
      obtain ⟨next, daemon, chunk, r, hstage, hr, rfl⟩ := parse_inv hstep
      unfold readBy
      rw [hstage]
      dsimp only
      rw [← processReplying_fst p.parser _ colors, hr]
      rfl
  | scan =>
      obtain ⟨next, daemon, chunk, -, rfl⟩ := scan_inv hstep
      exact hstill
  | push =>
      obtain ⟨next, daemon, scanned, -, rfl⟩ := push_inv hstep
      exact hstill
  | broadcast =>
      obtain ⟨next, daemon, scanned, payload, -, -, rfl⟩ := broadcast_sent hstep
      exact hstill
  | eof =>
      obtain ⟨-, ⟨-, rfl⟩ | ⟨-, rfl⟩⟩ := eof_inv hstep
      · exact hstill
      · exact hstill
  | inject data =>
      obtain ⟨r, -, hr, rfl⟩ := inject_inv hstep
      show emulatorAfter tok width p.parser data = some r.1
      rw [← processReplying_fst p.parser _ colors, hr]
      rfl
  | respawn =>
      obtain ⟨-, rfl⟩ := respawn_inv hstep
      exact hstill
  | register => exact absurd trivial hclient
  | goLiveAfter client seq => exact absurd trivial hclient
  | setLagged client lagged => exact absurd trivial hclient
  | dropClient client => exact absurd trivial hclient
  | resume fromSeq => exact absurd trivial hclient

theorem liveBytes_sent (seq : ℕ) (sent : List (ℕ × List UInt8)) (next : ℕ) (data : List UInt8) :
    liveBytes seq (if data.isEmpty then sent else sent ++ [(next, data)]) =
      liveBytes seq sent ++ if seq < next then data else [] := by
  split
  · rename_i hempty
    rw [List.isEmpty_iff.mp hempty, ite_self, List.append_nil]
  · exact liveBytes_append seq sent next data

/-- INTERNAL: One step of the pane. -/
theorem numbered_step {p p' : ReaderPane σ} {e : PaneEvent} (h : Numbered p)
    (hstep : p.step tok width colors e = some p') : Numbered p' ∧ p.outputSeq ≤ p'.outputSeq := by
  obtain ⟨hsent, hnext⟩ := h
  have hlater : ∀ data : List UInt8, ∀ entry ∈ p.sent ++ [(p.outputSeq + 1, data)],
      entry.1 ≤ p.outputSeq + 1 := by
    intro data entry hentry
    rcases List.mem_append.mp hentry with hold | hnew
    · exact (hsent entry hold).trans (Nat.le_succ _)
    · rw [List.mem_singleton.mp hnew]
  by_cases hclient : OfClient e
  · obtain ⟨clients, new, -, rfl⟩ := client_inv hclient hstep
    exact ⟨⟨hsent, hnext⟩, le_refl _⟩
  cases e with
  | decide chunk =>
      unfold ReaderPane.step ReaderPane.decide at hstep
      dsimp only at hstep
      split at hstep
      · cases hstep
        exact ⟨⟨hsent, rfl⟩, le_refl _⟩
      · cases hstep
  | parse =>
      obtain ⟨next, daemon, chunk, r, hstage, -, rfl⟩ := parse_inv hstep
      rw [hstage] at hnext
      exact ⟨⟨hsent, hnext⟩, le_refl _⟩
  | scan =>
      obtain ⟨next, daemon, chunk, hstage, rfl⟩ := scan_inv hstep
      rw [hstage] at hnext
      exact ⟨⟨hsent, hnext⟩, le_refl _⟩
  | push =>
      obtain ⟨next, daemon, scanned, hstage, rfl⟩ := push_inv hstep
      rw [hstage] at hnext
      refine ⟨⟨fun entry hentry => ?_, hnext⟩, Nat.le_succ _⟩
      exact (hsent entry hentry).trans (Nat.le_succ _)
  | broadcast =>
      obtain ⟨next, daemon, scanned, payload, hstage, -, rfl⟩ := broadcast_sent hstep
      rw [hstage] at hnext
      refine ⟨⟨fun entry hentry => ?_, trivial⟩, le_refl _⟩
      dsimp only at hentry
      split at hentry
      · exact hsent entry hentry
      · rcases List.mem_append.mp hentry with hold | hnew
        · exact hsent entry hold
        · rw [List.mem_singleton.mp hnew]
          exact le_of_eq hnext
  | eof =>
      obtain ⟨-, ⟨-, rfl⟩ | ⟨-, rfl⟩⟩ := eof_inv hstep
      · exact ⟨⟨hsent, trivial⟩, le_refl _⟩
      · exact ⟨⟨hlater _, trivial⟩, Nat.le_succ _⟩
  | inject data =>
      obtain ⟨r, hstage, -, rfl⟩ := inject_inv hstep
      refine ⟨⟨hlater data, ?_⟩, Nat.le_succ _⟩
      show match p.stage with
        | .decided next _ _ | .parsed next _ _ | .scanned next _ _ => next = p.outputSeq + 1 + 1
        | .pushed next _ _ => next = p.outputSeq + 1
        | _ => True
      rw [hstage]
      trivial
  | respawn =>
      obtain ⟨-, rfl⟩ := respawn_inv hstep
      exact ⟨⟨hsent, trivial⟩, le_refl _⟩
  | register => exact absurd trivial hclient
  | goLiveAfter client seq => exact absurd trivial hclient
  | setLagged client lagged => exact absurd trivial hclient
  | dropClient client => exact absurd trivial hclient
  | resume fromSeq => exact absurd trivial hclient

/-- What the emulator has read and the clients have not been sent. -/
def openBytes (seq : ℕ) (p : ReaderPane σ) : List UInt8 :=
  match p.stage with
  | .parsed _ _ chunk => p.scanner.held ++ chunk
  | .scanned _ _ scanned => scanned.raw ++ p.scanner.held
  | .pushed next _ scanned => (if seq < next then scanned.raw else []) ++ p.scanner.held
  | _ => p.scanner.held

/-- The client is not sent a chunk without its queries. -/
def Unstripped (seq : ℕ) (p : ReaderPane σ) (e : PaneEvent) : Prop :=
  e = .broadcast → ∀ next scanned, p.stage = .pushed next true scanned → seq < next →
    scanned.stripped = scanned.raw

/-- Nothing is held while no reader runs. -/
theorem released_step {p p' : ReaderPane σ} {e : PaneEvent}
    (h : p.stage = .stopped → p.scanner.held = [])
    (hstep : p.step tok width colors e = some p') :
    p'.stage = .stopped → p'.scanner.held = [] := by
  intro hstage'
  by_cases hclient : OfClient e
  · obtain ⟨clients, new, -, rfl⟩ := client_inv hclient hstep
    exact h hstage'
  cases e with
  | decide chunk =>
      obtain ⟨next, daemon, -, rfl⟩ := decide_inv hstep
      cases hstage'
  | parse =>
      obtain ⟨next, daemon, chunk, r, -, -, rfl⟩ := parse_inv hstep
      cases hstage'
  | scan =>
      obtain ⟨next, daemon, chunk, -, rfl⟩ := scan_inv hstep
      cases hstage'
  | push =>
      obtain ⟨next, daemon, scanned, -, rfl⟩ := push_inv hstep
      cases hstage'
  | broadcast =>
      obtain ⟨next, daemon, scanned, payload, -, -, rfl⟩ := broadcast_sent hstep
      cases hstage'
  | eof =>
      obtain ⟨-, ⟨-, rfl⟩ | ⟨-, rfl⟩⟩ := eof_inv hstep
      · rfl
      · rfl
  | inject data =>
      obtain ⟨r, hstage, -, rfl⟩ := inject_inv hstep
      exact h hstage
  | respawn =>
      obtain ⟨-, rfl⟩ := respawn_inv hstep
      cases hstage'
  | register => exact absurd trivial hclient
  | goLiveAfter client seq => exact absurd trivial hclient
  | setLagged client lagged => exact absurd trivial hclient
  | dropClient client => exact absurd trivial hclient
  | resume fromSeq => exact absurd trivial hclient

/-- INTERNAL: The pane after a snapshot of `origin` that was taken while the bytes were held, when
its emulator has read `u` since. -/
structure Since (tok : Tokenizer σ) (width : Char → Option ℕ) (origin : Parser σ) (seq : ℕ)
    (held u : List UInt8) (p : ReaderPane σ) : Prop where
  numbered : Numbered p
  later : seq ≤ p.outputSeq
  stopped : p.stage = .stopped → p.scanner.held = []
  read : emulatorAfter tok width origin u = some p.parser
  stream : liveBytes seq p.sent ++ openBytes seq p = held ++ u

/-- INTERNAL: One step of the pane. -/
theorem stream_step {origin : Parser σ} {seq : ℕ} {held u : List UInt8} {p p' : ReaderPane σ}
    {e : PaneEvent} (h : Since tok width origin seq held u p) (hraw : Unstripped seq p e)
    (hstep : p.step tok width colors e = some p') :
    liveBytes seq p'.sent ++ openBytes seq p' = held ++ (u ++ readBy p e) := by
  obtain ⟨hnumbered, hlater, hstopped, hread, hstream⟩ := h
  unfold openBytes at hstream
  by_cases hclient : OfClient e
  · obtain ⟨clients, new, -, rfl⟩ := client_inv hclient hstep
    have hnone : readBy p e = [] := by
      cases e <;> first | rfl | exact hclient.elim
    rw [hnone, List.append_nil]
    exact hstream
  cases e with
  | decide chunk =>
      obtain ⟨next, daemon, hstage, rfl⟩ := decide_inv hstep
      rw [hstage] at hstream
      rw [← List.append_nil u] at hstream
      exact hstream
  | parse =>
      obtain ⟨next, daemon, chunk, r, hstage, -, rfl⟩ := parse_inv hstep
      unfold readBy
      rw [hstage] at hstream ⊢
      show liveBytes seq p.sent ++ (p.scanner.held ++ chunk) = held ++ (u ++ chunk)
      rw [← List.append_assoc, hstream, List.append_assoc]
  | scan =>
      obtain ⟨next, daemon, chunk, hstage, rfl⟩ := scan_inv hstep
      rw [hstage] at hstream
      have hpass : (p.scanner.feed tok chunk).1.raw ++ (p.scanner.feed tok chunk).2.held =
          p.scanner.held ++ chunk := feed_passthrough p.scanner chunk
      show liveBytes seq p.sent ++
        ((p.scanner.feed tok chunk).1.raw ++ (p.scanner.feed tok chunk).2.held) = held ++ (u ++ [])
      rw [hpass, List.append_nil]
      exact hstream
  | push =>
      obtain ⟨next, daemon, scanned, hstage, rfl⟩ := push_inv hstep
      have hnext := hnumbered.stage
      rw [hstage] at hstream hnext
      show liveBytes seq p.sent ++ ((if seq < next then scanned.raw else []) ++ p.scanner.held) =
        held ++ (u ++ [])
      rw [if_pos (by omega), List.append_nil]
      exact hstream
  | broadcast =>
      obtain ⟨next, daemon, scanned, payload, hstage, hpayload, rfl⟩ := broadcast_sent hstep
      rw [hstage] at hstream
      have hsame : (if seq < next then payload else []) =
          if seq < next then scanned.raw else [] := by
        split
        · rename_i hnext
          cases daemon with
          | false => exact hpayload
          | true => exact hpayload.trans (hraw rfl next scanned hstage hnext)
        · rfl
      show liveBytes seq (if payload.isEmpty then p.sent else p.sent ++ [(next, payload)]) ++
        p.scanner.held = held ++ (u ++ [])
      rw [liveBytes_sent, hsame, List.append_assoc, List.append_nil]
      exact hstream
  | eof =>
      obtain ⟨hstage, ⟨hnil, rfl⟩ | ⟨-, rfl⟩⟩ := eof_inv hstep
      · rw [hstage] at hstream
        dsimp only at hstream
        rw [hnil] at hstream
        show liveBytes seq p.sent ++ [] = held ++ (u ++ [])
        rw [hstream, List.append_nil]
      · rw [hstage] at hstream
        show liveBytes seq (p.sent ++ [(p.outputSeq + 1, p.scanner.held)]) ++ [] = held ++ (u ++ [])
        rw [liveBytes_append, if_pos (by omega), List.append_nil, List.append_nil]
        exact hstream
  | inject data =>
      obtain ⟨r, hstage, -, rfl⟩ := inject_inv hstep
      rw [hstage] at hstream
      dsimp only at hstream
      rw [hstopped hstage, List.append_nil] at hstream
      show liveBytes seq (p.sent ++ [(p.outputSeq + 1, data)]) ++ openBytes seq p =
        held ++ (u ++ data)
      unfold openBytes
      rw [hstage, liveBytes_append, if_pos (by omega)]
      dsimp only
      rw [hstopped hstage, List.append_nil, hstream, List.append_assoc]
  | respawn =>
      obtain ⟨hstage, rfl⟩ := respawn_inv hstep
      rw [hstage] at hstream
      dsimp only at hstream
      rw [hstopped hstage] at hstream
      show liveBytes seq p.sent ++ [] = held ++ (u ++ [])
      rw [hstream, List.append_nil]
  | register => exact absurd trivial hclient
  | goLiveAfter client seq => exact absurd trivial hclient
  | setLagged client lagged => exact absurd trivial hclient
  | dropClient client => exact absurd trivial hclient
  | resume fromSeq => exact absurd trivial hclient

theorem since_step {origin : Parser σ} {seq : ℕ} {held u : List UInt8} {p p' : ReaderPane σ}
    {e : PaneEvent} (h : Since tok width origin seq held u p) (hraw : Unstripped seq p e)
    (hstep : p.step tok width colors e = some p') :
    Since tok width origin seq held (u ++ readBy p e) p' := by
  obtain ⟨hnumbered, hle⟩ := numbered_step h.numbered hstep
  refine ⟨hnumbered, h.later.trans hle, released_step h.stopped hstep, ?_, stream_step h hraw hstep⟩
  rw [emulatorAfter_append, h.read, Option.bind_some]
  exact emulatorAfter_step hstep

/-! ## Runs that the client can see to their end -/

/-- The pane can go on until no reader runs, with `u` read since the snapshot. -/
def Ends (tok : Tokenizer σ) (width : Char → Option ℕ) (colors : Colors) (origin : Parser σ)
    (seq : ℕ) (held u : List UInt8) (p : ReaderPane σ) : Prop :=
  ∃ events p', p.run tok width colors events = some p' ∧
    Along (ReaderPane.step tok width colors) (Unstripped seq) p events ∧ p'.stage = .stopped ∧
    Since tok width origin seq held u p'

variable {origin : Parser σ} {seq : ℕ} {held u v : List UInt8} {p p' : ReaderPane σ}

theorem ends_cons {e : PaneEvent} (hraw : Unstripped seq p e)
    (hstep : p.step tok width colors e = some p')
    (h : Ends tok width colors origin seq held u p') :
    Ends tok width colors origin seq held u p := by
  obtain ⟨events, p'', hrun, halong, hstopped, hsince⟩ := h
  refine ⟨e :: events, p'', ?_, ⟨hraw, fun s hs => ?_⟩, hstopped, hsince⟩
  · unfold ReaderPane.run
    rw [run_cons_of_step _ hstep]
    exact hrun
  · rw [hstep, Option.some_inj] at hs
    exact hs ▸ halong

theorem unstripped_of_ne {e : PaneEvent} (h : e ≠ .broadcast) : Unstripped seq p e :=
  fun he => absurd he h

/-- A step that reads nothing. -/
theorem ends_step {e : PaneEvent} (h : Since tok width origin seq held u p)
    (hraw : Unstripped seq p e) (hread : readBy p e = [])
    (hstep : p.step tok width colors e = some p')
    (hrest : Since tok width origin seq held u p' → Ends tok width colors origin seq held v p') :
    Ends tok width colors origin seq held v p := by
  have hsince := since_step h hraw hstep
  rw [hread, List.append_nil] at hsince
  exact ends_cons hraw hstep (hrest hsince)

/-- The process ends. -/
theorem ends_eof (h : Since tok width origin seq held u p) (hstage : p.stage = .waiting) :
    Ends tok width colors origin seq held u p := by
  have hstep : ∃ p', p.step tok width colors .eof = some p' ∧ p'.stage = .stopped := by
    show ∃ p', p.eof = some p' ∧ p'.stage = .stopped
    unfold ReaderPane.eof
    rw [hstage]
    dsimp only
    split
    · exact ⟨_, rfl, rfl⟩
    · exact ⟨_, rfl, rfl⟩
  obtain ⟨p', hstep, hstopped⟩ := hstep
  refine ends_step h (unstripped_of_ne (e := .eof) nofun) rfl hstep fun hsince => ?_
  exact ⟨[], p', rfl, trivial, hstopped, hsince⟩

theorem ends_pushed {next : ℕ} {scanned : Scanned} (h : Since tok width origin seq held u p)
    (hstage : p.stage = .pushed next false scanned) :
    Ends tok width colors origin seq held u p := by
  have hraw : Unstripped seq p .broadcast := by
    intro _ next' scanned' hdaemon
    rw [hstage] at hdaemon
    cases hdaemon
  have hstep : ∃ p', p.step tok width colors .broadcast = some p' ∧ p'.stage = .waiting := by
    show ∃ p', p.broadcast = some p' ∧ p'.stage = .waiting
    unfold ReaderPane.broadcast
    rw [hstage]
    exact ⟨_, rfl, rfl⟩
  obtain ⟨p', hstep, hwaiting⟩ := hstep
  exact ends_step h hraw rfl hstep fun hsince => ends_eof hsince hwaiting

theorem ends_scanned {next : ℕ} {scanned : Scanned} (h : Since tok width origin seq held u p)
    (hstage : p.stage = .scanned next false scanned) :
    Ends tok width colors origin seq held u p := by
  have hstep : p.step tok width colors .push = some
      { p.log next scanned.stripped with stage := .pushed next false scanned } := by
    show p.push = _
    unfold ReaderPane.push
    rw [hstage]
  exact ends_step h (unstripped_of_ne (e := .push) nofun) rfl hstep fun hsince =>
    ends_pushed hsince rfl

theorem ends_parsed {next : ℕ} {chunk : List UInt8} (h : Since tok width origin seq held u p)
    (hstage : p.stage = .parsed next false chunk) :
    Ends tok width colors origin seq held u p := by
  have hstep : p.step tok width colors .scan = some
      { p with
        scanner := (p.scanner.feed tok chunk).2
        stage := .scanned next false (p.scanner.feed tok chunk).1 } := by
    show p.scan tok = _
    unfold ReaderPane.scan
    rw [hstage]
  exact ends_step h (unstripped_of_ne (e := .scan) nofun) rfl hstep fun hsince =>
    ends_scanned hsince rfl

theorem ends_decided {next : ℕ} {chunk : List UInt8} (h : Since tok width origin seq held u p)
    (hstage : p.stage = .decided next false chunk)
    (hreads : (processReplying tok width colors p.parser chunk).isSome) :
    Ends tok width colors origin seq held (u ++ chunk) p := by
  obtain ⟨r, hr⟩ := Option.isSome_iff_exists.mp hreads
  have hstep : p.step tok width colors .parse =
      some { p.offer r.2 with parser := r.1, stage := .parsed next false chunk } := by
    show p.parse tok width colors = _
    unfold ReaderPane.parse
    rw [hstage]
    dsimp only
    rw [hr]
    rfl
  have hraw : Unstripped seq p .parse := unstripped_of_ne nofun
  have hsince := since_step h hraw hstep
  rw [show readBy p .parse = chunk by unfold readBy; rw [hstage]] at hsince
  exact ends_cons hraw hstep (ends_parsed hsince rfl)

/-- A client registers and goes live, and answers for the next chunk. -/
theorem ends_chunk {chunk : List UInt8} (h : Since tok width origin seq held u p)
    (hstage : p.stage = .waiting)
    (hreads : (processReplying tok width colors p.parser chunk).isSome) :
    Ends tok width colors origin seq held (u ++ chunk) p := by
  let clients := p.clients.register.goLiveAfter p.clients.nextClient seq
  have hanswers : clients.hasAnswerer (p.outputSeq + 1) = true := by
    unfold ClientRegistry.hasAnswerer
    rw [List.any_eq_true]
    refine ⟨(p.clients.nextClient, ⟨seq, true⟩), ?_, ?_⟩
    · apply List.mem_map.mpr
      refine ⟨(p.clients.nextClient, ⟨TerminalQuery.u64Max, true⟩), ?_, if_pos rfl⟩
      exact List.mem_append_right _ (List.mem_singleton_self _)
    · simpa using Nat.lt_succ_of_le h.later
  have hregister : p.step tok width colors .register =
      some { p with clients := p.clients.register } := rfl
  have hlive : ({ p with clients := p.clients.register } : ReaderPane σ).step tok width colors
      (.goLiveAfter p.clients.nextClient seq) = some { p with clients } := rfl
  have hdecide : ({ p with clients } : ReaderPane σ).step tok width colors (.decide chunk) = some
      { p with
        clients
        daemonAnswers := false
        chunks := p.chunks ++ [(false, chunk)]
        stage := .decided (p.outputSeq + 1) false chunk } := by
    show ReaderPane.decide { p with clients } chunk = _
    unfold ReaderPane.decide
    dsimp only
    rw [hstage]
    dsimp only
    rw [hanswers]
    rfl
  refine ends_step h (unstripped_of_ne (e := .register) nofun) rfl hregister fun hregistered => ?_
  refine ends_step hregistered (unstripped_of_ne (e := .goLiveAfter _ seq) nofun) rfl hlive
    fun hwent => ?_
  refine ends_step hwent (unstripped_of_ne (e := .decide chunk) nofun) rfl hdecide fun hdecided => ?_
  exact ends_decided hdecided rfl hreads

theorem snapshotWithSeq_inv {screen : Screen} (h : p.snapshotWithSeq = some (screen, seq)) :
    p.parser.screen = screen ∧ p.outputSeq = seq ∧
      (p.stage = .waiting ∨ (∃ next daemon scanned, p.stage = .pushed next daemon scanned) ∨
        p.stage = .stopped) := by
  unfold ReaderPane.snapshotWithSeq at h
  split at h
  · rename_i hstage
    cases h
    exact ⟨rfl, rfl, Or.inl hstage⟩
  · rename_i next daemon scanned hstage
    cases h
    exact ⟨rfl, rfl, Or.inr (Or.inl ⟨_, _, _, hstage⟩)⟩
  · rename_i hstage
    cases h
    exact ⟨rfl, rfl, Or.inr (Or.inr hstage)⟩
  · cases h

/-- From where a snapshot can be taken, the pane comes to where it waits for a chunk. -/
theorem ends_of_snapshot {screen : Screen} (h : Since tok width origin seq held u p)
    (hsnap : p.snapshotWithSeq = some (screen, seq))
    (hends : ∀ q : ReaderPane σ, q.parser = p.parser → q.stage = .waiting →
      Since tok width origin seq held u q → Ends tok width colors origin seq held v q) :
    Ends tok width colors origin seq held v p := by
  obtain ⟨-, hseq, hstage | ⟨next, daemon, scanned, hstage⟩ | hstage⟩ := snapshotWithSeq_inv hsnap
  · exact hends p rfl hstage h
  · have hnext := h.numbered.stage
    rw [hstage] at hnext
    have hstep : ∃ q, p.step tok width colors .broadcast = some q ∧ q.parser = p.parser ∧
        q.stage = .waiting := by
      show ∃ q, p.broadcast = some q ∧ q.parser = p.parser ∧ q.stage = .waiting
      unfold ReaderPane.broadcast
      rw [hstage]
      exact ⟨_, rfl, rfl, rfl⟩
    obtain ⟨q, hstep, hparser, hwaiting⟩ := hstep
    refine ends_step h ?_ rfl hstep (hends q hparser hwaiting)
    -- the screen of the snapshot has what this payload does
    intro _ next' scanned' hsame hlt
    rw [hstage] at hsame
    cases hsame
    omega
  · have hstep : p.step tok width colors .respawn = some
        { p with scanner := QueryScanner.default tok, chunks := [], stage := .waiting } := by
      show p.respawn tok = _
      unfold ReaderPane.respawn
      rw [hstage]
    exact ends_step h (unstripped_of_ne (e := .respawn) nofun) rfl hstep (hends _ rfl rfl)

end

end Tymux.Analysis
