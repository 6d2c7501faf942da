import Tymux.Analysis.ReaderSteps
import Tymux.Analysis.StripAgreement

/-!
# A query is answered once

The reader of a pane, with clients that come and go between any two of its steps. Whatever it
decides for a chunk, it uses the decision for all of the queries that end in it: the daemon answers
and they are taken out of the payload, or they stay and the daemon is silent. The scanner holds a
query back until it is complete, so the decision of an earlier chunk never applies to it.
-/

set_option autoImplicit false

namespace Tymux.Analysis

open Tymux.Model.Vt Tymux.Model.TerminalQuery Tymux.Analysis.Vt Tymux.Lib

section

variable {σ : Type} (tok : Tokenizer σ) (width : Char → Option ℕ) (colors : Colors)

/-- The walk over the chunks, with the decisions. -/
def Walk.chunks (w : Walk σ) (chunks : List (Bool × List UInt8)) : Option (Walk σ) :=
  chunks.foldlM (fun w chunk => w.chunk tok width colors chunk.1 chunk.2) w

end

section

variable {σ : Type} {tok : Tokenizer σ} {width : Char → Option ℕ} {colors : Colors}

theorem chunks_append {w w' w'' : Walk σ} {chunks : List (Bool × List UInt8)}
    (h : w.chunks tok width colors chunks = some w') {daemon : Bool} {chunk : List UInt8}
    (h' : w'.chunk tok width colors daemon chunk = some w'') :
    w.chunks tok width colors (chunks ++ [(daemon, chunk)]) = some w'' := by
  unfold Walk.chunks at h ⊢
  rw [List.foldlM_append, h]
  show Option.bind (w'.chunk tok width colors daemon chunk) _ = _
  rw [h']
  rfl

/-! ## Between two steps -/

/-- INTERNAL: The pane has read and given out the chunks that `w` has walked over. -/
structure SettledAt (tok : Tokenizer σ) (size : Size) (cap : ℕ) (u : List UInt8) (w : Walk σ)
    (scanner : QueryScanner σ) (sent logged : List UInt8) : Prop where
  between : Between tok size cap scanner u w
  sent : sent ++ scanner.held = w.cut.pieces.flatMap Piece.payload ++ w.cut.opened
  logged : logged ++ scanner.held = w.cut.pieces.flatMap Piece.stripped ++ w.cut.opened

/-- INTERNAL: Where the reader stands, for a process that started with the walk `origin` after `u`.
The walk is ahead of what was given out by the chunk that the reader is at. -/
def Stands (tok : Tokenizer σ) (width : Char → Option ℕ) (colors : Colors) (size : Size) (cap : ℕ)
    (u : List UInt8) (origin : Walk σ) (p : ReaderPane σ) : Prop :=
  match p.stage with
  | .waiting => ∃ w, origin.chunks tok width colors p.chunks = some w ∧ w.emulator = p.parser ∧
      p.offered = w.cut.pieces.flatMap Piece.offered ∧
      SettledAt tok size cap (u ++ printed p.chunks) w p.scanner (bytesOf p.sent) (bytesOf p.logged)
  | .decided _ daemon chunk => ∃ before w, p.chunks = before ++ [(daemon, chunk)] ∧
      origin.chunks tok width colors before = some w ∧ w.emulator = p.parser ∧
      p.offered = w.cut.pieces.flatMap Piece.offered ∧ p.daemonAnswers = daemon ∧
      SettledAt tok size cap (u ++ printed before) w p.scanner (bytesOf p.sent) (bytesOf p.logged)
  | .parsed _ daemon chunk => ∃ before w w', p.chunks = before ++ [(daemon, chunk)] ∧
      origin.chunks tok width colors before = some w ∧
      w.chunk tok width colors daemon chunk = some w' ∧ w'.emulator = p.parser ∧
      p.offered = w'.cut.pieces.flatMap Piece.offered ∧
      SettledAt tok size cap (u ++ printed before) w p.scanner (bytesOf p.sent) (bytesOf p.logged)
  | .scanned _ daemon scanned => ∃ w, origin.chunks tok width colors p.chunks = some w ∧
      w.emulator = p.parser ∧ p.offered = w.cut.pieces.flatMap Piece.offered ∧
      SettledAt tok size cap (u ++ printed p.chunks) w p.scanner
        (bytesOf p.sent ++ viewOf (!daemon) scanned) (bytesOf p.logged ++ scanned.stripped)
  | .pushed _ daemon scanned => ∃ w, origin.chunks tok width colors p.chunks = some w ∧
      w.emulator = p.parser ∧ p.offered = w.cut.pieces.flatMap Piece.offered ∧
      SettledAt tok size cap (u ++ printed p.chunks) w p.scanner
        (bytesOf p.sent ++ viewOf (!daemon) scanned) (bytesOf p.logged)
  | .stopped => ∃ w, origin.chunks tok width colors p.chunks = some w ∧
      p.offered = w.cut.pieces.flatMap Piece.offered ∧
      bytesOf p.sent = w.cut.pieces.flatMap Piece.payload ++ w.cut.opened ∧
      bytesOf p.logged = w.cut.pieces.flatMap Piece.stripped ++ w.cut.opened

variable {size : Size} {cap : ℕ} {u : List UInt8} {origin : Walk σ} {p p' : ReaderPane σ}

theorem stands_decide {chunk : List UInt8} (h : Stands tok width colors size cap u origin p)
    (hstep : p.decide chunk = some p') : Stands tok width colors size cap u origin p' := by
  obtain ⟨next, daemon, hstage, rfl⟩ := decide_inv hstep
  unfold Stands at h
  rw [hstage] at h
  obtain ⟨w, hwalk, hemulator, hoffered, hsettled⟩ := h
  exact ⟨p.chunks, w, rfl, hwalk, hemulator, hoffered, rfl, hsettled⟩

theorem stands_parse (hlaw : Lawful tok) (hwidth : WidthLaw width)
    (hreadable : Readable u (printed p.chunks)) (h : Stands tok width colors size cap u origin p)
    (hstep : p.parse tok width colors = some p') :
    Stands tok width colors size cap u origin p' := by
  obtain ⟨next, daemon, chunk, r, hstage, hr, rfl⟩ := parse_inv hstep
  unfold Stands at h
  rw [hstage] at h
  obtain ⟨before, w, hchunks, hwalk, hemulator, hoffered, hdaemon, hsettled⟩ := h
  rw [hchunks, printed_append] at hreadable
  obtain ⟨w', hnext, -, -, -⟩ := feed_spec colors hlaw hwidth daemon hsettled.between
    (by rw [List.append_assoc]; exact hreadable.1)
    (by rw [List.append_assoc]; exact hreadable.2 _ (List.prefix_refl _))
  obtain ⟨replies, hprocess, -, hreplies⟩ := processReplying_of_chunk hnext
  rw [hemulator, hr] at hprocess
  cases hprocess
  refine ⟨before, w, w', hchunks, hwalk, hnext, rfl, ?_, hsettled⟩
  dsimp only
  rw [hreplies, ← hoffered, hdaemon]

theorem stands_scan (hlaw : Lawful tok) (hwidth : WidthLaw width)
    (hreadable : Readable u (printed p.chunks)) (h : Stands tok width colors size cap u origin p)
    (hstep : p.scan tok = some p') : Stands tok width colors size cap u origin p' := by
  obtain ⟨next, daemon, chunk, hstage, rfl⟩ := scan_inv hstep
  unfold Stands at h
  rw [hstage] at h
  obtain ⟨before, w, w', hchunks, hwalk, hnext, hemulator, hoffered, hsettled⟩ := h
  have hprinted : printed p.chunks = printed before ++ chunk := by
    rw [hchunks, printed_append]
  rw [hprinted, Readable, ← List.append_assoc] at hreadable
  obtain ⟨w1, hnext1, hbetween, hview, -⟩ := feed_spec colors hlaw hwidth daemon hsettled.between
    hreadable.1 (by rw [List.append_assoc]; exact hreadable.2 _ (List.prefix_refl _))
  rw [hnext] at hnext1
  cases hnext1
  refine ⟨w', ?_, hemulator, hoffered, ?_⟩
  · show origin.chunks tok width colors p.chunks = some w'
    rw [hchunks]
    exact chunks_append hwalk hnext
  · constructor
    case between =>
      show Between tok size cap _ (u ++ printed p.chunks) w'
      rw [hprinted, ← List.append_assoc]
      exact hbetween
    case sent => exact hview Piece.payload (!daemon) _ (renders_payload daemon) hsettled.sent
    case logged => exact hview Piece.stripped false _ (renders_stripped daemon) hsettled.logged

theorem stands_push (h : Stands tok width colors size cap u origin p)
    (hstep : p.push = some p') : Stands tok width colors size cap u origin p' := by
  obtain ⟨next, daemon, scanned, hstage, rfl⟩ := push_inv hstep
  unfold Stands at h
  rw [hstage] at h
  obtain ⟨w, hwalk, hemulator, hoffered, hsettled⟩ := h
  refine ⟨w, hwalk, hemulator, hoffered, ?_⟩
  rw [← bytesOf_append p.logged next] at hsettled
  exact hsettled

theorem stands_broadcast (h : Stands tok width colors size cap u origin p)
    (hstep : p.broadcast = some p') : Stands tok width colors size cap u origin p' := by
  obtain ⟨next, daemon, scanned, payload, sent, hstage, hpayload, hsent, rfl⟩ := broadcast_inv hstep
  unfold Stands at h
  rw [hstage] at h
  obtain ⟨w, hwalk, hemulator, hoffered, hsettled⟩ := h
  refine ⟨w, hwalk, hemulator, hoffered, ?_⟩
  have hview : payload = viewOf (!daemon) scanned := by
    rw [hpayload]
    cases daemon with
    | true => rfl
    | false => rfl
  dsimp only
  rw [hsent, hview]
  exact hsettled

theorem stands_eof (h : Stands tok width colors size cap u origin p)
    (hstep : p.eof = some p') : Stands tok width colors size cap u origin p' := by
  obtain ⟨hstage, hcases⟩ := eof_inv hstep
  unfold Stands at h
  rw [hstage] at h
  obtain ⟨w, hwalk, -, hoffered, hsettled⟩ := h
  have hsent := hsettled.sent
  have hlogged := hsettled.logged
  rcases hcases with ⟨hempty, rfl⟩ | ⟨-, rfl⟩
  · rw [hempty, List.append_nil] at hsent hlogged
    exact ⟨w, hwalk, hoffered, hsent, hlogged⟩
  · rw [← bytesOf_append p.sent (p.outputSeq + 1)] at hsent
    rw [← bytesOf_append p.logged (p.outputSeq + 1)] at hlogged
    exact ⟨w, hwalk, hoffered, hsent, hlogged⟩

/-- The events of one process: its output and its end, and the clients. -/
def WithinProcess : PaneEvent → Prop
  | .inject _ | .respawn => False
  | _ => True

/-- INTERNAL: One step of the reader or of a client. -/
theorem stands_step (hlaw : Lawful tok) (hwidth : WidthLaw width) {e : PaneEvent}
    (he : WithinProcess e) (hreadable : Readable u (printed p.chunks))
    (h : Stands tok width colors size cap u origin p)
    (hstep : p.step tok width colors e = some p') :
    Stands tok width colors size cap u origin p' := by
  by_cases hclient : OfClient e
  · obtain ⟨clients, new, -, rfl⟩ := client_inv hclient hstep
    exact h
  cases e with
  | decide chunk => exact stands_decide h hstep
  | parse => exact stands_parse hlaw hwidth hreadable h hstep
  | scan => exact stands_scan hlaw hwidth hreadable h hstep
  | push => exact stands_push h hstep
  | broadcast => exact stands_broadcast h hstep
  | eof => exact stands_eof h hstep
  | inject data => exact he.elim
  | respawn => exact he.elim
  | register => exact absurd trivial hclient
  | goLiveAfter client seq => exact absurd trivial hclient
  | setLagged client lagged => exact absurd trivial hclient
  | dropClient client => exact absurd trivial hclient
  | resume fromSeq => exact absurd trivial hclient

/-- The output only grows. -/
theorem chunks_step {e : PaneEvent} (he : WithinProcess e)
    (hstep : p.step tok width colors e = some p') : ∃ new, p'.chunks = p.chunks ++ new := by
  have hsame : p.chunks = p.chunks ++ [] := (List.append_nil _).symm
  by_cases hclient : OfClient e
  · obtain ⟨clients, new, -, rfl⟩ := client_inv hclient hstep
    exact ⟨[], hsame⟩
  cases e with
  | decide chunk =>
      obtain ⟨next, daemon, -, rfl⟩ := decide_inv hstep
      exact ⟨_, rfl⟩
  | parse =>
      obtain ⟨next, daemon, chunk, r, -, -, rfl⟩ := parse_inv hstep
      exact ⟨[], hsame⟩
  | scan =>
      obtain ⟨next, daemon, chunk, -, rfl⟩ := scan_inv hstep
      exact ⟨[], hsame⟩
  | push =>
      obtain ⟨next, daemon, scanned, -, rfl⟩ := push_inv hstep
      exact ⟨[], hsame⟩
  | broadcast =>
      obtain ⟨next, daemon, scanned, payload, sent, -, -, -, rfl⟩ := broadcast_inv hstep
      exact ⟨[], hsame⟩
  | eof =>
      obtain ⟨-, ⟨-, rfl⟩ | ⟨-, rfl⟩⟩ := eof_inv hstep
      · exact ⟨[], hsame⟩
      · exact ⟨[], hsame⟩
  | inject data => exact he.elim
  | respawn => exact he.elim
  | register => exact absurd trivial hclient
  | goLiveAfter client seq => exact absurd trivial hclient
  | setLagged client lagged => exact absurd trivial hclient
  | dropClient client => exact absurd trivial hclient
  | resume fromSeq => exact absurd trivial hclient

/-! ## The replay buffer -/

/-- What the replay buffer has, and what a resume got from it, was logged. -/
def Replays (p : ReaderPane σ) : Prop :=
  (∀ e ∈ p.replay.entries, e ∈ p.logged) ∧ ∀ e ∈ p.resumed, e ∈ p.logged

theorem replays_log (h : Replays p) (seq : ℕ) (data : List UInt8) : Replays (p.log seq data) := by
  constructor
  · intro e he
    have hmem := (p.replay.push_suffix seq data).1.subset he
    rcases List.mem_append.mp hmem with hold | hnew
    · exact List.mem_append_left _ (h.1 e hold)
    · exact List.mem_append_right _ hnew
  · exact fun e he => List.mem_append_left _ (h.2 e he)

theorem replays_step {e : PaneEvent} (h : Replays p)
    (hstep : p.step tok width colors e = some p') : Replays p' := by
  by_cases hclient : OfClient e
  · obtain ⟨clients, new, hnew, rfl⟩ := client_inv hclient hstep
    refine ⟨h.1, fun entry hentry => ?_⟩
    rcases List.mem_append.mp hentry with hold | hin
    · exact h.2 entry hold
    · exact h.1 entry (hnew entry hin)
  cases e with
  | decide chunk =>
      obtain ⟨next, daemon, -, rfl⟩ := decide_inv hstep
      exact h
  | parse =>
      obtain ⟨next, daemon, chunk, r, -, -, rfl⟩ := parse_inv hstep
      exact h
  | scan =>
      obtain ⟨next, daemon, chunk, -, rfl⟩ := scan_inv hstep
      exact h
  | push =>
      obtain ⟨next, daemon, scanned, -, rfl⟩ := push_inv hstep
      exact replays_log h next scanned.stripped
  | broadcast =>
      obtain ⟨next, daemon, scanned, payload, sent, -, -, -, rfl⟩ := broadcast_inv hstep
      exact h
  | eof =>
      obtain ⟨-, ⟨-, rfl⟩ | ⟨-, rfl⟩⟩ := eof_inv hstep
      · exact h
      · exact replays_log h _ _
  | inject data =>
      obtain ⟨r, -, -, rfl⟩ := inject_inv hstep
      exact replays_log h _ _
  | respawn =>
      obtain ⟨-, rfl⟩ := respawn_inv hstep
      exact h
  | register => exact absurd trivial hclient
  | goLiveAfter client seq => exact absurd trivial hclient
  | setLagged client lagged => exact absurd trivial hclient
  | dropClient client => exact absurd trivial hclient
  | resume fromSeq => exact absurd trivial hclient

/-! ## Every run -/

/-- What has left the pane, against the output cut at its queries. -/
def GivenOut (p : ReaderPane σ) (w : Walk σ) : Prop :=
  p.offered <+: w.cut.pieces.flatMap Piece.offered ∧
    bytesOf p.sent <+: w.cut.pieces.flatMap Piece.payload ++ w.cut.opened ∧
    bytesOf p.logged <+: w.cut.pieces.flatMap Piece.stripped ++ w.cut.opened

theorem prefix_of_append_append {a b c d : List UInt8} (h : a ++ b ++ c = d) : a <+: d := by
  rw [← h, List.append_assoc]
  exact List.prefix_append _ _

variable (colors) in
/-- The chunk that the reader is at. -/
theorem givenOut_next (hlaw : Lawful tok) (hwidth : WidthLaw width) {w : Walk σ}
    {scanner : QueryScanner σ} (hsettled : SettledAt tok size cap u w scanner (bytesOf p.sent)
      (bytesOf p.logged)) (daemon : Bool) {chunk : List UInt8} (hreadable : Readable u chunk) :
    ∃ w', w.chunk tok width colors daemon chunk = some w' ∧
      (p.offered <+: w'.cut.pieces.flatMap Piece.offered → GivenOut p w') ∧
      w.cut.pieces.flatMap Piece.offered <+: w'.cut.pieces.flatMap Piece.offered := by
  obtain ⟨w', hnext, -, hview, -⟩ := feed_spec colors hlaw hwidth daemon hsettled.between
    hreadable.1 (hreadable.2 _ (List.prefix_refl _))
  obtain ⟨replies, -, -, hreplies⟩ := processReplying_of_chunk hnext
  refine ⟨w', hnext, fun hoffered => ⟨hoffered, ?_, ?_⟩, ?_⟩
  · exact prefix_of_append_append
      (hview Piece.payload (!daemon) _ (renders_payload daemon) hsettled.sent)
  · exact prefix_of_append_append
      (hview Piece.stripped false _ (renders_stripped daemon) hsettled.logged)
  · rw [hreplies]
    exact List.prefix_append _ _

theorem prefix_of_eq {α : Type*} {l l' : List α} (h : l = l') : l <+: l' :=
  h ▸ List.prefix_refl l

/-- INTERNAL: What was given out at any stage. -/
theorem Stands.givenOut (hlaw : Lawful tok) (hwidth : WidthLaw width)
    (hreadable : Readable u (printed p.chunks))
    (h : Stands tok width colors size cap u origin p) :
    ∃ w, origin.chunks tok width colors p.chunks = some w ∧ GivenOut p w := by
  unfold Stands at h
  split at h
  · obtain ⟨w, hwalk, -, hoffered, hsettled⟩ := h
    refine ⟨w, hwalk, ?_, ?_, ?_⟩
    · exact prefix_of_eq hoffered
    · rw [← hsettled.sent]
      exact List.prefix_append _ _
    · rw [← hsettled.logged]
      exact List.prefix_append _ _
  · rename_i next daemon chunk hstage
    obtain ⟨before, w, hchunks, hwalk, -, hoffered, -, hsettled⟩ := h
    rw [hchunks, printed_append] at hreadable
    obtain ⟨w', hnext, hgiven, hmore⟩ :=
      givenOut_next colors hlaw hwidth hsettled daemon hreadable.last
    refine ⟨w', ?_, hgiven ?_⟩
    · rw [hchunks]
      exact chunks_append hwalk hnext
    · rw [hoffered]
      exact hmore
  · rename_i next daemon chunk hstage
    obtain ⟨before, w, w1, hchunks, hwalk, hnext, -, hoffered, hsettled⟩ := h
    rw [hchunks, printed_append] at hreadable
    obtain ⟨w', hnext', hgiven, -⟩ :=
      givenOut_next colors hlaw hwidth hsettled daemon hreadable.last
    rw [hnext] at hnext'
    cases hnext'
    refine ⟨w1, ?_, hgiven ?_⟩
    · rw [hchunks]
      exact chunks_append hwalk hnext
    · exact prefix_of_eq hoffered
  · obtain ⟨w, hwalk, -, hoffered, hsettled⟩ := h
    refine ⟨w, hwalk, ?_, ?_, ?_⟩
    · exact prefix_of_eq hoffered
    · exact prefix_of_append_append hsettled.sent
    · exact prefix_of_append_append hsettled.logged
  · obtain ⟨w, hwalk, -, hoffered, hsettled⟩ := h
    refine ⟨w, hwalk, ?_, ?_, ?_⟩
    · exact prefix_of_eq hoffered
    · exact prefix_of_append_append hsettled.sent
    · rw [← hsettled.logged]
      exact List.prefix_append _ _
  · obtain ⟨w, hwalk, hoffered, hsent, hlogged⟩ := h
    refine ⟨w, hwalk, ?_, ?_, ?_⟩
    · exact prefix_of_eq hoffered
    · exact prefix_of_eq hsent
    · exact prefix_of_eq hlogged

theorem raw_of_chunks {w w' : Walk σ} {chunks : List (Bool × List UInt8)}
    (h : w.chunks tok width colors chunks = some w') :
    w'.cut.pieces.flatMap Piece.raw ++ w'.cut.opened =
      w.cut.pieces.flatMap Piece.raw ++ w.cut.opened ++ printed chunks := by
  induction chunks generalizing w with
  | nil =>
      have hw : w = w' := Option.some_inj.mp h
      rw [hw]
      exact (List.append_nil _).symm
  | cons chunk chunks ih =>
      unfold Walk.chunks at h
      rw [List.foldlM_cons] at h
      obtain ⟨w1, hchunk, hrest⟩ := Option.bind_eq_some_iff.mp h
      rw [ih hrest, raw_of_chunk hchunk, List.append_assoc]
      rfl

end

end Tymux.Analysis
