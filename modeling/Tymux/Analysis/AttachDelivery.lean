import Tymux.Model.Attach
import Mathlib.Data.List.Nodup

/-!
# An attach gets every chunk exactly once

The chunks of a pane are numbered consecutively, the retained ones are the newest, and what the
receiver of an attach holds is what was broadcast after the subscription. Everything up to the
threshold comes from the replay buffer (or is in the snapshot), everything after it from the
receiver: a chunk that was broadcast before the subscription has a number at most the
threshold, and one that the replay buffer returned is skipped when it arrives live. So what the
client got, followed by what is still on its way to it, is the history after its base, in
order and without repetition (`attach_exactly_once`).
-/

set_option autoImplicit false

namespace Tymux.Analysis

open Tymux.Model PaneStream

/-! ## What is on its way -/

def chunkEntry (c : Chunk) : ℕ × List UInt8 := (c.seq, c.data)

def chunkMessage (c : Chunk) : ℕ × List UInt8 := (c.seq, c.payload)

/-- The chunk that is in the history but not broadcast yet. -/
def outstanding (w : PaneStream) : List Chunk :=
  match w.writer with
  | .pushed f | .sending f => [f.chunk]
  | _ => []

/-- The chunks that went through `send`. -/
def broadcasted (w : PaneStream) : List Chunk :=
  match w.writer with
  | .pushed _ | .sending _ => w.history.dropLast
  | _ => w.history

/-- What the live loop will forward: from the receiver, and the chunk about to be broadcast. -/
def upcomingLive (w : PaneStream) (threshold : ℕ) : List (ℕ × List UInt8) :=
  w.outputRx.filter (fun m => threshold < m.1) ++
    ((outstanding w).filter fun c => c.announced ∧ threshold < c.seq).map chunkMessage

/-- The output on its way to the client: the rest of the replay, then the live output. -/
def upcoming (w : PaneStream) : List (ℕ × List UInt8) :=
  match w.phase with
  | .draining replayChunks threshold => replayChunks ++ upcomingLive w threshold
  | .live threshold _ => upcomingLive w threshold
  | _ => []

/-- The stream is primed and open. -/
def Streaming (w : PaneStream) : Prop :=
  match w.phase with
  | .draining _ _ | .live _ _ => True
  | _ => False

/-! ## The invariant -/

/-- The writer's chunk is the next one, or the last one of the history. -/
def WriterLink (w : PaneStream) : Prop :=
  match w.writer with
  | .idle _ => w.outputSeq = w.history.length
  | .prepared f => w.outputSeq = w.history.length ∧ f.chunk.seq = w.outputSeq + 1 ∧
      (f.chunk.payload ≠ [] → f.chunk.announced = true)
  | .pushed f => w.outputSeq + 1 = w.history.length ∧ ∃ sent, w.history = sent ++ [f.chunk]
  | .sending f => w.outputSeq = w.history.length ∧ ∃ sent, w.history = sent ++ [f.chunk]

structure LogInv (w : PaneStream) : Prop where
  seqs : w.history.map Chunk.seq = List.range' 1 w.history.length
  link : WriterLink w
  announced : ∀ c ∈ w.history, c.payload ≠ [] → c.announced = true
  retained : w.replay.entries <:+ w.history.map chunkEntry
  newest : w.history ≠ [] → w.replay.entries ≠ []

/-- The receiver holds what was broadcast from the `k`-th chunk on. -/
structure ReceiverAt (sent : List Chunk) (outputRx : List (ℕ × List UInt8)) (k : ℕ) : Prop where
  le : k ≤ sent.length
  queue : outputRx = ((sent.drop k).filter Chunk.announced).map chunkMessage

/-- The part of the history between the base and the threshold. -/
def primed (w : PaneStream) (threshold : ℕ) : List Chunk :=
  w.history.filter fun c => w.base < c.seq ∧ c.seq ≤ threshold

/-- What the client got of the output, phase by phase. -/
def ClientInv (w : PaneStream) : Prop :=
  match w.phase with
  | .connecting => w.delivered = []
  | .subscribed | .gapExceeded => w.delivered = [] ∧ ∃ k, ReceiverAt (broadcasted w) w.outputRx k
  | .draining replayChunks threshold => w.base ≤ threshold ∧ threshold ≤ w.outputSeq ∧
      w.delivered ++ replayChunks = (primed w threshold).map chunkEntry ∧
      ∃ k, k ≤ threshold ∧ ReceiverAt (broadcasted w) w.outputRx k
  | .live threshold _ => w.base ≤ threshold ∧ threshold ≤ w.outputSeq ∧
      ∃ k, ReceiverAt (broadcasted w) w.outputRx k ∧ w.delivered = (primed w threshold).map chunkEntry ++
        (((broadcasted w).take k).filter fun c => c.announced ∧ threshold < c.seq).map
          chunkMessage
  | .ended => True

structure StreamInv (w : PaneStream) : Prop where
  log : LogInv w
  client : ClientInv w

/-! ## The history -/

theorem history_eq {w : PaneStream} (h : WriterLink w) :
    w.history = broadcasted w ++ outstanding w := by
  unfold WriterLink at h
  unfold broadcasted outstanding
  cases hw : w.writer with
  | idle running => simp
  | prepared f => simp
  | pushed f =>
      rw [hw] at h
      obtain ⟨-, sent, hsent⟩ := h
      simp [hsent]
  | sending f =>
      rw [hw] at h
      obtain ⟨-, sent, hsent⟩ := h
      simp [hsent]

theorem length_broadcasted_le {w : PaneStream} (h : WriterLink w) :
    (broadcasted w).length ≤ w.outputSeq := by
  unfold WriterLink at h
  unfold broadcasted
  cases hw : w.writer with
  | idle running =>
      rw [hw] at h
      dsimp only at h ⊢
      omega
  | prepared f =>
      rw [hw] at h
      dsimp only at h ⊢
      omega
  | pushed f =>
      rw [hw] at h
      dsimp only at h ⊢
      rw [List.length_dropLast]
      omega
  | sending f =>
      rw [hw] at h
      dsimp only at h ⊢
      rw [List.length_dropLast]
      omega

/-- INTERNAL: consecutive numbers, on both sides of a cut. -/
theorem seq_of_append {a b : List Chunk}
    (h : (a ++ b).map Chunk.seq = List.range' 1 (a ++ b).length) :
    (∀ c ∈ a, c.seq ≤ a.length) ∧ (∀ c ∈ b, a.length < c.seq) := by
  have hsplit : a.map Chunk.seq ++ b.map Chunk.seq =
      List.range' 1 a.length ++ List.range' (1 + a.length) b.length := by
    rw [← List.map_append, h, List.length_append]
    simp
  obtain ⟨ha, hb⟩ := List.append_inj hsplit (by simp)
  constructor
  · intro c hc
    have hmem : c.seq ∈ List.range' 1 a.length := by
      rw [← ha]
      exact List.mem_map_of_mem hc
    rw [List.mem_range'_1] at hmem
    omega
  · intro c hc
    have hmem : c.seq ∈ List.range' (1 + a.length) b.length := by
      rw [← hb]
      exact List.mem_map_of_mem hc
    rw [List.mem_range'_1] at hmem
    omega

theorem pairwise_seq {l : List Chunk} (h : l.map Chunk.seq = List.range' 1 l.length) :
    l.Pairwise fun c c' => c.seq < c'.seq := by
  rw [← List.pairwise_map (f := Chunk.seq) (R := (· < ·)), h]
  exact List.pairwise_lt_range'

/-- INTERNAL: nothing broadcast among the first `k` chunks is above a threshold of at least
`k`. -/
theorem filter_take_broadcasted {w : PaneStream} (h : LogInv w) {k threshold : ℕ}
    (hk : k ≤ threshold) :
    ((broadcasted w).take k).filter (fun c => c.announced ∧ threshold < c.seq) = [] := by
  rw [List.filter_eq_nil_iff]
  intro c hc
  have hcut : (broadcasted w).take k ++ ((broadcasted w).drop k ++ outstanding w) =
      w.history := by
    rw [← List.append_assoc, List.take_append_drop, ← history_eq h.link]
  have hseqs := h.seqs
  rw [← hcut] at hseqs
  have hle := (seq_of_append hseqs).1 c hc
  have hlen : ((broadcasted w).take k).length ≤ k := List.length_take_le ..
  have hlow : ¬ threshold < c.seq := by omega
  simp [hlow]

/-- INTERNAL: a chunk that is not published yet is above every threshold. -/
theorem primed_push {w : PaneStream} {c : Chunk} {threshold : ℕ} (hc : threshold < c.seq) :
    (w.history ++ [c]).filter (fun c => w.base < c.seq ∧ c.seq ≤ threshold) =
      primed w threshold := by
  have hhigh : ¬ c.seq ≤ threshold := by omega
  simp [primed, hhigh]

/-- INTERNAL: within the window, the retained chunks after the base are all there are.
SRC: replay_buffer.rs:143-151 -/
theorem filter_retained {w : PaneStream} (h : LogInv w) {seq : ℕ}
    (hwindow : w.replay.oldestSeq.getD w.outputSeq ≤ seq) :
    w.replay.entries.filter (fun e => seq < e.1 ∧ e.1 ≤ w.outputSeq) =
      (w.history.filter fun c => seq < c.seq ∧ c.seq ≤ w.outputSeq).map chunkEntry := by
  have hmap : (w.history.filter fun c => seq < c.seq ∧ c.seq ≤ w.outputSeq).map chunkEntry =
      (w.history.map chunkEntry).filter fun e => seq < e.1 ∧ e.1 ≤ w.outputSeq := by
    rw [List.filter_map]
    rfl
  rw [hmap]
  obtain ⟨dropped, hdropped⟩ := h.retained
  rw [← hdropped, List.filter_append]
  have hgone : dropped.filter (fun e => seq < e.1 ∧ e.1 ≤ w.outputSeq) = [] := by
    rw [List.filter_eq_nil_iff]
    intro e he
    cases hentries : w.replay.entries with
    | nil =>
        have hempty : w.history = [] := by
          by_contra hne
          exact h.newest hne hentries
        rw [hempty, List.map_nil, List.append_eq_nil_iff] at hdropped
        rw [hdropped.1] at he
        cases he
    | cons oldest rest =>
        have hold : oldest.1 ≤ seq := by
          simpa [ReplayBuffer.oldestSeq, hentries] using hwindow
        -- what was evicted has a smaller number than what was kept
        have hsorted : (w.history.map chunkEntry).Pairwise fun e e' => e.1 < e'.1 := by
          rw [List.pairwise_map]
          exact pairwise_seq h.seqs
        rw [← hdropped, hentries, List.pairwise_append] at hsorted
        have hlt := hsorted.2.2 e he oldest List.mem_cons_self
        have hlow : ¬ seq < e.1 := by omega
        simp [hlow]
  rw [hgone, List.nil_append]

/-! ## The writer's steps -/

/-- INTERNAL: the client's part of the invariant reads the published history, what was
broadcast and the receiver. -/
theorem ClientInv.congr {w w' : PaneStream} (h : ClientInv w) (hphase : w'.phase = w.phase)
    (hrx : w'.outputRx = w.outputRx) (hdel : w'.delivered = w.delivered)
    (hbase : w'.base = w.base) (hprimed : ∀ t, t ≤ w.outputSeq → primed w' t = primed w t)
    (hsent : broadcasted w' = broadcasted w) (hseq : w.outputSeq ≤ w'.outputSeq) :
    ClientInv w' := by
  unfold ClientInv at h ⊢
  rw [hphase, hrx, hdel, hbase, hsent]
  cases hp : w.phase with
  | connecting => simpa only [hp] using h
  | subscribed => simpa only [hp] using h
  | gapExceeded => simpa only [hp] using h
  | draining rest t =>
      simp only [hp] at h
      obtain ⟨hb, ht, hd, hk⟩ := h
      refine ⟨hb, ht.trans hseq, ?_, hk⟩
      rw [hprimed t ht]
      exact hd
  | live t polled =>
      simp only [hp] at h
      obtain ⟨hb, ht, k, hk, hd⟩ := h
      refine ⟨hb, ht.trans hseq, k, hk, ?_⟩
      rw [hprimed t ht]
      exact hd
  | ended => trivial

theorem inv_prepare {w : PaneStream} (h : StreamInv w) {running : Bool}
    (hw : w.writer = .idle running) {f : InFlight} (hseq : f.chunk.seq = w.outputSeq + 1)
    (hann : f.chunk.payload ≠ [] → f.chunk.announced = true) :
    StreamInv { w with writer := .prepared f } := by
  obtain ⟨hlog, hclient⟩ := h
  have hlink := hlog.link
  unfold WriterLink at hlink
  rw [hw] at hlink
  refine ⟨⟨hlog.seqs, ⟨hlink, hseq, hann⟩, hlog.announced, hlog.retained, hlog.newest⟩, ?_⟩
  refine hclient.congr rfl rfl rfl rfl (fun _ _ => rfl) ?_ le_rfl
  simp [broadcasted, hw]

theorem inv_idle {w : PaneStream} (h : StreamInv w) {running running' : Bool}
    (hw : w.writer = .idle running) : StreamInv { w with writer := .idle running' } := by
  obtain ⟨hlog, hclient⟩ := h
  have hlink := hlog.link
  unfold WriterLink at hlink
  rw [hw] at hlink
  refine ⟨⟨hlog.seqs, hlink, hlog.announced, hlog.retained, hlog.newest⟩, ?_⟩
  refine hclient.congr rfl rfl rfl rfl (fun _ _ => rfl) ?_ le_rfl
  simp [broadcasted, hw]

theorem inv_read {w w' : PaneStream} {stripped raw : List UInt8} {daemonAnswers : Bool}
    (h : StreamInv w) (hstep : w.read stripped raw daemonAnswers = some w') : StreamInv w' := by
  unfold PaneStream.read at hstep
  split_ifs at hstep with hw
  · rw [Option.some_inj] at hstep
    rw [← hstep]
    exact inv_prepare h hw rfl (by simp)
  · rw [Option.some_inj] at hstep
    rw [← hstep]
    exact inv_prepare h hw rfl (by simp)

theorem inv_eof {w w' : PaneStream} {rest : List UInt8} (h : StreamInv w)
    (hstep : w.eof rest = some w') : StreamInv w' := by
  unfold PaneStream.eof at hstep
  split_ifs at hstep with hw hrest
  · rw [Option.some_inj] at hstep
    rw [← hstep]
    exact inv_idle h hw
  · rw [Option.some_inj] at hstep
    rw [← hstep]
    exact inv_prepare h hw rfl (by simp)

theorem inv_inject {w w' : PaneStream} {data : List UInt8} (h : StreamInv w)
    (hstep : w.inject data = some w') : StreamInv w' := by
  unfold PaneStream.inject at hstep
  split_ifs at hstep with hw
  rw [Option.some_inj] at hstep
  rw [← hstep]
  exact inv_prepare h hw rfl (by simp)

theorem inv_respawn {w w' : PaneStream} (h : StreamInv w) (hstep : w.respawn = some w') :
    StreamInv w' := by
  unfold PaneStream.respawn at hstep
  split_ifs at hstep with hw
  rw [Option.some_inj] at hstep
  rw [← hstep]
  exact inv_idle h hw

theorem inv_handoff {w w' : PaneStream} {budgetBytes : ℕ} (h : StreamInv w)
    (hstep : w.handoff budgetBytes = some w') : StreamInv w' := by
  unfold PaneStream.handoff at hstep
  split_ifs at hstep with hw
  rw [Option.some_inj] at hstep
  rw [← hstep]
  obtain ⟨hlog, hclient⟩ := h
  obtain ⟨hsuf, hne⟩ := (ReplayBuffer.new budgetBytes).pushAll_suffix w.replay.entries
  refine ⟨⟨hlog.seqs, hlog.link, hlog.announced, ?_, ?_⟩, ?_⟩
  · exact hsuf.trans (by simpa [ReplayBuffer.new] using hlog.retained)
  · intro hhist
    exact hne (by simpa [ReplayBuffer.new] using hlog.newest hhist)
  · exact hclient.congr rfl rfl rfl rfl (fun _ _ => rfl) rfl le_rfl

/-- INTERNAL: a push extends the history by an unpublished chunk.
SRC: pane.rs:576-583 -/
theorem inv_push {w w' : PaneStream} (h : StreamInv w) (hstep : w.push = some w') :
    StreamInv w' := by
  unfold PaneStream.push at hstep
  cases hw : w.writer with
  | prepared f =>
      simp only [hw, Option.some_inj] at hstep
      rw [← hstep]
      obtain ⟨hlog, hclient⟩ := h
      have hlink := hlog.link
      unfold WriterLink at hlink
      rw [hw] at hlink
      obtain ⟨hlen, hseq, hann⟩ := hlink
      obtain ⟨hsuf, hne⟩ := w.replay.push_suffix f.chunk.seq f.chunk.data
      constructor
      · refine ⟨?_, ⟨by simp [hlen], w.history, rfl⟩, ?_, ?_, fun _ => hne⟩
        · rw [List.map_append, hlog.seqs, List.length_append, List.map_singleton, hseq, hlen]
          simp [List.range'_1_concat, Nat.add_comm]
        · intro c hc
          rcases List.mem_append.mp hc with hc | hc
          · exact hlog.announced c hc
          · rw [List.mem_singleton.mp hc]
            exact hann
        · obtain ⟨dropped, hdropped⟩ := hlog.retained
          apply hsuf.trans
          refine ⟨dropped, ?_⟩
          rw [← List.append_assoc, hdropped]
          simp [chunkEntry]
      · refine hclient.congr rfl rfl rfl rfl (fun t ht => ?_) ?_ le_rfl
        · have hhigh : t < f.chunk.seq := by omega
          exact primed_push (w := w) hhigh
        · simp [broadcasted, hw]
  | _ => simp [hw] at hstep

theorem inv_bump {w w' : PaneStream} (h : StreamInv w) (hstep : w.bump = some w') :
    StreamInv w' := by
  unfold PaneStream.bump at hstep
  cases hw : w.writer with
  | pushed f =>
      simp only [hw, Option.some_inj] at hstep
      rw [← hstep]
      obtain ⟨hlog, hclient⟩ := h
      have hlink := hlog.link
      unfold WriterLink at hlink
      rw [hw] at hlink
      refine ⟨⟨hlog.seqs, hlink, hlog.announced, hlog.retained, hlog.newest⟩, ?_⟩
      refine hclient.congr rfl rfl rfl rfl (fun _ _ => rfl) ?_ (Nat.le_succ _)
      simp [broadcasted, hw]
  | _ => simp [hw] at hstep

/-- INTERNAL: a broadcast chunk goes to the receiver if it is announced.
SRC: pane.rs:596-598 -/
theorem ReceiverAt.send {sent : List Chunk} {outputRx : List (ℕ × List UInt8)} {k : ℕ}
    (h : ReceiverAt sent outputRx k) (c : Chunk) :
    ReceiverAt (sent ++ [c]) (if c.announced then outputRx ++ [chunkMessage c] else outputRx)
      k := by
  constructor
  · rw [List.length_append]
    exact h.le.trans (Nat.le_add_right ..)
  · rw [List.drop_append_of_le_length h.le, List.filter_append, List.map_append, ← h.queue]
    by_cases hc : c.announced = true
    · simp [hc]
    · simp [hc]

theorem inv_send {w w' : PaneStream} (h : StreamInv w) (hstep : w.send = some w') :
    StreamInv w' := by
  unfold PaneStream.send at hstep
  cases hw : w.writer with
  | sending f =>
      simp only [hw] at hstep
      obtain ⟨hlog, hclient⟩ := h
      have hlink := hlog.link
      unfold WriterLink at hlink
      rw [hw] at hlink
      have hsent : broadcasted w ++ [f.chunk] = w.history := by
        rw [history_eq hlog.link]
        simp [outstanding, hw]
      have hrx : w.phase = .connecting ∨ w'.outputRx =
          if f.chunk.announced then w.outputRx ++ [chunkMessage f.chunk] else w.outputRx := by
        by_cases hp : w.phase = .connecting
        · exact Or.inl hp
        · right
          by_cases hann : f.chunk.announced = true
          · rw [if_pos ⟨hann, hp⟩, Option.some_inj] at hstep
            rw [← hstep, if_pos hann]
            rfl
          · rw [if_neg (fun hboth => hann hboth.1), Option.some_inj] at hstep
            rw [← hstep, if_neg hann]
      have hframe : w' = { w with writer := .idle f.running, outputRx := w'.outputRx } := by
        split_ifs at hstep
        · rw [Option.some_inj] at hstep
          rw [← hstep]
        · rw [Option.some_inj] at hstep
          rw [← hstep]
      rw [hframe]
      refine ⟨⟨hlog.seqs, hlink.1, hlog.announced, hlog.retained, hlog.newest⟩, ?_⟩
      have hall : broadcasted { w with writer := .idle f.running, outputRx := w'.outputRx } =
          broadcasted w ++ [f.chunk] := hsent.symm
      unfold ClientInv at hclient ⊢
      rw [hall]
      cases hp : w.phase with
      | connecting => simpa only [hp] using hclient
      | subscribed =>
          simp only [hp] at hclient
          obtain ⟨hnil, k, hk⟩ := hclient
          rcases hrx with hc | hrx
          · rw [hp] at hc
            cases hc
          · refine ⟨hnil, k, ?_⟩
            rw [hrx]
            exact hk.send f.chunk
      | gapExceeded =>
          simp only [hp] at hclient
          obtain ⟨hnil, k, hk⟩ := hclient
          rcases hrx with hc | hrx
          · rw [hp] at hc
            cases hc
          · refine ⟨hnil, k, ?_⟩
            rw [hrx]
            exact hk.send f.chunk
      | draining rest t =>
          simp only [hp] at hclient
          obtain ⟨hb, ht, hd, k, hkt, hk⟩ := hclient
          rcases hrx with hc | hrx
          · rw [hp] at hc
            cases hc
          · refine ⟨hb, ht, hd, k, hkt, ?_⟩
            rw [hrx]
            exact hk.send f.chunk
      | live t polled =>
          simp only [hp] at hclient
          obtain ⟨hb, ht, k, hk, hd⟩ := hclient
          rcases hrx with hc | hrx
          · rw [hp] at hc
            cases hc
          · refine ⟨hb, ht, k, ?_, ?_⟩
            · rw [hrx]
              exact hk.send f.chunk
            · rw [List.take_append_of_le_length hk.le]
              exact hd
      | ended => trivial
  | _ => simp [hw] at hstep

/-! ## The attach's steps -/

theorem inv_subscribe {w w' : PaneStream} (h : StreamInv w) (hstep : w.subscribe = some w') :
    StreamInv w' := by
  unfold PaneStream.subscribe at hstep
  split_ifs at hstep with hp
  rw [Option.some_inj] at hstep
  rw [← hstep]
  obtain ⟨hlog, hclient⟩ := h
  refine ⟨⟨hlog.seqs, hlog.link, hlog.announced, hlog.retained, hlog.newest⟩, ?_⟩
  unfold ClientInv at hclient
  rw [hp] at hclient
  refine ⟨hclient, (broadcasted w).length, le_rfl, ?_⟩
  have hsame : broadcasted { w with phase := .subscribed, outputRx := [] } = broadcasted w := rfl
  simp [hsame]

/-- INTERNAL: a chunk was broadcast before the subscription only if it is in the replay, and
the replay is complete after the resume point.
SRC: main.rs:1464-1485 -/
theorem inv_replaySince {w w' : PaneStream} (h : StreamInv w)
    (hstep : w.replaySince = some w') : StreamInv w' := by
  unfold PaneStream.replaySince at hstep
  obtain ⟨hlog, hclient⟩ := h
  unfold ClientInv at hclient
  cases hp : w.phase with
  | subscribed =>
      cases hr : w.resumeFromSeq with
      | none => simp [hp, hr] at hstep
      | some seq =>
          simp only [hp, hr] at hstep hclient
          obtain ⟨hnil, k, hk⟩ := hclient
          split_ifs at hstep with hlock
          obtain ⟨oldest, hgap⟩ | ⟨hle, hwindow, hin⟩ := w.replay.replaySince_cases seq w.outputSeq
          · rw [hgap, Option.some_inj] at hstep
            rw [← hstep]
            exact ⟨⟨hlog.seqs, hlog.link, hlog.announced, hlog.retained, hlog.newest⟩,
              hnil, k, hk⟩
          · rw [hin, Option.some_inj] at hstep
            rw [← hstep]
            refine ⟨⟨hlog.seqs, hlog.link, hlog.announced, hlog.retained, hlog.newest⟩,
              hle, le_rfl, ?_, k, hk.le.trans (length_broadcasted_le hlog.link), hk⟩
            rw [hnil, List.nil_append]
            exact filter_retained hlog hwindow
  | _ => simp [hp] at hstep

/-- INTERNAL: what was broadcast before the subscription is in the snapshot.
SRC: main.rs:1518-1528 -/
theorem inv_snapshot {w w' : PaneStream} (h : StreamInv w) (hstep : w.snapshot = some w') :
    StreamInv w' := by
  unfold PaneStream.snapshot at hstep
  split_ifs at hstep with hready
  rw [Option.some_inj] at hstep
  rw [← hstep]
  obtain ⟨hlog, hclient⟩ := h
  refine ⟨⟨hlog.seqs, hlog.link, hlog.announced, hlog.retained, hlog.newest⟩, ?_⟩
  have hwait : w.delivered = [] ∧ ∃ k, ReceiverAt (broadcasted w) w.outputRx k := by
    unfold ClientInv at hclient
    rcases hready.1 with ⟨hp, -⟩ | hp
    · rw [hp] at hclient
      exact hclient
    · rw [hp] at hclient
      exact hclient
  obtain ⟨hnil, k, hk⟩ := hwait
  refine ⟨le_rfl, le_rfl, k, hk, ?_⟩
  have hlow := filter_take_broadcasted hlog (hk.le.trans (length_broadcasted_le hlog.link))
  have hsame : broadcasted { w with phase := .live w.outputSeq false, base := w.outputSeq } =
      broadcasted w := rfl
  rw [hsame, hlow, hnil]
  simp only [List.map_nil, List.append_nil, primed]
  symm
  rw [List.map_eq_nil_iff, List.filter_eq_nil_iff]
  intro c _
  simp

theorem inv_forwardReplay {w w' : PaneStream} (h : StreamInv w)
    (hstep : w.forwardReplay = some w') : StreamInv w' := by
  unfold PaneStream.forwardReplay at hstep
  obtain ⟨hlog, hclient⟩ := h
  unfold ClientInv at hclient
  cases hp : w.phase with
  | draining rest t =>
      simp only [hp] at hclient hstep
      obtain ⟨hb, ht, hd, k, hkt, hk⟩ := hclient
      cases rest with
      | nil =>
          rw [Option.some_inj] at hstep
          rw [← hstep]
          refine ⟨⟨hlog.seqs, hlog.link, hlog.announced, hlog.retained, hlog.newest⟩,
            hb, ht, k, hk, ?_⟩
          have hlow := filter_take_broadcasted hlog hkt
          have hsame : broadcasted { w with phase := .live t false } = broadcasted w := rfl
          rw [List.append_nil] at hd
          rw [hsame, hlow, List.map_nil, List.append_nil]
          exact hd
      | cons chunk rest =>
          rw [Option.some_inj] at hstep
          rw [← hstep]
          refine ⟨⟨hlog.seqs, hlog.link, hlog.announced, hlog.retained, hlog.newest⟩,
            hb, ht, ?_, k, hkt, hk⟩
          rw [List.append_assoc]
          exact hd
  | _ => simp [hp] at hstep

/-- INTERNAL: the receiver moves on past the chunks that were not announced. -/
theorem ReceiverAt.recv {sent : List Chunk} {m : ℕ × List UInt8}
    {outputRx : List (ℕ × List UInt8)} {k : ℕ} (h : ReceiverAt sent (m :: outputRx) k) :
    ∃ c k', chunkMessage c = m ∧ c.announced = true ∧ ReceiverAt sent outputRx k' ∧
      ∀ p : Chunk → Bool, (sent.take k').filter (fun c => c.announced ∧ p c) =
        (sent.take k).filter (fun c => c.announced ∧ p c) ++ if p c then [c] else [] := by
  have hq := h.queue.symm
  rw [List.map_eq_cons_iff] at hq
  obtain ⟨c, cs, hfilter, hc, hcs⟩ := hq
  rw [List.filter_eq_cons_iff] at hfilter
  obtain ⟨skipped, rest, hdrop, hskipped, hann, hrest⟩ := hfilter
  have hlen : skipped.length + 1 + rest.length = sent.length - k := by
    have := congrArg List.length hdrop
    simp only [List.length_drop, List.length_append, List.length_cons] at this
    omega
  have hsent : sent = sent.take k ++ (skipped ++ c :: rest) := by
    rw [← hdrop, List.take_append_drop]
  have hk := h.le
  have htake : (sent.take k).length = k := by
    rw [List.length_take]
    omega
  have hpre : sent.take (k + (skipped.length + 1)) = sent.take k ++ (skipped ++ [c]) := by
    have happ : sent = (sent.take k ++ (skipped ++ [c])) ++ rest := by
      rw [List.append_assoc, List.append_assoc]
      exact hsent
    conv_lhs => rw [happ]
    rw [List.take_append_of_le_length (by simp [htake]), List.take_of_length_le (by simp [htake])]
  refine ⟨c, k + (skipped.length + 1), hc, hann, ⟨by omega, ?_⟩, ?_⟩
  · have hrest' : sent.drop (k + (skipped.length + 1)) = rest := by
      rw [← List.drop_drop, hdrop]
      simp
    rw [hrest', hrest, hcs]
  · intro p
    have hnone : skipped.filter (fun c => c.announced ∧ p c) = [] := by
      rw [List.filter_eq_nil_iff]
      intro x hx
      have hno := hskipped x hx
      simp only [Bool.not_eq_true] at hno
      simp [hno]
    rw [hpre, List.filter_append, List.filter_append, hnone]
    by_cases hp : p c = true
    · simp [hann, hp]
    · simp [hp]

/-- SRC: main.rs:843-857 -/
theorem inv_recv {w w' : PaneStream} (h : StreamInv w) (hstep : w.recv = some w') :
    StreamInv w' := by
  unfold PaneStream.recv at hstep
  obtain ⟨hlog, hclient⟩ := h
  unfold ClientInv at hclient
  cases hp : w.phase with
  | live t polled =>
      simp only [hp] at hclient
      obtain ⟨hb, ht, k, hk, hd⟩ := hclient
      cases polled with
      | true => simp [hp] at hstep
      | false =>
          cases hrx : w.outputRx with
          | nil => simp [hp, hrx] at hstep
          | cons m rest =>
              simp only [hp, hrx] at hstep
              rw [hrx] at hk
              obtain ⟨c, k', hc, hann, hk', hfilter⟩ := hk.recv
              have hseq : c.seq = m.1 := by
                rw [← hc]
                rfl
              have htake := hfilter fun c => t < c.seq
              simp only [decide_eq_true_eq] at htake
              by_cases hlow : m.1 ≤ t
              · rw [if_pos hlow, Option.some_inj] at hstep
                rw [← hstep]
                refine ⟨⟨hlog.seqs, hlog.link, hlog.announced, hlog.retained, hlog.newest⟩, ?_⟩
                unfold ClientInv
                dsimp only
                refine ⟨hb, ht, k', hk', ?_⟩
                have hno : ¬ t < c.seq := by omega
                rw [if_neg hno, List.append_nil] at htake
                change w.delivered = _ ++ (((broadcasted w).take k').filter _).map _
                rw [htake]
                exact hd
              · rw [if_neg hlow, Option.some_inj] at hstep
                rw [← hstep]
                refine ⟨⟨hlog.seqs, hlog.link, hlog.announced, hlog.retained, hlog.newest⟩, ?_⟩
                unfold ClientInv
                dsimp only
                refine ⟨hb, ht, k', hk', ?_⟩
                have hyes : t < c.seq := by omega
                rw [if_pos hyes] at htake
                change w.delivered ++ [m] = _ ++ (((broadcasted w).take k').filter _).map _
                rw [htake, hd, List.map_append, List.append_assoc, List.map_singleton, hc]
                rfl
  | _ => simp [hp] at hstep

/-- INTERNAL: a step of the `select!` that takes nothing. -/
theorem inv_polled {w : PaneStream} (h : StreamInv w) {t : ℕ} {polled polled' : Bool}
    (hp : w.phase = .live t polled) : StreamInv { w with phase := .live t polled' } := by
  obtain ⟨hlog, hclient⟩ := h
  refine ⟨⟨hlog.seqs, hlog.link, hlog.announced, hlog.retained, hlog.newest⟩, ?_⟩
  unfold ClientInv at hclient
  rw [hp] at hclient
  exact hclient

theorem inv_ended {w : PaneStream} (h : StreamInv w) : StreamInv { w with phase := .ended } :=
  ⟨⟨h.log.seqs, h.log.link, h.log.announced, h.log.retained, h.log.newest⟩, trivial⟩

theorem inv_pollEmpty {w w' : PaneStream} (h : StreamInv w) (hstep : w.pollEmpty = some w') :
    StreamInv w' := by
  unfold PaneStream.pollEmpty at hstep
  split at hstep
  · rename_i t hp _
    rw [Option.some_inj] at hstep
    rw [← hstep]
    exact inv_polled h hp
  · cases hstep

theorem inv_nextRound {w w' : PaneStream} (h : StreamInv w) (hstep : w.nextRound = some w') :
    StreamInv w' := by
  unfold PaneStream.nextRound at hstep
  split at hstep
  · rename_i t hp
    rw [Option.some_inj] at hstep
    rw [← hstep]
    exact inv_polled h hp
  · cases hstep

theorem inv_finalExit {w w' : PaneStream} (h : StreamInv w) (hstep : w.finalExit = some w') :
    StreamInv w' := by
  unfold PaneStream.finalExit at hstep
  split_ifs at hstep
  split at hstep
  · rw [Option.some_inj] at hstep
    rw [← hstep]
    exact inv_ended h
  · rw [Option.some_inj] at hstep
    rw [← hstep]
    exact inv_ended h
  · cases hstep

/-! ## Runs -/

theorem inv_new (budgetBytes : ℕ) (resumeFromSeq : Option ℕ) :
    StreamInv (.new budgetBytes resumeFromSeq) := by
  refine ⟨⟨rfl, rfl, ?_, ?_, ?_⟩, rfl⟩
  · intro c hc
    cases hc
  · exact List.suffix_refl _
  · intro h
    exact absurd rfl h

/-- INTERNAL: every step but a lag and a disconnect keeps the invariant. -/
theorem streamInv_step {w w' : PaneStream} {e : StreamEvent} (he : e.disturbs = false)
    (h : StreamInv w) (hstep : w.step e = some w') : StreamInv w' := by
  cases e with
  | read stripped raw daemonAnswers => exact inv_read h hstep
  | eof rest => exact inv_eof h hstep
  | inject data => exact inv_inject h hstep
  | respawn => exact inv_respawn h hstep
  | handoff budgetBytes => exact inv_handoff h hstep
  | push => exact inv_push h hstep
  | bump => exact inv_bump h hstep
  | send => exact inv_send h hstep
  | subscribe => exact inv_subscribe h hstep
  | replaySince => exact inv_replaySince h hstep
  | snapshot => exact inv_snapshot h hstep
  | forwardReplay => exact inv_forwardReplay h hstep
  | recv => exact inv_recv h hstep
  | pollEmpty => exact inv_pollEmpty h hstep
  | nextRound => exact inv_nextRound h hstep
  | lagged skipped => cases he
  | disconnect => cases he
  | finalExit => exact inv_finalExit h hstep

/-! ## Every chunk once -/

/-- INTERNAL: in a list sorted by number, the chunks up to a threshold and the announced ones
after it are one selection. -/
theorem filter_threshold {l : List Chunk} (h : l.Pairwise fun c c' => c.seq < c'.seq)
    {base t : ℕ} (hbt : base ≤ t) :
    l.filter (fun c => base < c.seq ∧ c.seq ≤ t) ++
        l.filter (fun c => c.announced ∧ t < c.seq) =
      l.filter fun c => base < c.seq ∧ (c.seq ≤ t ∨ c.announced) := by
  induction l with
  | nil => rfl
  | cons c l ih =>
      obtain ⟨hc, hl⟩ := List.pairwise_cons.mp h
      by_cases hlow : c.seq ≤ t
      · have hno : ¬ t < c.seq := by omega
        by_cases hb : base < c.seq
        · simp only [List.filter_cons, hlow, hno, hb, and_true, and_false, true_or, decide_true,
            decide_false, if_true, Bool.false_eq_true, if_false, List.cons_append]
          rw [← ih hl]
        · simp only [List.filter_cons, hno, hb, false_and, and_false, decide_false,
            Bool.false_eq_true, if_false]
          rw [← ih hl]
      · -- from here on every number is above the threshold
        have hhigh : ∀ x ∈ c :: l, t < x.seq := by
          intro x hx
          rcases List.mem_cons.mp hx with hx | hx
          · rw [hx]
            omega
          · have hlt := hc x hx
            omega
        have hnone : (c :: l).filter (fun c => base < c.seq ∧ c.seq ≤ t) = [] := by
          rw [List.filter_eq_nil_iff]
          intro x hx
          have hx' := hhigh x hx
          simp only [decide_eq_true_eq]
          omega
        rw [hnone, List.nil_append]
        apply List.filter_congr
        intro x hx
        have habove := hhigh x hx
        have hnot : ¬ x.seq ≤ t := by omega
        have hbase : base < x.seq := by omega
        simp [habove, hnot, hbase]

/-- The threshold of an open stream. -/
def threshold (w : PaneStream) : ℕ :=
  match w.phase with
  | .draining _ t | .live t _ => t
  | _ => 0

/-- INTERNAL: what the client got and what is on its way is the history after the base: all of
it up to the threshold, and the announced chunks after it. -/
theorem delivered_append_upcoming {w : PaneStream} (h : StreamInv w) (hs : Streaming w) :
    (w.delivered ++ upcoming w).map Prod.fst =
      (w.history.filter fun c => w.base < c.seq ∧ (c.seq ≤ threshold w ∨ c.announced)).map
        Chunk.seq := by
  obtain ⟨hlog, hclient⟩ := h
  have hentry : Prod.fst ∘ chunkEntry = Chunk.seq := rfl
  have hmessage : Prod.fst ∘ chunkMessage = Chunk.seq := rfl
  have hrest : ∀ {k t : ℕ}, ReceiverAt (broadcasted w) w.outputRx k →
      upcomingLive w t = (((broadcasted w).drop k ++ outstanding w).filter fun c =>
        c.announced ∧ t < c.seq).map chunkMessage := by
    intro k t hk
    unfold upcomingLive
    rw [hk.queue, List.filter_map, List.filter_filter, List.filter_append, List.map_append]
    congr 2
    apply List.filter_congr
    intro c _
    simp only [Function.comp_apply, chunkMessage, Bool.decide_and, Bool.decide_eq_true]
    exact Bool.and_comm ..
  unfold ClientInv at hclient
  unfold Streaming at hs
  unfold upcoming threshold
  cases hp : w.phase with
  | draining rest t =>
      simp only [hp] at hclient ⊢
      obtain ⟨hb, -, hd, k, hkt, hk⟩ := hclient
      have hlow := filter_take_broadcasted hlog hkt
      have hall : ((broadcasted w).drop k ++ outstanding w).filter (fun c =>
          c.announced ∧ t < c.seq) = w.history.filter fun c => c.announced ∧ t < c.seq := by
        rw [history_eq hlog.link]
        conv_rhs => rw [← List.take_append_drop k (broadcasted w), List.append_assoc,
          List.filter_append, hlow, List.nil_append]
      rw [← List.append_assoc, hd, hrest hk, hall, List.map_append, List.map_map, List.map_map,
        hentry, hmessage, ← List.map_append]
      exact congrArg _ (filter_threshold (pairwise_seq hlog.seqs) hb)
  | live t polled =>
      simp only [hp] at hclient ⊢
      obtain ⟨hb, -, k, hk, hd⟩ := hclient
      have hall : ((broadcasted w).take k).filter (fun c => c.announced ∧ t < c.seq) ++
          ((broadcasted w).drop k ++ outstanding w).filter (fun c => c.announced ∧ t < c.seq) =
          w.history.filter fun c => c.announced ∧ t < c.seq := by
        rw [← List.filter_append, ← List.append_assoc, List.take_append_drop,
          ← history_eq hlog.link]
      rw [hd, hrest hk, List.append_assoc, ← List.map_append, hall, List.map_append,
        List.map_map, List.map_map, hentry, hmessage, ← List.map_append]
      exact congrArg _ (filter_threshold (pairwise_seq hlog.seqs) hb)
  | _ => simp [hp] at hs

/-! ## What is on its way arrives -/

/-- The steps that bring output on its way to the client: the writer finishes its chunk, the
attach forwards. -/
def StreamEvent.forwards : StreamEvent → Bool
  | .bump | .send | .forwardReplay | .recv | .nextRound => true
  | _ => false

/-- `w'` comes from `w` by such steps. -/
def Forwards (w w' : PaneStream) : Prop :=
  ∃ es, (∀ e ∈ es, StreamEvent.forwards e = true) ∧ Lib.run PaneStream.step w es = some w'

theorem Forwards.refl (w : PaneStream) : Forwards w w := ⟨[], by simp, rfl⟩

theorem Forwards.trans {w w' w'' : PaneStream} (h : Forwards w w') (h' : Forwards w' w'') :
    Forwards w w'' := by
  obtain ⟨es, hes, hrun⟩ := h
  obtain ⟨es', hes', hrun'⟩ := h'
  refine ⟨es ++ es', ?_, ?_⟩
  · intro e he
    rcases List.mem_append.mp he with he | he
    · exact hes e he
    · exact hes' e he
  · rw [Lib.run_append, hrun]
    exact hrun'

theorem Forwards.single {w w' : PaneStream} {e : StreamEvent} (he : StreamEvent.forwards e = true)
    (hstep : w.step e = some w') : Forwards w w' := by
  refine ⟨[e], ?_, Lib.run_cons_of_step _ hstep []⟩
  intro e' he'
  rw [List.mem_singleton.mp he']
  exact he

/-- INTERNAL: the writer finishes its chunk. -/
theorem forwards_sent {w : PaneStream} (hs : Streaming w) :
    ∃ w', Forwards w w' ∧ w'.phase = w.phase ∧ w'.delivered = w.delivered ∧
      outstanding w' = [] ∧ ∀ t, upcomingLive w' t = upcomingLive w t := by
  have hsend : ∀ {w : PaneStream} {f : InFlight}, Streaming w → w.writer = .sending f →
      ∃ w', Forwards w w' ∧ w'.phase = w.phase ∧ w'.delivered = w.delivered ∧
        outstanding w' = [] ∧ ∀ t, upcomingLive w' t = upcomingLive w t := by
    intro w f hs hw
    have hopen : w.phase ≠ .connecting := by
      intro hp
      simp [Streaming, hp] at hs
    by_cases hann : f.chunk.announced = true
    · refine ⟨{ w with
        writer := .idle f.running
        outputRx := w.outputRx ++ [chunkMessage f.chunk] }, ?_, rfl, rfl, rfl, ?_⟩
      · apply Forwards.single (e := .send) rfl
        simp [PaneStream.step, PaneStream.send, hw, hann, hopen, chunkMessage]
      · intro t
        simp only [upcomingLive, outstanding, hw, List.filter_append, List.filter_nil,
          List.map_nil, List.append_nil, List.append_cancel_left_eq]
        by_cases ht : t < f.chunk.seq
        · simp [chunkMessage, hann, ht]
        · simp [chunkMessage, ht]
    · refine ⟨{ w with writer := .idle f.running }, ?_, rfl, rfl, rfl, ?_⟩
      · apply Forwards.single (e := .send) rfl
        simp [PaneStream.step, PaneStream.send, hw, hann]
      · intro t
        simp [upcomingLive, outstanding, hw, hann]
  cases hw : w.writer with
  | idle running => exact ⟨w, .refl w, rfl, rfl, by simp [outstanding, hw], fun _ => rfl⟩
  | prepared f => exact ⟨w, .refl w, rfl, rfl, by simp [outstanding, hw], fun _ => rfl⟩
  | pushed f =>
      have hbump : Forwards w { w with outputSeq := w.outputSeq + 1, writer := .sending f } := by
        apply Forwards.single (e := .bump) rfl
        simp [PaneStream.step, PaneStream.bump, hw]
      obtain ⟨w', hw', hphase, hdel, hout, hup⟩ :=
        hsend (w := { w with outputSeq := w.outputSeq + 1, writer := .sending f }) hs rfl
      refine ⟨w', hbump.trans hw', hphase, hdel, hout, ?_⟩
      intro t
      rw [hup t]
      simp [upcomingLive, outstanding, hw]
  | sending f => exact hsend hs hw

/-- INTERNAL: the replay loop sends its chunks. -/
theorem forwards_replay {t : ℕ} (rest : List (ℕ × List UInt8)) {w : PaneStream}
    (hp : w.phase = .draining rest t) :
    Forwards w { w with phase := .live t false, delivered := w.delivered ++ rest } := by
  induction rest generalizing w with
  | nil =>
      apply Forwards.single (e := .forwardReplay) rfl
      simp [PaneStream.step, PaneStream.forwardReplay, hp]
  | cons chunk rest ih =>
      have hfirst : Forwards w { w with
          phase := .draining rest t
          delivered := w.delivered ++ [chunk] } := by
        apply Forwards.single (e := .forwardReplay) rfl
        simp [PaneStream.step, PaneStream.forwardReplay, hp]
      have hrest := hfirst.trans (ih rfl)
      simpa using hrest

/-- INTERNAL: the live loop empties the receiver. -/
theorem forwards_recv {t : ℕ} (rx : List (ℕ × List UInt8)) {w : PaneStream}
    (hp : w.phase = .live t false) (hrx : w.outputRx = rx) :
    ∃ w', Forwards w w' ∧ w'.delivered = w.delivered ++ rx.filter fun m => t < m.1 := by
  induction rx generalizing w with
  | nil => exact ⟨w, .refl w, by simp⟩
  | cons m rx ih =>
      by_cases hlow : m.1 ≤ t
      · have hskip : Forwards w { w with outputRx := rx } := by
          apply Forwards.single (e := .recv) rfl
          simp [PaneStream.step, PaneStream.recv, hp, hrx, hlow]
        obtain ⟨w', hw', hdel⟩ := ih (w := { w with outputRx := rx }) hp rfl
        refine ⟨w', hskip.trans hw', ?_⟩
        have hno : ¬ t < m.1 := by omega
        rw [hdel]
        simp [hno]
      · have htake : Forwards w { w with outputRx := rx, delivered := w.delivered ++ [m] } := by
          apply Forwards.single (e := .recv) rfl
          simp [PaneStream.step, PaneStream.recv, hp, hrx, hlow]
        obtain ⟨w', hw', hdel⟩ :=
          ih (w := { w with outputRx := rx, delivered := w.delivered ++ [m] }) hp rfl
        refine ⟨w', htake.trans hw', ?_⟩
        have hyes : t < m.1 := by omega
        rw [hdel]
        simp [hyes]

/-- INTERNAL: what is on its way to the client is what the remaining steps bring. -/
theorem forwards_upcoming {w : PaneStream} (hs : Streaming w) :
    ∃ w', Forwards w w' ∧ w'.delivered = w.delivered ++ upcoming w := by
  obtain ⟨w₁, h₁, hphase, hdel, hout, hup⟩ := forwards_sent hs
  have hrx : ∀ t, w₁.outputRx.filter (fun m => t < m.1) = upcomingLive w t := by
    intro t
    rw [← hup t]
    simp [upcomingLive, hout]
  unfold Streaming at hs
  unfold upcoming
  cases hp : w.phase with
  | draining rest t =>
      rw [hp] at hphase
      obtain ⟨w₂, h₂, hdel₂⟩ := forwards_recv w₁.outputRx
        (w := { w₁ with phase := .live t false, delivered := w₁.delivered ++ rest }) rfl rfl
      refine ⟨w₂, h₁.trans ((forwards_replay rest hphase).trans h₂), ?_⟩
      rw [hdel₂, hrx, hdel, List.append_assoc]
  | live t polled =>
      rw [hp] at hphase
      have hround : Forwards w₁ { w₁ with phase := .live t false } := by
        cases polled with
        | false =>
            have hsame : { w₁ with phase := .live t false } = w₁ := by rw [← hphase]
            rw [hsame]
            exact .refl w₁
        | true =>
            apply Forwards.single (e := .nextRound) rfl
            simp [PaneStream.step, PaneStream.nextRound, hphase]
      obtain ⟨w₂, h₂, hdel₂⟩ := forwards_recv w₁.outputRx
        (w := { w₁ with phase := .live t false }) rfl rfl
      refine ⟨w₂, h₁.trans (hround.trans h₂), ?_⟩
      rw [hdel₂, hrx, hdel]
  | _ => simp [hp] at hs

/-! ## The result -/

/-- **An attach gets every chunk exactly once.** In every state of every run without a lag and
without a disconnect in which the stream is open, what the client got, followed by what is on
its way to it, is strictly increasing and holds every non-empty chunk after its base (the
resume point, or the seq of the snapshot) exactly once; and the remaining steps of the writer
and of the attach bring what is on its way.
SRC: pane.rs:564-612, main.rs:1452-1650 -/
theorem attach_exactly_once (budgetBytes : ℕ) (resumeFromSeq : Option ℕ)
    {es : List StreamEvent} {w : PaneStream} (hes : ∀ e ∈ es, e.disturbs = false)
    (hrun : Lib.run PaneStream.step (.new budgetBytes resumeFromSeq) es = some w)
    (hs : Streaming w) :
    ((w.delivered ++ upcoming w).map Prod.fst).Pairwise (· < ·) ∧
      (∀ c ∈ w.history, c.payload ≠ [] → w.base < c.seq →
        ((w.delivered ++ upcoming w).map Prod.fst).count c.seq = 1) ∧
      ∃ w', Forwards w w' ∧ w'.delivered = w.delivered ++ upcoming w := by
  have hinv : StreamInv w := Lib.run_invariant StreamInv (fun e => e.disturbs = false)
    (fun _ _ _ he h hstep => streamInv_step he h hstep) hes (inv_new budgetBytes resumeFromSeq) hrun
  have hsorted : ((w.delivered ++ upcoming w).map Prod.fst).Pairwise (· < ·) := by
    rw [delivered_append_upcoming hinv hs, List.pairwise_map]
    exact (pairwise_seq hinv.log.seqs).filter _
  refine ⟨hsorted, ?_, forwards_upcoming hs⟩
  intro c hc hpayload hbase
  apply List.count_eq_one_of_mem
  · exact hsorted.imp fun hlt => Nat.ne_of_lt hlt
  · rw [delivered_append_upcoming hinv hs]
    apply List.mem_map_of_mem
    rw [List.mem_filter]
    exact ⟨hc, by simp [hbase, hinv.log.announced c hc hpayload]⟩

/-- A client resumes after the first chunk while the second is pushed but not broadcast. -/
def resumeRace : List StreamEvent :=
  [.read [97] [97] true, .push, .bump, .send, .read [98] [98] true, .push, .bump, .subscribe,
    .replaySince, .send, .forwardReplay]

/-- INTERNAL: the second chunk is in the replay and in the receiver, and counts once. -/
theorem attach_exactly_once_resumeRace : ∃ w, Lib.run PaneStream.step (.new 1024 (some 1))
    resumeRace = some w ∧ w.outputRx = [(2, [98])] ∧ w.delivered = [(2, [98])] ∧
      ((w.delivered ++ upcoming w).map Prod.fst).count 2 = 1 := by
  have hes : ∀ e ∈ resumeRace, e.disturbs = false := by decide
  refine ⟨_, rfl, rfl, rfl, ?_⟩
  exact (attach_exactly_once 1024 (some 1) hes rfl trivial).2.1
    ⟨2, [98], [98], true⟩ (by decide) (by decide) (by decide)

end Tymux.Analysis
