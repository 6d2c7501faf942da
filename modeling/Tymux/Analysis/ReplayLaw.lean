import Tymux.Lib.Trim
import Tymux.Analysis.ReaderSteps
import Tymux.Analysis.StripAgreement
import Tymux.Analysis.Vte

/-!
# What the replay buffer retains and answers

A buffer that chunks were pushed to holds what trimming them all to the budget leaves
(`Trimmed`). Its laws are those of `trim`: what it retains and how much that is, and which resume
it can answer, where the chunks that were dropped all have smaller seqs than the resume point.
The budget counts bytes, so a chunk without any is never the reason to drop one, and how many
entries there are depends on how many chunks in a row carry next to nothing.
-/

set_option autoImplicit false

namespace Tymux.Analysis

open Tymux.Lib Tymux.Model Tymux.Model.Vt Tymux.Model.TerminalQuery

/-- The bytes of an entry. -/
def entryBytes (e : ℕ × List UInt8) : ℕ := e.2.length

/-- The chunks with the seqs from `s` on. -/
def consecutive (s : ℕ) : List (List UInt8) → List (ℕ × List UInt8)
  | [] => []
  | chunk :: chunks => (s, chunk) :: consecutive (s + 1) chunks

theorem le_of_mem_consecutive {s : ℕ} {chunks : List (List UInt8)} {e : ℕ × List UInt8}
    (h : e ∈ consecutive s chunks) : s ≤ e.1 := by
  induction chunks generalizing s with
  | nil => cases h
  | cons chunk chunks ih =>
      obtain rfl | htail := List.mem_cons.mp h
      · exact Nat.le_refl _
      · have hle := ih htail
        omega

theorem pairwise_consecutive (s : ℕ) (chunks : List (List UInt8)) :
    (consecutive s chunks).Pairwise fun e e' => e.1 < e'.1 := by
  induction chunks generalizing s with
  | nil => exact List.Pairwise.nil
  | cons chunk chunks ih =>
      apply List.Pairwise.cons _ (ih (s + 1))
      intro e he
      exact le_of_mem_consecutive he

/-! ## The buffer is a trimmed log -/

/-- The buffer holds what remains of everything that was pushed, and counts it. -/
structure Trimmed (budgetBytes : ℕ) (pushed : List (ℕ × List UInt8)) (r : ReplayBuffer) :
    Prop where
  budget : r.budgetBytes = budgetBytes
  entries : r.entries = Lib.trim entryBytes budgetBytes pushed
  totalBytes : r.totalBytes = totalWeight entryBytes r.entries

/-- INTERNAL: the loop of `push` trims, as long as the count it starts from is right.
SRC: replay_buffer.rs:104-108 -/
theorem evict_eq (budgetBytes : ℕ) {totalBytes : ℕ} {entries : List (ℕ × List UInt8)}
    (h : totalBytes = totalWeight entryBytes entries) :
    ReplayBuffer.evict budgetBytes totalBytes entries =
      (totalWeight entryBytes (Lib.trim entryBytes budgetBytes entries),
        Lib.trim entryBytes budgetBytes entries) := by
  fun_induction ReplayBuffer.evict budgetBytes totalBytes entries with
  | case1 totalBytes e e' entries hover ih =>
      have htail : totalBytes - e.2.length = totalWeight entryBytes (e' :: entries) := by
        rw [h, totalWeight_cons]
        simp only [entryBytes]
        omega
      rw [ih htail, Lib.trim, if_pos (h ▸ hover)]
  | case2 totalBytes e e' entries hfits =>
      rw [Lib.trim, if_neg (h ▸ hfits), h]
  | case3 totalBytes entries hshort =>
      rw [Lib.trim.eq_def]
      rcases entries with _ | ⟨e, _ | ⟨e', entries⟩⟩
      · rw [h]
      · rw [h]
      · exact absurd rfl (hshort e e' entries)

theorem trimmed_new (budgetBytes : ℕ) : Trimmed budgetBytes [] (.new budgetBytes) := ⟨rfl, rfl, rfl⟩

/-- INTERNAL: a push trims the log with the new chunk.
SRC: replay_buffer.rs:101-109 -/
theorem Trimmed.push {budgetBytes : ℕ} {pushed : List (ℕ × List UInt8)} {r : ReplayBuffer}
    (h : Trimmed budgetBytes pushed r) (seq : ℕ) (data : List UInt8) :
    Trimmed budgetBytes (pushed ++ [(seq, data)]) (r.push seq data) := by
  have hcount : r.totalBytes + data.length = totalWeight entryBytes (r.entries ++ [(seq, data)]) := by
    rw [totalWeight_append, totalWeight_cons, totalWeight_nil, h.totalBytes]
    rfl
  have hkept : ReplayBuffer.evict r.budgetBytes (r.totalBytes + data.length)
        (r.entries ++ [(seq, data)]) =
      (totalWeight entryBytes (Lib.trim entryBytes budgetBytes (pushed ++ [(seq, data)])),
        Lib.trim entryBytes budgetBytes (pushed ++ [(seq, data)])) := by
    rw [evict_eq _ hcount, h.budget, h.entries, trim_append]
  constructor
  case budget => exact h.budget
  case entries => exact congrArg Prod.snd hkept
  case totalBytes =>
      show (ReplayBuffer.evict _ _ _).1 = totalWeight entryBytes (ReplayBuffer.evict _ _ _).2
      rw [hkept]

theorem Trimmed.pushAll {budgetBytes : ℕ} {pushed : List (ℕ × List UInt8)} {r : ReplayBuffer}
    (h : Trimmed budgetBytes pushed r) (entries : List (ℕ × List UInt8)) :
    Trimmed budgetBytes (pushed ++ entries) (r.pushAll entries) := by
  induction entries generalizing pushed r with
  | nil =>
      rw [List.append_nil]
      exact h
  | cons e entries ih =>
      have hrest := ih (h.push e.1 e.2)
      rwa [List.append_assoc] at hrest

/-! ## What is retained -/

/-- What a buffer retains of the chunks pushed to it: the newest ones, as many as the budget
allows, and the newest of all in any case. -/
structure Retains (budgetBytes : ℕ) (pushed : List (ℕ × List UInt8)) (r : ReplayBuffer) :
    Prop where
  totalBytes : r.totalBytes = (r.entries.map fun e => e.2.length).sum
  suffix : r.entries <:+ pushed
  newest : r.entries.getLast? = pushed.getLast?
  bounded : ∀ newest, pushed.getLast? = some newest →
    r.totalBytes ≤ max budgetBytes newest.2.length
  longest : ∀ longer, r.entries <:+ longer → longer <:+ pushed → longer ≠ r.entries →
    budgetBytes < (longer.map fun e => e.2.length).sum

theorem Trimmed.retains {budgetBytes : ℕ} {pushed : List (ℕ × List UInt8)} {r : ReplayBuffer}
    (h : Trimmed budgetBytes pushed r) : Retains budgetBytes pushed r where
  totalBytes := h.totalBytes
  suffix := by
    rw [h.entries]
    exact trim_suffix pushed
  newest := by rw [h.entries, getLast?_trim]
  bounded := by
    intro newest hnewest
    rw [h.totalBytes, h.entries]
    exact totalWeight_trim_le hnewest
  longest := by
    intro longer hkept hsuf hne
    rw [h.entries] at hkept hne
    exact trim_longest hkept hsuf hne

/-! ## What a resume gets -/

/-- The resumes a buffer answers from what it retains, and with what. -/
structure Answers (pushed : List (ℕ × List UInt8)) (r : ReplayBuffer) : Prop where
  window : ∀ resumeFromSeq latestSeq,
    (∃ chunks tailSeq, r.replaySince resumeFromSeq latestSeq = .inWindow chunks tailSeq) ↔
      resumeFromSeq ≤ latestSeq ∧
        ((∃ oldest, r.oldestSeq = some oldest ∧ oldest ≤ resumeFromSeq) ∨
          r.entries = [] ∧ resumeFromSeq = latestSeq)
  chunks : ∀ resumeFromSeq latestSeq chunks tailSeq,
    r.replaySince resumeFromSeq latestSeq = .inWindow chunks tailSeq →
      chunks = (pushed.filter fun e => resumeFromSeq < e.1 ∧ e.1 ≤ latestSeq) ∧
        tailSeq = latestSeq

theorem oldestSeq_cases (r : ReplayBuffer) :
    r.entries = [] ∧ r.oldestSeq = none ∨
      ∃ e entries, r.entries = e :: entries ∧ r.oldestSeq = some e.1 := by
  unfold ReplayBuffer.oldestSeq
  cases r.entries with
  | nil => exact Or.inl ⟨rfl, rfl⟩
  | cons e entries => exact Or.inr ⟨e, entries, rfl, rfl⟩

/-- INTERNAL: the boundary is inclusive, and an empty buffer stands for a pane that is up to date.
SRC: replay_buffer.rs:135-160 -/
theorem replaySince_window_iff (r : ReplayBuffer) (resumeFromSeq latestSeq : ℕ) :
    (∃ chunks tailSeq, r.replaySince resumeFromSeq latestSeq = .inWindow chunks tailSeq) ↔
      resumeFromSeq ≤ latestSeq ∧
        ((∃ oldest, r.oldestSeq = some oldest ∧ oldest ≤ resumeFromSeq) ∨
          r.entries = [] ∧ resumeFromSeq = latestSeq) := by
  constructor
  · rintro ⟨chunks, tailSeq, hanswer⟩
    obtain ⟨oldest, hgap⟩ | ⟨hle, havailable, -⟩ := r.replaySince_cases resumeFromSeq latestSeq
    · rw [hgap] at hanswer
      cases hanswer
    · refine ⟨hle, ?_⟩
      obtain ⟨hnil, holdest⟩ | ⟨e, entries, -, holdest⟩ := oldestSeq_cases r
      · rw [holdest, Option.getD_none] at havailable
        exact Or.inr ⟨hnil, Nat.le_antisymm hle havailable⟩
      · rw [holdest, Option.getD_some] at havailable
        exact Or.inl ⟨e.1, holdest, havailable⟩
  · rintro ⟨hle, hreach⟩
    have havailable : r.oldestSeq.getD latestSeq ≤ resumeFromSeq := by
      obtain ⟨oldest, holdest, hoverlap⟩ | ⟨hnil, rfl⟩ := hreach
      · rw [holdest, Option.getD_some]
        exact hoverlap
      · simp [ReplayBuffer.oldestSeq, hnil]
    refine ⟨r.entries.filter fun e => resumeFromSeq < e.1 ∧ e.1 ≤ latestSeq, latestSeq, ?_⟩
    unfold ReplayBuffer.replaySince
    rw [if_neg (by omega)]
    exact if_pos havailable

/-- INTERNAL: no chunk after the resume point is among those that were dropped. -/
theorem filter_eq_pushed {pushed entries : List (ℕ × List UInt8)} (hsuf : entries <:+ pushed)
    (hsorted : pushed.Pairwise fun e e' => e.1 < e'.1) {resumeFromSeq : ℕ} (latestSeq : ℕ)
    {e : ℕ × List UInt8} (hhead : entries.head? = some e) (hreach : e.1 ≤ resumeFromSeq) :
    (entries.filter fun e => resumeFromSeq < e.1 ∧ e.1 ≤ latestSeq) =
      pushed.filter fun e => resumeFromSeq < e.1 ∧ e.1 ≤ latestSeq := by
  obtain ⟨dropped, rfl⟩ := hsuf
  have hbefore : ∀ d ∈ dropped, d.1 < e.1 := by
    intro d hd
    exact (List.pairwise_append.mp hsorted).2.2 d hd e (List.mem_of_head? hhead)
  have hnone : (dropped.filter fun e => resumeFromSeq < e.1 ∧ e.1 ≤ latestSeq) = [] := by
    rw [List.filter_eq_nil_iff]
    intro d hd hlater
    have hlt := hbefore d hd
    simp only [decide_eq_true_eq] at hlater
    omega
  rw [List.filter_append, hnone, List.nil_append]

theorem Trimmed.answers {budgetBytes : ℕ} {pushed : List (ℕ × List UInt8)} {r : ReplayBuffer}
    (h : Trimmed budgetBytes pushed r) (hsorted : pushed.Pairwise fun e e' => e.1 < e'.1) :
    Answers pushed r where
  window := replaySince_window_iff r
  chunks := by
    intro resumeFromSeq latestSeq chunks tailSeq hanswer
    obtain ⟨oldest, hgap⟩ | ⟨hle, havailable, hwindow⟩ := r.replaySince_cases resumeFromSeq latestSeq
    · rw [hgap] at hanswer
      cases hanswer
    · rw [hwindow] at hanswer
      cases hanswer
      refine ⟨?_, rfl⟩
      obtain ⟨hnil, -⟩ | ⟨e, entries, hentries, holdest⟩ := oldestSeq_cases r
      · -- nothing was ever pushed, as the newest chunk always stays
        have hnone : pushed.getLast? = none := by
          rw [← h.retains.newest, hnil]
          rfl
        rw [hnil, List.getLast?_eq_none_iff.mp hnone]
      · rw [holdest, Option.getD_some] at havailable
        exact filter_eq_pushed h.retains.suffix hsorted latestSeq (by rw [hentries]; rfl) havailable

/-- INTERNAL: after any chunks, pushed with consecutive seqs, the buffer retains the longest suffix
of them that the budget allows, and answers a resume from every point it reaches back to.
SRC: replay_buffer.rs:88-160 -/
theorem replay_law (budgetBytes s : ℕ) (chunks : List (List UInt8)) :
    Retains budgetBytes (consecutive s chunks)
        ((ReplayBuffer.new budgetBytes).pushAll (consecutive s chunks)) ∧
      Answers (consecutive s chunks)
        ((ReplayBuffer.new budgetBytes).pushAll (consecutive s chunks)) := by
  have htrimmed := (trimmed_new budgetBytes).pushAll (consecutive s chunks)
  rw [List.nil_append] at htrimmed
  exact ⟨htrimmed.retains, htrimmed.answers (pairwise_consecutive s chunks)⟩

/-- An oversized chunk stays alone, and a resume from before it is refused. -/
example :
    ((ReplayBuffer.new 4).pushAll (consecutive 7 [[1, 2], [3], [4, 5, 6, 7, 8]])).replaySince 8 9 =
      .gapExceeded (some 9) := by
  decide

/-! ## How many entries there are -/

section Reader

variable {σ : Type} {tok : Tokenizer σ} {width : Char → Option ℕ} {colors : Colors}

/-- INTERNAL: whatever the pane does, its log is what was pushed to the buffer, one chunk at a time.
SRC: pane.rs:577-583, pane.rs:606-609, pane.rs:788-790 -/
theorem step_logged {p p' : ReaderPane σ} {e : PaneEvent}
    (h : p.step tok width colors e = some p') :
    (p'.logged = p.logged ∧ p'.replay = p.replay) ∨
      ∃ entry, p'.logged = p.logged ++ [entry] ∧ p'.replay = p.replay.push entry.1 entry.2 := by
  by_cases hclient : OfClient e
  · obtain ⟨clients, new, -, rfl⟩ := client_inv hclient h
    exact Or.inl ⟨rfl, rfl⟩
  · cases e with
    | decide chunk =>
        obtain ⟨next, daemon, -, rfl⟩ := decide_inv h
        exact Or.inl ⟨rfl, rfl⟩
    | parse =>
        obtain ⟨next, daemon, chunk, r, -, -, rfl⟩ := parse_inv h
        exact Or.inl ⟨rfl, rfl⟩
    | scan =>
        obtain ⟨next, daemon, chunk, -, rfl⟩ := scan_inv h
        exact Or.inl ⟨rfl, rfl⟩
    | push =>
        obtain ⟨next, daemon, scanned, -, rfl⟩ := push_inv h
        exact Or.inr ⟨(next, scanned.stripped), rfl, rfl⟩
    | broadcast =>
        obtain ⟨next, daemon, scanned, payload, sent, -, -, -, rfl⟩ := broadcast_inv h
        exact Or.inl ⟨rfl, rfl⟩
    | eof =>
        obtain ⟨-, ⟨-, rfl⟩ | ⟨-, rfl⟩⟩ := eof_inv h
        · exact Or.inl ⟨rfl, rfl⟩
        · exact Or.inr ⟨(p.outputSeq + 1, p.scanner.held), rfl, rfl⟩
    | inject data =>
        obtain ⟨r, -, -, rfl⟩ := inject_inv h
        exact Or.inr ⟨(p.outputSeq + 1, data), rfl, rfl⟩
    | respawn =>
        obtain ⟨-, rfl⟩ := respawn_inv h
        exact Or.inl ⟨rfl, rfl⟩
    | register => exact absurd trivial hclient
    | goLiveAfter client seq => exact absurd trivial hclient
    | setLagged client lagged => exact absurd trivial hclient
    | dropClient client => exact absurd trivial hclient
    | resume fromSeq => exact absurd trivial hclient

/-- INTERNAL: the buffer of a pane is its log, trimmed to the budget. -/
theorem trimmed_run {budgetBytes : ℕ} {p p' : ReaderPane σ} {events : List PaneEvent}
    (h : Trimmed budgetBytes p.logged p.replay) (hrun : p.run tok width colors events = some p') :
    Trimmed budgetBytes p'.logged p'.replay := by
  apply run_invariant (fun p => Trimmed budgetBytes p.logged p.replay) (fun _ => True) _
    (fun _ _ => trivial) h hrun
  intro p e p' _ h hstep
  obtain ⟨hlogged, hreplay⟩ | ⟨entry, hlogged, hreplay⟩ := step_logged hstep
  · rw [hlogged, hreplay]
    exact h
  · rw [hlogged, hreplay]
    exact h.push entry.1 entry.2

/-- Of the chunks pushed, any so many in a row carry more than the budget. -/
def Heavy (budgetBytes : ℕ) (pushed : List (ℕ × List UInt8)) : Prop :=
  ∀ window, window <:+: pushed → window.length = budgetBytes + 2 →
    budgetBytes < (window.map fun e => e.2.length).sum

/-- INTERNAL: in a run of the pane there are never more than `budgetBytes + 1` entries if and only
if every `budgetBytes + 2` chunks that it pushes in a row carry more than `budgetBytes` bytes.
SRC: replay_buffer.rs:97-109, pane.rs:569-583 -/
theorem entries_bounded_iff (parser : Parser σ) (clients : ClientRegistry)
    (outputSeq budgetBytes : ℕ) {events : List PaneEvent} {p : ReaderPane σ}
    (hrun : (ReaderPane.start tok parser clients outputSeq budgetBytes).run tok width colors events =
      some p) :
    (∀ before q, before <+: events →
        (ReaderPane.start tok parser clients outputSeq budgetBytes).run tok width colors before =
          some q → q.replay.entries.length ≤ budgetBytes + 1) ↔
      Heavy budgetBytes p.logged := by
  let start := ReaderPane.start tok parser clients outputSeq budgetBytes
  have hstart : Trimmed budgetBytes start.logged start.replay := trimmed_new budgetBytes
  have hlog : ∀ s e s', ReaderPane.step tok width colors s e = some s' →
      s'.logged = s.logged ∨ ∃ entry, s'.logged = s.logged ++ [entry] := by
    intro s e s' h
    obtain ⟨hlogged, -⟩ | ⟨entry, hlogged, -⟩ := step_logged h
    · exact Or.inl hlogged
    · exact Or.inr ⟨entry, hlogged⟩
  constructor
  · rintro hbounded window ⟨before, after, heq⟩ hlength
    have hprefix : before ++ window <+: p.logged := ⟨after, heq⟩
    obtain ⟨events', q, hevents', hq, hlogged⟩ :=
      (run_log ReaderPane.logged hlog hrun).2 _ List.nil_prefix hprefix
    have hle := hbounded events' q hevents' hq
    rw [(trimmed_run hstart hq).entries, hlogged, length_trim_le_iff (by omega)] at hle
    exact hle window (List.suffix_append ..) hlength
  · rintro hheavy events' q ⟨rest, rfl⟩ hq
    rw [(trimmed_run hstart hq).entries, length_trim_le_iff (by omega)]
    intro window hsuf hlength
    have hrest : q.run tok width colors rest = some p := by
      unfold ReaderPane.run at hrun hq ⊢
      rwa [run_append, hq, Option.bind_some] at hrun
    have hprefix := (run_log ReaderPane.logged hlog hrest).1
    exact hheavy window (hsuf.isInfix.trans hprefix.isInfix) hlength

end Reader

/-- Two queries without a client to see them, on a pane that was granted nothing: neither chunk has
a byte left in the log, and both stay. -/
theorem entries_unbounded :
    ∃ parser p, Parser.new vte 1 1 1 = some parser ∧
      (ReaderPane.start vte parser {} 0 0).run vte (fun _ => some 1) {}
        [.decide [0x1b, 0x5b, 0x35, 0x6e], .parse, .scan, .push, .broadcast,
          .decide [0x1b, 0x5b, 0x35, 0x6e], .parse, .scan, .push] = some p ∧
      ¬ p.replay.entries.length ≤ 0 + 1 := by
  obtain ⟨parser, hnew, -⟩ := @walked_new _ vte 1 1 (by decide) (by decide) (by decide) 1
  have hentries : ((Parser.new vte 1 1 1).bind fun parser =>
      (ReaderPane.start vte parser {} 0 0).run vte (fun _ => some 1) {}
        [.decide [0x1b, 0x5b, 0x35, 0x6e], .parse, .scan, .push, .broadcast,
          .decide [0x1b, 0x5b, 0x35, 0x6e], .parse, .scan, .push]).map
            (fun p => p.replay.entries) = some [(1, []), (2, [])] := by
    decide +kernel
  rw [hnew, Option.bind_some] at hentries
  obtain ⟨p, hrun, hp⟩ := Option.map_eq_some_iff.mp hentries
  refine ⟨parser, p, hnew, hrun, ?_⟩
  rw [hp]
  decide

/-- Text on a pane with a budget of one byte: the second chunk drives the first one out. -/
theorem entries_bounded_text :
    ∃ parser p, Parser.new vte 1 1 1 = some parser ∧
      (ReaderPane.start vte parser {} 0 1).run vte (fun _ => some 1) {}
        [.decide [0x61, 0x62], .parse, .scan, .push, .broadcast,
          .decide [0x63], .parse, .scan, .push] = some p ∧
      p.logged = [(1, [0x61, 0x62]), (2, [0x63])] ∧
      ∀ before q, before <+: [.decide [0x61, 0x62], .parse, .scan, .push, .broadcast,
          .decide [0x63], .parse, .scan, .push] →
        (ReaderPane.start vte parser {} 0 1).run vte (fun _ => some 1) {} before = some q →
          q.replay.entries.length ≤ 1 + 1 := by
  obtain ⟨parser, hnew, -⟩ := @walked_new _ vte 1 1 (by decide) (by decide) (by decide) 1
  have hlogged : ((Parser.new vte 1 1 1).bind fun parser =>
      (ReaderPane.start vte parser {} 0 1).run vte (fun _ => some 1) {}
        [.decide [0x61, 0x62], .parse, .scan, .push, .broadcast,
          .decide [0x63], .parse, .scan, .push]).map
            (fun p => p.logged) = some [(1, [0x61, 0x62]), (2, [0x63])] := by
    decide +kernel
  rw [hnew, Option.bind_some] at hlogged
  obtain ⟨p, hrun, hp⟩ := Option.map_eq_some_iff.mp hlogged
  refine ⟨parser, p, hnew, hrun, hp, (entries_bounded_iff parser {} 0 1 hrun).mpr ?_⟩
  intro window hwindow hlength
  have hle := hwindow.length_le
  rw [hp, hlength] at hle
  exact absurd hle (by decide)

end Tymux.Analysis
