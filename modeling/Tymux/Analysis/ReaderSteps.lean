import Tymux.Model.Reader

/-!
# What the reader does in a step

One lemma for each step of the reader says from which stage it is taken and what the pane is
afterwards, and one for the clients that they leave the reader alone.
-/

set_option autoImplicit false

namespace Tymux.Analysis

open Tymux.Model.Vt Tymux.Model.TerminalQuery

/-- The bytes of the entries. -/
def bytesOf (entries : List (ℕ × List UInt8)) : List UInt8 := entries.flatMap Prod.snd

theorem bytesOf_append (entries : List (ℕ × List UInt8)) (seq : ℕ) (data : List UInt8) :
    bytesOf (entries ++ [(seq, data)]) = bytesOf entries ++ data := by
  unfold bytesOf
  rw [List.flatMap_append, List.flatMap_singleton]

/-- What the process has printed. -/
def printed (chunks : List (Bool × List UInt8)) : List UInt8 := chunks.flatMap Prod.snd

theorem printed_append (chunks : List (Bool × List UInt8)) (daemon : Bool) (chunk : List UInt8) :
    printed (chunks ++ [(daemon, chunk)]) = printed chunks ++ chunk := by
  unfold printed
  rw [List.flatMap_append, List.flatMap_singleton]

section

variable {σ : Type} {tok : Tokenizer σ} {width : Char → Option ℕ} {colors : Colors}
  {p p' : ReaderPane σ}

theorem offer_eq (p : ReaderPane σ) (replies : List (List UInt8)) :
    p.offer replies =
      { p with offered := p.offered ++ if p.daemonAnswers then replies else [] } := by
  unfold ReaderPane.offer
  split
  · rfl
  · rw [List.append_nil]

theorem decide_inv {chunk : List UInt8} (h : p.decide chunk = some p') :
    ∃ next daemon, p.stage = .waiting ∧ p' =
      { p with
        daemonAnswers := daemon
        chunks := p.chunks ++ [(daemon, chunk)]
        stage := .decided next daemon chunk } := by
  unfold ReaderPane.decide at h
  split at h
  · rename_i hstage
    cases h
    exact ⟨_, _, hstage, rfl⟩
  · cases h

theorem parse_inv (h : p.parse tok width colors = some p') :
    ∃ next daemon chunk r, p.stage = .decided next daemon chunk ∧
      processReplying tok width colors p.parser chunk = some r ∧ p' =
        { p with
          offered := p.offered ++ if p.daemonAnswers then r.2 else []
          parser := r.1
          stage := .parsed next daemon chunk } := by
  unfold ReaderPane.parse at h
  split at h
  · rename_i next daemon chunk hstage
    obtain ⟨r, hr, hp'⟩ := Option.bind_eq_some_iff.mp h
    cases hp'
    rw [offer_eq]
    exact ⟨next, daemon, chunk, r, hstage, hr, rfl⟩
  · cases h

theorem scan_inv (h : p.scan tok = some p') :
    ∃ next daemon chunk, p.stage = .parsed next daemon chunk ∧ p' =
      { p with
        scanner := (p.scanner.feed tok chunk).2
        stage := .scanned next daemon (p.scanner.feed tok chunk).1 } := by
  unfold ReaderPane.scan at h
  split at h
  · rename_i next daemon chunk hstage
    cases h
    exact ⟨next, daemon, chunk, hstage, rfl⟩
  · cases h

theorem push_inv (h : p.push = some p') :
    ∃ next daemon scanned, p.stage = .scanned next daemon scanned ∧ p' =
      { p.log next scanned.stripped with stage := .pushed next daemon scanned } := by
  unfold ReaderPane.push at h
  split at h
  · rename_i next daemon scanned hstage
    cases h
    exact ⟨next, daemon, scanned, hstage, rfl⟩
  · cases h

theorem broadcast_inv (h : p.broadcast = some p') :
    ∃ next daemon scanned payload sent, p.stage = .pushed next daemon scanned ∧
      payload = (if daemon then scanned.stripped else scanned.raw) ∧
      bytesOf sent = bytesOf p.sent ++ payload ∧
      p' = { p with sent, stage := .waiting } := by
  unfold ReaderPane.broadcast at h
  split at h
  · rename_i next daemon scanned hstage
    cases h
    refine ⟨next, daemon, scanned, _, _, hstage, rfl, ?_, rfl⟩
    generalize (if daemon then scanned.stripped else scanned.raw) = payload
    split
    · rename_i hempty
      rw [List.isEmpty_iff.mp hempty, List.append_nil]
    · rw [bytesOf_append]
  · cases h

/-- Nothing held at the end of the output is nothing released. -/
theorem eof_inv (h : p.eof = some p') :
    p.stage = .waiting ∧
      ((p.scanner.held = [] ∧ p' = { p with scanner := p.scanner.takeHeld.2, stage := .stopped }) ∨
        p.scanner.held ≠ [] ∧ p' =
          { p.log (p.outputSeq + 1) p.scanner.held with
            scanner := p.scanner.takeHeld.2
            stage := .stopped
            sent := p.sent ++ [(p.outputSeq + 1, p.scanner.held)] }) := by
  unfold ReaderPane.eof at h
  split at h
  · rename_i hstage
    refine ⟨hstage, ?_⟩
    dsimp only [QueryScanner.takeHeld] at h
    split at h
    · rename_i hempty
      cases h
      exact Or.inl ⟨List.isEmpty_iff.mp hempty, rfl⟩
    · rename_i hsome
      cases h
      exact Or.inr ⟨fun hnil => hsome (List.isEmpty_iff.mpr hnil), rfl⟩
  · cases h

theorem inject_inv {data : List UInt8} (h : p.inject tok width colors data = some p') :
    ∃ r, p.stage = .stopped ∧ processReplying tok width colors p.parser data = some r ∧ p' =
      { p.log (p.outputSeq + 1) data with
        offered := p.offered ++ if p.daemonAnswers then r.2 else []
        parser := r.1
        sent := p.sent ++ [(p.outputSeq + 1, data)] } := by
  unfold ReaderPane.inject at h
  split at h
  · rename_i hstage
    obtain ⟨r, hr, hp'⟩ := Option.bind_eq_some_iff.mp h
    cases hp'
    rw [offer_eq]
    exact ⟨r, hstage, hr, rfl⟩
  · cases h

theorem respawn_inv (h : p.respawn tok = some p') :
    p.stage = .stopped ∧
      p' = { p with scanner := QueryScanner.default tok, chunks := [], stage := .waiting } := by
  unfold ReaderPane.respawn at h
  split at h
  · rename_i hstage
    cases h
    exact ⟨hstage, rfl⟩
  · cases h

/-- The events of the clients. -/
def OfClient : PaneEvent → Prop
  | .register | .goLiveAfter _ _ | .setLagged _ _ | .dropClient _ | .resume _ => True
  | _ => False

theorem client_inv {e : PaneEvent} (he : OfClient e)
    (h : p.step tok width colors e = some p') :
    ∃ clients new, (∀ entry ∈ new, entry ∈ p.replay.entries) ∧
      p' = { p with clients, resumed := p.resumed ++ new } := by
  have hnone : ∀ entry ∈ ([] : List (ℕ × List UInt8)), entry ∈ p.replay.entries :=
    fun entry hentry => absurd hentry List.not_mem_nil
  cases e with
  | register =>
      cases h
      exact ⟨_, [], hnone, by rw [List.append_nil]⟩
  | goLiveAfter client seq =>
      cases h
      exact ⟨_, [], hnone, by rw [List.append_nil]⟩
  | setLagged client lagged =>
      cases h
      exact ⟨_, [], hnone, by rw [List.append_nil]⟩
  | dropClient client =>
      cases h
      exact ⟨_, [], hnone, by rw [List.append_nil]⟩
  | resume fromSeq =>
      cases h
      unfold ReaderPane.resume
      rcases p.replay.replaySince_cases fromSeq p.outputSeq with ⟨oldest, hgap⟩ | ⟨-, -, hin⟩
      · rw [hgap]
        exact ⟨p.clients, [], hnone, by rw [List.append_nil]⟩
      · rw [hin]
        exact ⟨p.clients, _, fun entry hentry => List.mem_of_mem_filter hentry, rfl⟩
  | decide chunk => exact he.elim
  | parse => exact he.elim
  | scan => exact he.elim
  | push => exact he.elim
  | broadcast => exact he.elim
  | eof => exact he.elim
  | inject data => exact he.elim
  | respawn => exact he.elim

end

end Tymux.Analysis
