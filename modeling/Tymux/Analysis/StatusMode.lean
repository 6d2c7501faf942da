import Tymux.Model.StatusMode
import Tymux.Analysis.ReadBoundaries

/-!
# Whether the status line tells the truth

The mode is a third copy of what `copy_mode` and the reassembler know. It is set where copy mode is
entered and left, and at the end of a read if the prefix has been armed or disarmed by it. The last
of these overrides the first: a read that enters copy mode must leave the prefix as it has found
it. And leaving copy mode takes the prefix for disarmed, while it can have been armed behind the key
that entered. These are the only two ways in which the mode goes wrong (`mode_tells_truth_iff`).
-/

set_option autoImplicit false

namespace Tymux.Analysis.StatusMode

open Tymux.Model Tymux.Lib ShownLoop ReadBoundaries

/-- What the status line should say.
SRC: status_bar.rs:8-17 -/
def trueMode (loop : AttachLoop) : DisplayMode :=
  if loop.copyMode.isSome then .copyMode
  else if loop.reassembler.armed.isSome then .prefixArmed
  else .normal

def Truthful (s : ShownLoop) : Prop := s.mode = trueMode s.loop

/-- Among these outputs is the action that enters copy mode, and the capture for it succeeds. -/
def entersCopyMode (server : AttachServer) (effects : List AttachEffect) :
    List (ReassembledOutput UInt8) → Bool
  | [] => false
  | out :: outs =>
    (isEnter out && (server.capture (effects ++ [effectOf out]) 0).isSome) ||
      entersCopyMode server (effects ++ [effectOf out]) outs

/-- A read that leaves copy mode finds the prefix disarmed, and a read that enters it leaves the
prefix as it has found it. -/
def KeepsTruth (s : ShownLoop) : AttachEvent → Prop
  | .stdin server (some bytes) =>
    match s.loop.copyMode with
    | some cs => (cs.handleBytes false bytes).shouldExit = true →
        s.loop.reassembler.armed.isSome = false
    | none => entersCopyMode server s.loop.effects (s.loop.reassembler.process id bytes).2 = true →
        (s.loop.reassembler.process id bytes).1.armed.isSome = s.loop.reassembler.armed.isSome
  | _ => True

/-- The loop after a turn that does not end it. -/
def turn (s : ShownLoop) (e : AttachEvent) : Option ShownLoop := (s.step e).toOption

section

variable {server : AttachServer} {s t : ShownLoop}

theorem isEnter_iff (out : ReassembledOutput UInt8) :
    isEnter out = true ↔ out = .action .enterCopyMode := by
  cases out with
  | forward bytes => exact ⟨nofun, nofun⟩
  | action action => cases action <;> simp [isEnter]

/-- INTERNAL: performing an output changes the mode only together with copy mode.
SRC: main.rs:1233-1243 -/
theorem perform_eq_ok {out : ReassembledOutput UInt8} (h : s.perform server out = .ok t) :
    t.loop.reassembler = s.loop.reassembler ∧
      t.loop.effects = s.loop.effects ++ [effectOf out] ∧
      if isEnter out && (server.capture (s.loop.effects ++ [effectOf out]) 0).isSome then
        t.loop.copyMode.isSome = true ∧ t.mode = .copyMode
      else t.loop.copyMode = s.loop.copyMode ∧ t.mode = s.mode := by
  unfold ShownLoop.perform at h
  cases hloop : s.loop.perform server out with
  | error ended =>
      rw [hloop] at h
      cases h
  | ok loop =>
      rw [hloop] at h
      cases h
      obtain ⟨hreassembler, heffects, -, hmode⟩ := ReadBoundaries.perform_eq_ok hloop
      refine ⟨hreassembler, heffects, ?_⟩
      by_cases henter : isEnter out = true
      · obtain rfl := (isEnter_iff out).mp henter
        simp only [AttachLoop.perform, AttachLoop.does] at hloop
        simp only [henter, effectOf, Bool.true_and]
        cases hsize : server.capture (s.loop.effects ++ [.action .enterCopyMode]) 0 with
        | none =>
            rw [hsize] at hloop
            cases hloop
            exact ⟨rfl, rfl⟩
        | some size =>
            rw [hsize] at hloop
            cases hloop
            exact ⟨rfl, rfl⟩
      · have hnot : isEnter out = false := (Bool.not_eq_true _).mp henter
        rw [hnot, Bool.false_and, if_neg Bool.false_ne_true]
        refine ⟨hmode hnot, ?_⟩
        split
        case h_1 => cases hnot
        case h_2 => rfl

/-- INTERNAL: so do all the outputs of a read. -/
theorem performAll_eq_ok {outs : List (ReassembledOutput UInt8)}
    (h : outs.foldlM (ShownLoop.perform server) s = .ok t) :
    t.loop.reassembler = s.loop.reassembler ∧
      if entersCopyMode server s.loop.effects outs then
        t.loop.copyMode.isSome = true ∧ t.mode = .copyMode
      else t.loop.copyMode = s.loop.copyMode ∧ t.mode = s.mode := by
  induction outs generalizing s with
  | nil =>
      cases h
      exact ⟨rfl, rfl, rfl⟩
  | cons out outs ih =>
      rw [List.foldlM_cons] at h
      cases hout : s.perform server out with
      | error ended =>
          rw [hout] at h
          cases h
      | ok s₁ =>
          rw [hout] at h
          obtain ⟨hreassembler, heffects, hfirst⟩ := perform_eq_ok hout
          obtain ⟨hreassembler', hrest⟩ := ih h
          rw [heffects] at hrest
          refine ⟨hreassembler'.trans hreassembler, ?_⟩
          rw [entersCopyMode]
          cases henters : entersCopyMode server (s.loop.effects ++ [effectOf out]) outs with
          | true =>
              rw [Bool.or_true, if_pos rfl]
              rw [henters, if_pos rfl] at hrest
              exact hrest
          | false =>
              rw [Bool.or_false]
              rw [henters, if_neg Bool.false_ne_true] at hrest
              rw [hrest.1, hrest.2]
              exact hfirst

/-! ## One turn -/

theorem afterCopyMode_eq_ok {loop loop' : AttachLoop} {read : CopyModeRead}
    (h : loop.afterCopyMode server read = .ok loop') :
    loop'.reassembler = loop.reassembler ∧
      loop'.copyMode = if read.shouldExit then none else some read.state := by
  unfold AttachLoop.afterCopyMode at h
  cases hyank : read.yankRange <;> simp only [hyank] at h
  all_goals
    split_ifs at h with hexit hfail
    · cases h
      exact ⟨rfl, (if_pos hexit).symm⟩
    · cases h
      exact ⟨rfl, (if_neg hexit).symm⟩

/-- INTERNAL: a read in copy mode.
SRC: main.rs:1142-1212 -/
theorem truthful_copyMode {cs : CopyModeState} {bytes : List UInt8}
    (hcopy : s.loop.copyMode = some cs) (hs : Truthful s) (h : s.stdin server bytes = .ok t) :
    ((cs.handleBytes false bytes).shouldExit = true → s.loop.reassembler.armed.isSome = false) ↔
      Truthful t := by
  have hmode : s.mode = .copyMode := by
    rw [hs, trueMode, hcopy]
    rfl
  unfold ShownLoop.stdin at h
  simp only [hcopy] at h
  generalize cs.handleBytes false bytes = read at h ⊢
  cases hloop : s.loop.afterCopyMode server read with
  | error ended =>
      rw [hloop] at h
      cases h
  | ok loop =>
      rw [hloop] at h
      cases h
      obtain ⟨hreassembler, hleft⟩ := afterCopyMode_eq_ok hloop
      unfold Truthful trueMode
      simp only [hleft, hreassembler, hmode]
      cases read.shouldExit with
      | false => simp
      | true => cases s.loop.reassembler.armed.isSome <;> simp

/-- INTERNAL: a read that is reassembled.
SRC: main.rs:1214-1323 -/
theorem truthful_reassemble {bytes : List UInt8} (hcopy : s.loop.copyMode = none)
    (hs : Truthful s) (h : s.reassemble server bytes = .ok t) :
    (entersCopyMode server s.loop.effects (s.loop.reassembler.process id bytes).2 = true →
      (s.loop.reassembler.process id bytes).1.armed.isSome = s.loop.reassembler.armed.isSome) ↔
      Truthful t := by
  have hmode : s.mode = if s.loop.reassembler.armed.isSome then .prefixArmed else .normal := by
    rw [hs, trueMode, hcopy]
    rfl
  unfold ShownLoop.reassemble at h
  dsimp only at h
  generalize hprocess : s.loop.reassembler.process id bytes = processed at h ⊢
  obtain ⟨reassembler, outs⟩ := processed
  dsimp only at h ⊢
  cases hall : outs.foldlM (ShownLoop.perform server) { s with loop.reassembler := reassembler } with
  | error ended =>
      rw [hall] at h
      cases h
  | ok u =>
      rw [hall] at h
      obtain ⟨hreassembler, hentered⟩ := performAll_eq_ok hall
      cases h
      dsimp only at hreassembler hentered ⊢
      unfold Truthful trueMode
      rw [hreassembler]
      cases henters : entersCopyMode server s.loop.effects outs with
      | true =>
          rw [henters, if_pos rfl] at hentered
          by_cases hsame : reassembler.armed.isSome = s.loop.reassembler.armed.isSome
          · rw [if_neg (not_not.mpr hsame), if_pos hentered.1]
            exact ⟨fun _ => hentered.2, fun _ _ => hsame⟩
          · rw [if_pos hsame, if_pos hentered.1]
            refine ⟨fun hkeeps => absurd (hkeeps rfl) hsame, fun hwrong => ?_⟩
            cases harmed : reassembler.armed.isSome with
            | false =>
                rw [harmed] at hwrong
                cases hwrong
            | true =>
                rw [harmed] at hwrong
                cases hwrong
      | false =>
          rw [henters, if_neg Bool.false_ne_true] at hentered
          refine ⟨fun _ => ?_, fun _ hno => absurd hno Bool.false_ne_true⟩
          have hoff : ¬ u.loop.copyMode.isSome = true := by
            rw [hentered.1, hcopy]
            exact Bool.false_ne_true
          by_cases hsame : reassembler.armed.isSome = s.loop.reassembler.armed.isSome
          · rw [if_neg (not_not.mpr hsame), if_neg hoff, hentered.2, hmode, hreassembler, hsame]
          · rw [if_pos hsame, if_neg hoff, hreassembler]

/-- INTERNAL: what a turn has to do with the mode. -/
theorem truthful_turn {e : AttachEvent} (hs : Truthful s) (h : turn s e = some t) :
    KeepsTruth s e ↔ Truthful t := by
  have hstep : s.step e = .ok t := by
    unfold turn at h
    cases hout : s.step e with
    | error ended =>
        rw [hout] at h
        cases h
    | ok t' =>
        rw [hout] at h
        cases h
        rfl
  cases e with
  | resize =>
      cases hstep
      exact ⟨fun _ => hs, fun _ => trivial⟩
  | inbound event =>
      cases event with
      | none => cases hstep
      | some event =>
          cases event with
          | exited => cases hstep
          | _ =>
              cases hstep
              exact ⟨fun _ => hs, fun _ => trivial⟩
  | stdin server bytes =>
      cases bytes with
      | none => cases hstep
      | some bytes =>
          change s.stdin server bytes = .ok t at hstep
          unfold KeepsTruth
          cases hcopy : s.loop.copyMode with
          | some cs => exact truthful_copyMode hcopy hs hstep
          | none =>
              unfold ShownLoop.stdin at hstep
              simp only [hcopy] at hstep
              exact truthful_reassemble hcopy hs hstep

end

/-! ## Whole runs -/

/-- **The status line.** In a run of the attach loop, of reads cut anywhere, inbound events and
resizes, the mode tells the truth in every state if and only if every read that leaves copy mode
finds the prefix disarmed and every read that enters it leaves the prefix as it has found it.
SRC: main.rs:1139-1324 -/
theorem mode_tells_truth_iff (config : TymuxConfig) {events : List AttachEvent} {s : ShownLoop}
    (hrun : run turn (new config) events = some s) :
    Along turn KeepsTruth (new config) events ↔
      ∀ earlier t, earlier <+: events → run turn (new config) earlier = some t → Truthful t := by
  have hnew : Truthful (new config) := rfl
  refine along_iff_prefixes (P := KeepsTruth) (G := Truthful) (I := Truthful) ?_ ?_ hnew hnew hrun
  · exact fun _ _ _ hs h => truthful_turn hs h
  · exact fun _ _ _ hs hkeeps h => (truthful_turn hs h).mp hkeeps

/-- The prefix `C-b`, and `[` for copy mode. -/
def copyModeConfig : TymuxConfig where
  leader := "C-b"
  bindings := [⟨[⟨'b', true⟩, ⟨'[', false⟩], .enterCopyMode⟩]

/-- A server that answers every capture. -/
def capturing : AttachServer where
  capture := fun _ _ => some (24, 80)
  adjacent := fun _ _ => none

/-- INTERNAL: the two keys in one read. -/
theorem mode_tells_truth_iff_one_read : ∃ s,
    run turn (new copyModeConfig) [.stdin capturing (some [0x02, 0x5b])] = some s ∧
      (Along turn KeepsTruth (new copyModeConfig) [.stdin capturing (some [0x02, 0x5b])] ↔
        ∀ earlier t, earlier <+: [.stdin capturing (some [0x02, 0x5b])] →
          run turn (new copyModeConfig) earlier = some t → Truthful t) :=
  ⟨_, rfl, mode_tells_truth_iff copyModeConfig rfl⟩

/-- INTERNAL: the same two keys in two reads. The second enters copy mode and disarms the prefix,
and the status line says that nothing is active.
SRC: main.rs:1310-1312 -/
theorem copyMode_shown_as_normal : ∃ s,
    run turn (new copyModeConfig)
        [.stdin capturing (some [0x02]), .stdin capturing (some [0x5b])] = some s ∧
      s.loop.copyMode.isSome = true ∧ s.mode = .normal :=
  ⟨_, rfl, rfl, rfl⟩

end Tymux.Analysis.StatusMode
