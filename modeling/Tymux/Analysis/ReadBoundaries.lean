import Tymux.Model.AttachLoop
import Tymux.Lib.Total

/-!
# Read boundaries and copy mode

Whether a read goes to copy mode or to the reassembler is decided once, at its beginning. A read
that goes on after the key that enters copy mode has all of its bytes reassembled, and a read that
goes on after the key that leaves it loses the rest. So reads may be cut anywhere if and only if
nothing follows the key that enters copy mode. Where every such key is the last of its read
(`Tidy`), the loop does what it does when it reads byte by byte.
-/

set_option autoImplicit false

namespace Tymux.Analysis.ReadBoundaries

open Tymux.Model Tymux.Lib AttachLoop

/-! ## What is compared -/

/-- One way of cutting a stream into reads.
SRC: main.rs:1077-1086 -/
structure Cut (stream : List UInt8) (cut : List (List UInt8)) : Prop where
  whole : cut.flatten = stream
  sizes : ∀ read ∈ cut, read ≠ [] ∧ read.length ≤ 1024

/-- The bytes that the pane gets. -/
def inputBytes (effects : List AttachEffect) : List UInt8 :=
  effects.flatMap fun
    | .input bytes => bytes
    | _ => []

/-- Everything else that is done. -/
def actions (effects : List AttachEffect) : List AttachEffect :=
  effects.filter fun
    | .input _ => false
    | _ => true

/-- A read is reassembled if copy mode is off when it comes. -/
def ReachesReassembler (s : AttachLoop) : Prop := s.copyMode = none

/-- No byte is reassembled, or forwarded then, that comes while copy mode is on: a run that has read
everything before the byte, and nothing from it on, is not in copy mode. -/
def CopyModeOwnsKeys (server : AttachServer) (config : TymuxConfig) (cut : List (List UInt8)) :
    Prop :=
  ∀ earlier read later before b after s t, cut = earlier ++ read :: later →
    read = before ++ b :: after → (new config).reads server earlier = .ok s →
    (new config).reads server (earlier ++ [before]) = .ok t → t.copyMode.isSome = true →
      ¬ ReachesReassembler s

/-- The claim about one stream: any two ways of cutting it come to the same input and the same
actions, and copy mode owns its keys. -/
def BoundariesDoNotMatter (server : AttachServer) (config : TymuxConfig) (stream : List UInt8) :
    Prop :=
  ∀ cut cut', Cut stream cut → Cut stream cut' →
    inputBytes (attachEffects ((new config).reads server cut)) =
        inputBytes (attachEffects ((new config).reads server cut')) ∧
      actions (attachEffects ((new config).reads server cut)) =
        actions (attachEffects ((new config).reads server cut')) ∧
      CopyModeOwnsKeys server config cut

/-! ## The conditions -/

def effectOf : ReassembledOutput UInt8 → AttachEffect
  | .forward bytes => .input bytes
  | .action action => .action action

/-- The output ends the loop: a detach, or a switch to another window if there is one. -/
def ends (server : AttachServer) (effects : List AttachEffect) : ReassembledOutput UInt8 → Bool
  | .action .detach => true
  | .action .nextWindow => (server.adjacent (effects ++ [.action .nextWindow]) true).isSome
  | .action .prevWindow => (server.adjacent (effects ++ [.action .prevWindow]) false).isSome
  | _ => false

def isEnter : ReassembledOutput UInt8 → Bool
  | .action .enterCopyMode => true
  | _ => false

/-- Among these outputs is the action that enters copy mode, and none before it ends the loop. -/
def asksForCopyMode (server : AttachServer) (effects : List AttachEffect) :
    List (ReassembledOutput UInt8) → Bool
  | [] => false
  | out :: outs =>
    isEnter out || (!ends server effects out &&
      asksForCopyMode server (effects ++ [effectOf out]) outs)

/-- Nothing comes after the key with which the reassembler enters copy mode. -/
def NothingAfterCopyMode (server : AttachServer) (config : TymuxConfig) (stream : List UInt8) :
    Prop :=
  asksForCopyMode server [] ((KeystrokeReassembler.new config).process id stream.dropLast).2 = false

/-- The key that enters or leaves copy mode is the last of the read. -/
def TidyRead (server : AttachServer) (s : AttachLoop) (read : List UInt8) : Prop :=
  ∀ before after, read = before ++ after → after ≠ [] →
    match s.copyMode with
    | some cs => (cs.handleBytes false before).shouldExit = false
    | none => asksForCopyMode server s.effects (s.reassembler.process id before).2 = false

/-- The loop after a read that does not end it. -/
def goesOn (server : AttachServer) (s : AttachLoop) (read : List UInt8) : Option AttachLoop :=
  (s.stdin server read).toOption

def Tidy (server : AttachServer) (config : TymuxConfig) (cut : List (List UInt8)) : Prop :=
  Along (goesOn server) (TidyRead server) (new config) cut

section

variable {server : AttachServer} {s s' : AttachLoop}

/-! ## Performing the outputs -/

theorem perform_reassembler (s : AttachLoop) (r : KeystrokeReassembler UInt8)
    (out : ReassembledOutput UInt8) :
    perform server { s with reassembler := r } out =
      (perform server s out).map fun t => { t with reassembler := r } := by
  cases out with
  | forward bytes => rfl
  | action action =>
      cases action with
      | enterCopyMode =>
          simp only [perform, does]
          cases server.capture (s.effects ++ [.action .enterCopyMode]) 0 with
          | none => rfl
          | some size => rfl
      | nextWindow =>
          simp only [perform, does, switchWindow]
          cases server.adjacent (s.effects ++ [.action .nextWindow]) true with
          | none => rfl
          | some pane => rfl
      | prevWindow =>
          simp only [perform, does, switchWindow]
          cases server.adjacent (s.effects ++ [.action .prevWindow]) false with
          | none => rfl
          | some pane => rfl
      | _ => rfl

theorem performAll_reassembler (s : AttachLoop) (r : KeystrokeReassembler UInt8)
    (outs : List (ReassembledOutput UInt8)) :
    outs.foldlM (perform server) { s with reassembler := r } =
      (outs.foldlM (perform server) s).map fun t => { t with reassembler := r } := by
  induction outs generalizing s with
  | nil => rfl
  | cons out outs ih =>
      rw [List.foldlM_cons, List.foldlM_cons, perform_reassembler]
      cases perform server s out with
      | error ended => rfl
      | ok t => exact ih t

/-- INTERNAL: what performing an output that does not end the loop comes to.
SRC: main.rs:1215-1303 -/
theorem perform_eq_ok {out : ReassembledOutput UInt8} (h : perform server s out = .ok s') :
    s'.reassembler = s.reassembler ∧ s'.effects = s.effects ++ [effectOf out] ∧
      ends server s.effects out = false ∧ (isEnter out = false → s'.copyMode = s.copyMode) := by
  cases out with
  | forward bytes =>
      cases h
      exact ⟨rfl, rfl, rfl, fun _ => rfl⟩
  | action action =>
      cases action with
      | detach => cases h
      | enterCopyMode =>
          simp only [perform, does] at h
          cases hsize : server.capture (s.effects ++ [.action .enterCopyMode]) 0 with
          | none =>
              rw [hsize] at h
              cases h
              exact ⟨rfl, rfl, rfl, nofun⟩
          | some size =>
              rw [hsize] at h
              cases h
              exact ⟨rfl, rfl, rfl, nofun⟩
      | nextWindow =>
          simp only [perform, does, switchWindow] at h
          cases hpane : server.adjacent (s.effects ++ [.action .nextWindow]) true with
          | none =>
              rw [hpane] at h
              cases h
              exact ⟨rfl, rfl, by simp [ends, hpane], fun _ => rfl⟩
          | some pane =>
              rw [hpane] at h
              cases h
      | prevWindow =>
          simp only [perform, does, switchWindow] at h
          cases hpane : server.adjacent (s.effects ++ [.action .prevWindow]) false with
          | none =>
              rw [hpane] at h
              cases h
              exact ⟨rfl, rfl, by simp [ends, hpane], fun _ => rfl⟩
          | some pane =>
              rw [hpane] at h
              cases h
      | _ =>
          cases h
          exact ⟨rfl, rfl, rfl, fun _ => rfl⟩

theorem ends_of_perform_eq_error {out : ReassembledOutput UInt8} {ended : AttachEnd}
    (h : perform server s out = .error ended) : ends server s.effects out = true := by
  cases out with
  | forward bytes => cases h
  | action action =>
      cases action with
      | detach => rfl
      | enterCopyMode =>
          simp only [perform, does] at h
          cases hsize : server.capture (s.effects ++ [.action .enterCopyMode]) 0 with
          | none =>
              rw [hsize] at h
              cases h
          | some size =>
              rw [hsize] at h
              cases h
      | nextWindow =>
          simp only [perform, does, switchWindow] at h
          cases hpane : server.adjacent (s.effects ++ [.action .nextWindow]) true with
          | none =>
              rw [hpane] at h
              cases h
          | some pane => simp [ends, hpane]
      | prevWindow =>
          simp only [perform, does, switchWindow] at h
          cases hpane : server.adjacent (s.effects ++ [.action .prevWindow]) false with
          | none =>
              rw [hpane] at h
              cases h
          | some pane => simp [ends, hpane]
      | _ => cases h

theorem performAll_eq_ok {outs : List (ReassembledOutput UInt8)}
    (h : outs.foldlM (perform server) s = .ok s') :
    s'.reassembler = s.reassembler ∧ s'.effects = s.effects ++ outs.map effectOf ∧
      (asksForCopyMode server s.effects outs = false → s'.copyMode = s.copyMode) := by
  induction outs generalizing s with
  | nil =>
      cases h
      exact ⟨rfl, (List.append_nil _).symm, fun _ => rfl⟩
  | cons out outs ih =>
      rw [List.foldlM_cons] at h
      cases hout : perform server s out with
      | error ended =>
          rw [hout] at h
          cases h
      | ok t =>
          rw [hout] at h
          obtain ⟨hreassembler, heffects, hends, hmode⟩ := perform_eq_ok hout
          obtain ⟨hreassembler', heffects', hmode'⟩ := ih h
          refine ⟨hreassembler'.trans hreassembler, ?_, ?_⟩
          · rw [heffects', heffects, List.append_assoc]
            rfl
          · intro hasks
            simp only [asksForCopyMode, Bool.or_eq_false_iff, hends, Bool.not_false,
              Bool.true_and] at hasks
            rw [← heffects] at hasks
            rw [hmode' hasks.2, hmode hasks.1]

theorem asksForCopyMode_append {outs : List (ReassembledOutput UInt8)} {t : AttachLoop}
    (h : outs.foldlM (perform server) s = .ok t) (outs' : List (ReassembledOutput UInt8)) :
    asksForCopyMode server s.effects (outs ++ outs') =
      (asksForCopyMode server s.effects outs || asksForCopyMode server t.effects outs') := by
  induction outs generalizing s with
  | nil =>
      cases h
      rfl
  | cons out outs ih =>
      rw [List.foldlM_cons] at h
      cases hout : perform server s out with
      | error ended =>
          rw [hout] at h
          cases h
      | ok s₁ =>
          rw [hout] at h
          obtain ⟨-, heffects, hends, -⟩ := perform_eq_ok hout
          simp only [List.cons_append, asksForCopyMode, hends, Bool.not_false, Bool.true_and]
          rw [← heffects, ih h, Bool.or_assoc]

theorem asksForCopyMode_of_error {outs : List (ReassembledOutput UInt8)} {ended : AttachEnd}
    (h : outs.foldlM (perform server) s = .error ended) (outs' : List (ReassembledOutput UInt8)) :
    asksForCopyMode server s.effects (outs ++ outs') = asksForCopyMode server s.effects outs := by
  induction outs generalizing s with
  | nil => cases h
  | cons out outs ih =>
      rw [List.foldlM_cons] at h
      cases hout : perform server s out with
      | error ended' =>
          simp only [List.cons_append, asksForCopyMode, ends_of_perform_eq_error hout,
            Bool.not_true, Bool.false_and]
      | ok s₁ =>
          rw [hout] at h
          obtain ⟨-, heffects, -, -⟩ := perform_eq_ok hout
          simp only [List.cons_append, asksForCopyMode]
          rw [← heffects, ih h]

theorem asksForCopyMode_of_append {outs outs' : List (ReassembledOutput UInt8)}
    {effects : List AttachEffect} (h : asksForCopyMode server effects (outs ++ outs') = false) :
    asksForCopyMode server effects outs = false := by
  induction outs generalizing effects with
  | nil => rfl
  | cons out outs ih =>
      simp only [List.cons_append, asksForCopyMode, Bool.or_eq_false_iff,
        Bool.and_eq_false_iff] at h ⊢
      exact ⟨h.1, h.2.imp_right ih⟩

/-! ## A read that is reassembled -/

theorem reassemble_eq (s : AttachLoop) (read : List UInt8) :
    s.reassemble server read = (((s.reassembler.process id read).2.foldlM (perform server) s).map
      fun t => { t with reassembler := (s.reassembler.process id read).1 }) :=
  performAll_reassembler s _ _

/-- INTERNAL: where a read is cut does not matter to the reassembler.
SRC: main.rs:1214-1305 -/
theorem reassemble_append (s : AttachLoop) (read read' : List UInt8) :
    s.reassemble server (read ++ read') =
      s.reassemble server read >>= fun t => t.reassemble server read' := by
  rw [reassemble_eq s (read ++ read'), reassemble_eq s read, KeystrokeReassembler.process_concat,
    List.foldlM_append]
  cases (s.reassembler.process id read).2.foldlM (perform server) s with
  | error ended => rfl
  | ok t => exact (performAll_reassembler t _ _).symm

theorem reassemble_eq_ok {read : List UInt8} (h : s.reassemble server read = .ok s') :
    (asksForCopyMode server s.effects (s.reassembler.process id read).2 = false →
        s'.copyMode = s.copyMode) ∧
      ∀ read', asksForCopyMode server s.effects (s.reassembler.process id (read ++ read')).2 =
        (asksForCopyMode server s.effects (s.reassembler.process id read).2 ||
          asksForCopyMode server s'.effects (s'.reassembler.process id read').2) := by
  rw [reassemble_eq] at h
  cases houts : (s.reassembler.process id read).2.foldlM (perform server) s with
  | error ended =>
      rw [houts] at h
      cases h
  | ok t =>
      rw [houts] at h
      cases h
      refine ⟨(performAll_eq_ok houts).2.2, fun read' => ?_⟩
      rw [KeystrokeReassembler.process_concat]
      exact asksForCopyMode_append houts _

theorem asks_process_of_error {read : List UInt8} {ended : AttachEnd}
    (h : s.reassemble server read = .error ended) (read' : List UInt8) :
    asksForCopyMode server s.effects (s.reassembler.process id (read ++ read')).2 =
      asksForCopyMode server s.effects (s.reassembler.process id read).2 := by
  rw [reassemble_eq] at h
  cases houts : (s.reassembler.process id read).2.foldlM (perform server) s with
  | error ended' =>
      rw [KeystrokeReassembler.process_concat]
      exact asksForCopyMode_of_error houts _
  | ok t =>
      rw [houts] at h
      cases h

theorem stdin_of_copyMode_eq_none (h : s.copyMode = none) (read : List UInt8) :
    s.stdin server read = s.reassemble server read := by
  unfold stdin
  rw [h]

theorem goesOn_eq_some {read : List UInt8} (h : s.stdin server read = .ok s') :
    goesOn server s read = some s' := by
  unfold goesOn
  rw [h]
  rfl

theorem eq_ok_of_goesOn {read : List UInt8} (h : goesOn server s read = some s') :
    s.stdin server read = .ok s' := by
  unfold goesOn at h
  cases hread : s.stdin server read with
  | error ended =>
      rw [hread] at h
      cases h
  | ok t =>
      rw [hread] at h
      cases h
      rfl

theorem reads_cons (s : AttachLoop) (read : List UInt8) (cut : List (List UInt8)) :
    s.reads server (read :: cut) = s.stdin server read >>= fun t => t.reads server cut :=
  List.foldlM_cons ..

theorem reads_append (s : AttachLoop) (cut cut' : List (List UInt8)) :
    s.reads server (cut ++ cut') = s.reads server cut >>= fun t => t.reads server cut' :=
  List.foldlM_append ..

theorem reads_singleton (s : AttachLoop) (read : List UInt8) :
    s.reads server [read] = s.stdin server read := by
  rw [reads_cons]
  cases s.stdin server read with
  | error ended => rfl
  | ok t => rfl

/-! ## Tidy reads -/

/-- INTERNAL: a read that copy mode gets is handled byte by byte, up to its end.
SRC: main.rs:1149-1166 -/
theorem handleBytes_cons {cs : CopyModeState} {redraw : Bool} {b : UInt8} {bytes : List UInt8}
    (h : (cs.handleBytes redraw [b]).shouldExit = false) :
    (cs.handleBytes redraw [b]).yankRange = none ∧
      cs.handleBytes redraw (b :: bytes) = (cs.handleBytes redraw [b]).state.handleBytes
        (cs.handleBytes redraw [b]).shouldRedraw bytes := by
  simp only [CopyModeState.handleBytes] at h ⊢
  cases hevent : cs.handleByte b with
  | mk cs' event =>
      rw [hevent] at h
      cases event with
      | exit => cases h
      | yanked => cases h
      | redraw => exact ⟨rfl, rfl⟩
      | consumed => exact ⟨rfl, rfl⟩

theorem afterCopyMode_of_not_exit (hcapture : ∀ effects offset,
    (server.capture effects offset).isSome = true) (s : AttachLoop) (read : CopyModeRead)
    (hexit : read.shouldExit = false) (hyank : read.yankRange = none) :
    s.afterCopyMode server read = .ok { s with copyMode := some read.state } := by
  unfold afterCopyMode
  rw [hyank]
  dsimp only
  rw [hexit, if_neg Bool.false_ne_true, if_neg]
  rintro ⟨-, hnone⟩
  rw [Option.isNone_iff_eq_none] at hnone
  have hsome := hcapture s.effects read.state.scrollbackOffset
  rw [hnone] at hsome
  cases hsome

theorem handleBytes_redraw (cs : CopyModeState) (redraw : Bool) (bytes : List UInt8) :
    (cs.handleBytes redraw bytes).state = (cs.handleBytes false bytes).state ∧
      (cs.handleBytes redraw bytes).shouldExit = (cs.handleBytes false bytes).shouldExit ∧
      (cs.handleBytes redraw bytes).yankRange = (cs.handleBytes false bytes).yankRange := by
  induction bytes generalizing cs redraw with
  | nil => exact ⟨rfl, rfl, rfl⟩
  | cons b bytes ih =>
      simp only [CopyModeState.handleBytes]
      cases cs.handleByte b with
      | mk cs' event =>
          cases event with
          | exit => exact ⟨rfl, rfl, rfl⟩
          | yanked => exact ⟨rfl, rfl, rfl⟩
          | redraw => exact ⟨rfl, rfl, rfl⟩
          | consumed => exact ih cs' redraw

/-- With captures that succeed, only painting depends on whether to redraw. -/
theorem afterCopyMode_congr (hcapture : ∀ effects offset,
    (server.capture effects offset).isSome = true) (cs : CopyModeState) (redraw : Bool)
    (bytes : List UInt8) : s.afterCopyMode server (cs.handleBytes redraw bytes) =
      s.afterCopyMode server (cs.handleBytes false bytes) := by
  obtain ⟨hstate, hexit, hyank⟩ := handleBytes_redraw cs redraw bytes
  have hnever : ∀ (effects : List AttachEffect) (offset : ℕ),
      (server.capture effects offset).isNone = false := by
    intro effects offset
    rw [← Option.not_isSome, hcapture]
    rfl
  unfold afterCopyMode
  simp only [hstate, hexit, hyank, hnever, Bool.false_eq_true, and_false, if_false]

theorem afterCopyMode_copyMode (s : AttachLoop) (mode : Option CopyModeState)
    (read : CopyModeRead) :
    AttachLoop.afterCopyMode server { s with copyMode := mode } read =
      s.afterCopyMode server read := by
  obtain ⟨state, shouldRedraw, shouldExit, yankRange⟩ := read
  cases yankRange with
  | none => rfl
  | some range => rfl

theorem stdin_nil (hcapture : ∀ effects offset, (server.capture effects offset).isSome = true)
    (s : AttachLoop) : s.stdin server [] = .ok s := by
  obtain ⟨reassembler, copyMode, effects⟩ := s
  cases copyMode with
  | none => rfl
  | some cs => exact afterCopyMode_of_not_exit hcapture _ (cs.handleBytes false []) rfl rfl

/-- INTERNAL: the first byte of a tidy read may be read on its own.
SRC: main.rs:1139-1305 -/
theorem stdin_cons (hcapture : ∀ effects offset, (server.capture effects offset).isSome = true)
    {b : UInt8} {bytes : List UInt8} (htidy : TidyRead server s (b :: bytes)) :
    (s.stdin server (b :: bytes) = s.stdin server [b] >>= fun t => t.stdin server bytes) ∧
      ∀ t, s.stdin server [b] = .ok t → TidyRead server t bytes := by
  cases bytes with
  | nil =>
      refine ⟨?_, ?_⟩
      · cases hb : s.stdin server [b] with
        | error ended => rfl
        | ok t =>
            exact (stdin_nil hcapture t).symm
      · intro t _ before after hnil hafter
        exact absurd (List.append_eq_nil_iff.mp hnil.symm).2 hafter
  | cons b' bytes =>
      have hfirst := htidy [b] (b' :: bytes) rfl (List.cons_ne_nil _ _)
      cases hmode : s.copyMode with
      | none =>
          rw [hmode] at hfirst
          have hkept : ∀ t, s.stdin server [b] = .ok t → t.copyMode = none := by
            intro t ht
            rw [stdin_of_copyMode_eq_none hmode] at ht
            rw [(reassemble_eq_ok ht).1 hfirst, hmode]
          refine ⟨?_, ?_⟩
          · rw [stdin_of_copyMode_eq_none hmode, ← List.singleton_append, reassemble_append,
              ← stdin_of_copyMode_eq_none hmode]
            cases hb : s.stdin server [b] with
            | error ended => rfl
            | ok t =>
                change t.reassemble server (b' :: bytes) = t.stdin server (b' :: bytes)
                rw [stdin_of_copyMode_eq_none (hkept t hb)]
          · intro t ht before after hread hafter
            have hwhole := htidy (b :: before) after (by rw [hread]; rfl) hafter
            rw [hmode] at hwhole
            rw [hkept t ht]
            rw [stdin_of_copyMode_eq_none hmode] at ht
            have hsplit := (reassemble_eq_ok ht).2 before
            rw [List.singleton_append, hwhole] at hsplit
            exact (Bool.or_eq_false_iff.mp hsplit.symm).2
      | some cs =>
          rw [hmode] at hfirst
          have hstate : s.stdin server [b] =
              .ok { s with copyMode := some (cs.handleBytes false [b]).state } := by
            unfold stdin
            rw [hmode]
            exact afterCopyMode_of_not_exit hcapture s _ hfirst
              (@handleBytes_cons cs false b [] hfirst).1
          rw [hstate]
          refine ⟨?_, ?_⟩
          · change s.stdin server (b :: b' :: bytes) =
              AttachLoop.stdin server { s with copyMode := some (cs.handleBytes false [b]).state }
                (b' :: bytes)
            unfold stdin
            rw [hmode]
            dsimp only
            rw [(handleBytes_cons hfirst).2, afterCopyMode_congr hcapture]
            exact (afterCopyMode_copyMode s _ _).symm
          · intro t ht before after hread hafter
            cases ht
            have hwhole := htidy (b :: before) after (by rw [hread]; rfl) hafter
            rw [hmode] at hwhole
            dsimp only at hwhole ⊢
            rw [(handleBytes_cons hfirst).2, (handleBytes_redraw _ _ _).2.1] at hwhole
            exact hwhole

/-- The bytes of a read, one by one. -/
def bytewise (read : List UInt8) : List (List UInt8) := read.map fun b => [b]

theorem bytewise_append (read read' : List UInt8) :
    bytewise (read ++ read') = bytewise read ++ bytewise read' := List.map_append ..

theorem stdin_eq_bytewise (hcapture : ∀ effects offset,
    (server.capture effects offset).isSome = true) {read : List UInt8}
    (htidy : TidyRead server s read) : s.stdin server read = s.reads server (bytewise read) := by
  induction read generalizing s with
  | nil => exact stdin_nil hcapture s
  | cons b bytes ih =>
      obtain ⟨hcons, hrest⟩ := stdin_cons hcapture htidy
      change _ = s.reads server ([b] :: bytewise bytes)
      rw [reads_cons, hcons]
      cases hb : s.stdin server [b] with
      | error ended => rfl
      | ok t => exact ih (hrest t hb)

/-- INTERNAL: tidy reads come to what the bytes come to one by one.
SRC: main.rs:1139-1305 -/
theorem reads_eq_bytewise (hcapture : ∀ effects offset,
    (server.capture effects offset).isSome = true) {cut : List (List UInt8)}
    (htidy : Along (goesOn server) (TidyRead server) s cut) :
    s.reads server cut = s.reads server (bytewise cut.flatten) := by
  induction cut generalizing s with
  | nil => rfl
  | cons read cut ih =>
      have hread := stdin_eq_bytewise hcapture htidy.1
      rw [List.flatten_cons, bytewise_append, reads_append, reads_cons, ← hread]
      cases hnext : s.stdin server read with
      | error ended => rfl
      | ok t => exact ih (htidy.2 t (goesOn_eq_some hnext))

/-- INTERNAL: where a read is tidy, what comes in copy mode is not reassembled.
SRC: main.rs:1142-1212 -/
theorem copyMode_of_tidy {before after : List UInt8} (htidy : TidyRead server s (before ++ after))
    (hafter : after ≠ []) {t : AttachLoop} (ht : s.stdin server before = .ok t)
    (hmode : t.copyMode.isSome = true) : ¬ ReachesReassembler s := by
  intro hnone
  have hasks := htidy before after rfl hafter
  rw [hnone] at hasks
  rw [stdin_of_copyMode_eq_none hnone] at ht
  rw [(reassemble_eq_ok ht).1 hasks, hnone] at hmode
  cases hmode

theorem along_append {cut cut' : List (List UInt8)} {t : AttachLoop}
    (h : Along (goesOn server) (TidyRead server) s (cut ++ cut'))
    (ht : s.reads server cut = .ok t) :
    Along (goesOn server) (TidyRead server) t cut' := by
  induction cut generalizing s with
  | nil =>
      cases ht
      exact h
  | cons read cut ih =>
      rw [reads_cons] at ht
      cases hread : s.stdin server read with
      | error ended =>
          rw [hread] at ht
          cases ht
      | ok s₁ =>
          rw [hread] at ht
          exact ih (h.2 s₁ (goesOn_eq_some hread)) ht

theorem copyModeOwnsKeys_of_tidy {config : TymuxConfig} {cut : List (List UInt8)}
    (htidy : Tidy server config cut) : CopyModeOwnsKeys server config cut := by
  rintro earlier read later before b after s t rfl rfl hs ht hmode
  have hread : s.reads server [before] = .ok t := by
    rw [reads_append, hs] at ht
    exact ht
  rw [reads_singleton] at hread
  exact copyMode_of_tidy (along_append htidy hs).1 (List.cons_ne_nil _ _) hread hmode

/-! ## Where nothing comes after copy mode is entered, every cut is tidy -/

theorem along_tidyRead {cut : List (List UInt8)} (hnonempty : ∀ read ∈ cut, read ≠ [])
    (hmode : s.copyMode = none)
    (hasks : asksForCopyMode server s.effects
      (s.reassembler.process id cut.flatten.dropLast).2 = false) :
    Along (goesOn server) (TidyRead server) s cut := by
  induction cut generalizing s with
  | nil => trivial
  | cons read cut ih =>
      rw [List.forall_mem_cons] at hnonempty
      rw [List.flatten_cons] at hasks
      refine ⟨?_, fun t ht => ?_⟩
      · intro before after hread hafter
        rw [hmode]
        have hrest : after ++ cut.flatten ≠ [] := List.append_ne_nil_of_left_ne_nil hafter _
        rw [hread, List.append_assoc, List.dropLast_append_of_ne_nil hrest,
          KeystrokeReassembler.process_concat] at hasks
        exact asksForCopyMode_of_append hasks
      · cases cut with
        | nil => trivial
        | cons read' cut =>
            have hrest : (read' :: cut).flatten ≠ [] := by
              rw [List.flatten_cons]
              exact List.append_ne_nil_of_left_ne_nil (hnonempty.2 read' List.mem_cons_self) _
            have hread : s.reassemble server read = .ok t := by
              rw [← stdin_of_copyMode_eq_none hmode]
              exact eq_ok_of_goesOn ht
            obtain ⟨hkept, hsplit⟩ := reassemble_eq_ok hread
            rw [List.dropLast_append_of_ne_nil hrest, hsplit, Bool.or_eq_false_iff] at hasks
            exact ih hnonempty.2 ((hkept hasks.1).trans hmode) hasks.2

/-! ## A byte after copy mode is entered -/

theorem processByte_outputs (r : KeystrokeReassembler UInt8) (b : UInt8) :
    (r.processByte id b).2 = [] ∨ ∃ out, (r.processByte id b).2 = [out] := by
  unfold KeystrokeReassembler.processByte
  cases r.scan with
  | normal =>
      dsimp only
      split
      · exact Or.inl rfl
      · unfold KeystrokeReassembler.handleNormalByte
        cases r.armed with
        | none =>
            dsimp only
            split
            · exact Or.inl rfl
            · exact Or.inr ⟨_, rfl⟩
        | some armed =>
            dsimp only
            split
            · exact Or.inr ⟨_, rfl⟩
            · split
              · exact Or.inr ⟨_, rfl⟩
              · exact Or.inr ⟨_, rfl⟩
  | matchingPasteStart buf =>
      dsimp only
      split
      · exact Or.inl rfl
      · split
        · exact Or.inl rfl
        · exact Or.inr ⟨_, rfl⟩
  | inPaste buf =>
      dsimp only
      split
      · split
        · exact Or.inl rfl
        · exact Or.inr ⟨_, rfl⟩
      · split
        · exact Or.inr ⟨_, rfl⟩
        · exact Or.inl rfl

/-- INTERNAL: the key that enters copy mode, on its own.
SRC: main.rs:1233-1243 -/
theorem reassemble_key (hcapture : ∀ effects offset,
    (server.capture effects offset).isSome = true) (s : AttachLoop) (b : UInt8)
    (h : asksForCopyMode server s.effects (s.reassembler.process id [b]).2 = true) :
    ∃ t, s.reassemble server [b] = .ok t ∧ t.copyMode.isSome = true := by
  have hsingle : (s.reassembler.process id [b]).2 = (s.reassembler.processByte id b).2 :=
    List.append_nil _
  rw [hsingle] at h
  rw [reassemble_eq, hsingle]
  obtain hnone | ⟨out, hout⟩ := processByte_outputs s.reassembler b
  · rw [hnone] at h
    cases h
  · rw [hout] at h ⊢
    simp only [asksForCopyMode, Bool.and_false, Bool.or_false] at h
    cases out with
    | forward bytes => cases h
    | action action =>
        cases action with
        | enterCopyMode =>
            obtain ⟨size, hsize⟩ := Option.isSome_iff_exists.mp
              (hcapture (s.effects ++ [.action .enterCopyMode]) 0)
            simp only [List.foldlM_cons, List.foldlM_nil, perform, does, hsize]
            exact ⟨_, rfl, rfl⟩
        | _ => cases h

/-- INTERNAL: before that key, copy mode is off however often the loop has read.
SRC: main.rs:1233-1243 -/
theorem enters_of_asks (hcapture : ∀ effects offset,
    (server.capture effects offset).isSome = true) {stream : List UInt8} (hmode : s.copyMode = none)
    (hasks : asksForCopyMode server s.effects
      (s.reassembler.process id stream.dropLast).2 = true) :
    ∃ earlier b b' later s₁ s₂, stream = earlier ++ b :: b' :: later ∧
      s.reads server (bytewise earlier) = .ok s₁ ∧ ReachesReassembler s₁ ∧
      s₁.stdin server [b] = .ok s₂ ∧ s₂.copyMode.isSome = true := by
  induction stream generalizing s with
  | nil => cases hasks
  | cons b stream ih =>
      cases stream with
      | nil => cases hasks
      | cons b' later =>
          cases hfirst : asksForCopyMode server s.effects (s.reassembler.process id [b]).2 with
          | true =>
              obtain ⟨t, ht, hon⟩ := reassemble_key hcapture s b hfirst
              rw [← stdin_of_copyMode_eq_none hmode] at ht
              exact ⟨[], b, b', later, s, t, rfl, rfl, hmode, ht, hon⟩
          | false =>
              cases ht : s.reassemble server [b] with
              | error ended =>
                  have hsame : asksForCopyMode server s.effects
                      (s.reassembler.process id (b :: (b' :: later).dropLast)).2 =
                        asksForCopyMode server s.effects (s.reassembler.process id [b]).2 :=
                    asks_process_of_error ht _
                  rw [hfirst] at hsame
                  exact absurd (hsame.symm.trans hasks) Bool.false_ne_true
              | ok t =>
                  obtain ⟨hkept, hsplit⟩ := reassemble_eq_ok ht
                  have hrest := hsplit (b' :: later).dropLast
                  rw [hfirst, Bool.false_or] at hrest
                  obtain ⟨earlier, c, c', later', s₁, s₂, heq, hs₁, hnone, hs₂, hon⟩ :=
                    ih ((hkept hfirst).trans hmode) (hrest.symm.trans hasks)
                  refine ⟨b :: earlier, c, c', later', s₁, s₂, ?_, ?_, hnone, hs₂, hon⟩
                  · rw [heq]
                    rfl
                  · change s.reads server ([b] :: bytewise earlier) = _
                    rw [reads_cons, stdin_of_copyMode_eq_none hmode, ht]
                    exact hs₁

/-! ## The law -/

theorem cut_bytewise (stream : List UInt8) : Cut stream (bytewise stream) := by
  refine ⟨?_, ?_⟩
  · unfold bytewise
    rw [← List.flatMap_def, List.flatMap_singleton']
  · intro read hread
    obtain ⟨b, -, rfl⟩ := List.mem_map.mp hread
    exact ⟨List.cons_ne_nil _ _, by simp⟩

/-- Reads may be cut anywhere, for any server that captures, if and only if nothing comes after the
key that enters copy mode; and two tidy cuts of a stream always come to the same. -/
theorem boundaries_do_not_matter_iff (server : AttachServer)
    (hcapture : ∀ effects offset, (server.capture effects offset).isSome = true)
    (config : TymuxConfig) (stream : List UInt8) :
    (BoundariesDoNotMatter server config stream ↔ NothingAfterCopyMode server config stream) ∧
      ∀ cut cut', Cut stream cut → Cut stream cut' → Tidy server config cut →
        Tidy server config cut' →
          (new config).reads server cut = (new config).reads server cut' ∧
            CopyModeOwnsKeys server config cut := by
  have htidy : ∀ cut cut', Cut stream cut → Cut stream cut' → Tidy server config cut →
      Tidy server config cut' → (new config).reads server cut = (new config).reads server cut' ∧
        CopyModeOwnsKeys server config cut := by
    intro cut cut' hcut hcut' hkeys hkeys'
    refine ⟨?_, copyModeOwnsKeys_of_tidy hkeys⟩
    rw [reads_eq_bytewise hcapture hkeys, reads_eq_bytewise hcapture hkeys', hcut.whole,
      hcut'.whole]
  refine ⟨⟨?_, ?_⟩, htidy⟩
  · intro hboundaries
    by_contra hasks
    rw [NothingAfterCopyMode, Bool.not_eq_false] at hasks
    obtain ⟨earlier, b, b', later, s, t, rfl, hs, hreaches, ht, hon⟩ :=
      enters_of_asks hcapture (s := new config) rfl hasks
    have hcut : Cut (earlier ++ b :: b' :: later)
        (bytewise earlier ++ [b, b'] :: bytewise later) := by
      refine ⟨?_, ?_⟩
      · rw [List.flatten_append, List.flatten_cons, (cut_bytewise earlier).whole,
          (cut_bytewise later).whole]
        rfl
      · intro read hread
        rw [List.mem_append, List.mem_cons] at hread
        obtain hearlier | rfl | hlater := hread
        · exact (cut_bytewise earlier).sizes read hearlier
        · exact ⟨List.cons_ne_nil _ _, by simp⟩
        · exact (cut_bytewise later).sizes read hlater
    have howns := (hboundaries _ _ hcut hcut).2.2
    refine howns (bytewise earlier) [b, b'] (bytewise later) [b] b' [] s t rfl rfl hs ?_ hon
      hreaches
    rw [reads_append, hs]
    exact (reads_singleton s [b]).trans ht
  · intro hnothing cut cut' hcut hcut'
    have hall : ∀ cut, Cut stream cut → Tidy server config cut := by
      intro cut hcut
      refine along_tidyRead (fun read hread => (hcut.sizes read hread).1) rfl ?_
      rw [hcut.whole]
      exact hnothing
    obtain ⟨hsame, howns⟩ := htidy cut cut' hcut hcut' (hall cut hcut) (hall cut' hcut')
    rw [hsame]
    exact ⟨rfl, rfl, howns⟩

end

/-! ## Two streams -/

/-- A server with one window, whose captures succeed. -/
def capturing : AttachServer where
  capture _ _ := some (24, 80)
  adjacent _ _ := none

/-- The bindings of two actions, as the source has them by default.
SRC: config.rs:55-56 -/
def copyModeConfig : TymuxConfig where
  leader := "C-b"
  bindings :=
    [⟨[⟨'b', true⟩, ⟨'d', false⟩], .detach⟩, ⟨[⟨'b', true⟩, ⟨'[', false⟩], .enterCopyMode⟩]

/-- `l`, `s`, and then `C-b [`. -/
theorem boundaries_do_not_matter_last :
    BoundariesDoNotMatter capturing copyModeConfig [0x6c, 0x73, 0x02, 0x5b] :=
  (boundaries_do_not_matter_iff capturing (fun _ _ => rfl) copyModeConfig _).1.mpr
    (by unfold NothingAfterCopyMode; decide +kernel)

/-- `C-b [ q x`, read at once, forwards `q` and `x`; byte by byte, `q` leaves copy mode. -/
theorem copyMode_in_one_read :
    ¬ BoundariesDoNotMatter capturing copyModeConfig [0x02, 0x5b, 0x71, 0x78] := by
  intro h
  have honce : Cut [0x02, 0x5b, 0x71, 0x78] [[0x02, 0x5b, 0x71, 0x78]] := ⟨rfl, by decide⟩
  have hinput := (h _ _ honce (cut_bytewise _)).1
  have hdiffer : inputBytes (attachEffects ((new copyModeConfig).reads capturing
      [[0x02, 0x5b, 0x71, 0x78]])) ≠ inputBytes (attachEffects ((new copyModeConfig).reads capturing
        (bytewise [0x02, 0x5b, 0x71, 0x78]))) := by
    decide +kernel
  exact hdiffer hinput

end Tymux.Analysis.ReadBoundaries
