import Tymux.Model.Input
import Mathlib.Data.List.Induction
import Mathlib.Data.List.Nodup

/-!
# Order and conservation of keystrokes

Bytes are held back in two places: an armed leader waits for its follow-up key, and the paste
scanner holds a possible marker. The scanner sits in front of the bindings, so what it holds
is always newer than the armed leader. As long as it holds, nothing is reordered; but when it
gives bytes up while a leader is armed, these overtake the leader. `stepOvertakes` is exactly
that step, and a stream keeps its order and loses nothing but markers, fired bindings and one
byte of each doubled leader, at every point, if and only if no such step occurs
(`keystrokes_conserved_iff`).
-/

set_option autoImplicit false

namespace Tymux.Analysis

open Tymux.Model KeystrokeReassembler

section Bytes

variable {β : Type*}

/-- The bytes that the outputs forward to the pty, in order. -/
def forwarded (out : List (ReassembledOutput β)) : List β :=
  out.flatMap fun
    | .forward bytes => bytes
    | .action _ => []

@[simp] theorem forwarded_nil : forwarded ([] : List (ReassembledOutput β)) = [] := rfl

@[simp] theorem forwarded_forward (bytes : List β) : forwarded [.forward bytes] = bytes := by
  simp [forwarded]

@[simp] theorem forwarded_action (a : Action) :
    forwarded ([.action a] : List (ReassembledOutput β)) = [] := rfl

@[simp] theorem forwarded_append (out out' : List (ReassembledOutput β)) :
    forwarded (out ++ out') = forwarded out ++ forwarded out' := by
  simp [forwarded]

/-- What the scanner holds. -/
def scanBuffer : ScanState β → List β
  | .normal => []
  | .matchingPasteStart buf => buf
  | .inPaste buf => buf

/-- The bytes of the armed leader. -/
def armedBytes (r : KeystrokeReassembler β) : List β := (r.armed.map Prod.fst).getD []

/-- The bytes still held: the armed leader, then what the scanner holds. -/
def pending (r : KeystrokeReassembler β) : List β := armedBytes r ++ scanBuffer r.scan

variable (val : β → UInt8)

/-- The bytes that a step discards: a recognised marker, both bytes of a fired binding, the
first byte of a doubled leader. -/
def dropped (r : KeystrokeReassembler β) (b : β) : List β :=
  match r.scan with
  | .normal =>
    if val b = 0x1b then [] else
      match r.armed with
      | none => []
      | some (bytes, armedKey) =>
        if classifyByte (val b) = armedKey then bytes
        else if (r.findBinding armedKey (classifyByte (val b))).isSome then bytes ++ [b] else []
  | .matchingPasteStart buf => if (buf ++ [b]).map val = pasteStart then buf ++ [b] else []
  | .inPaste buf =>
    if pasteEnd.isSuffixOf ((buf ++ [b]).map val) then
      (buf ++ [b]).drop ((buf ++ [b]).length - pasteEnd.length)
    else []

/-- What the scanner gives up to the pty at `b`. -/
def released (scan : ScanState β) (b : β) : List β :=
  match scan with
  | .normal => []
  | .matchingPasteStart buf =>
    if ((buf ++ [b]).map val).isPrefixOf pasteStart then [] else buf ++ [b]
  | .inPaste buf =>
    if pasteEnd.isSuffixOf ((buf ++ [b]).map val) then
      (buf ++ [b]).take ((buf ++ [b]).length - pasteEnd.length)
    else if pasteEnd.length < (buf ++ [b]).length then
      (buf ++ [b]).take ((buf ++ [b]).length - (pasteEnd.length - 1))
    else []

/-- The step that breaks the order: the scanner gives up bytes while a leader is armed. -/
def stepOvertakes (r : KeystrokeReassembler β) (b : β) : Bool :=
  r.armed.isSome && !(released val r.scan b).isEmpty

/-- An armed leader holds the byte that armed it. -/
def ArmedNonempty (r : KeystrokeReassembler β) : Prop := r.armed.isSome → armedBytes r ≠ []

/-! ## One step -/

/-- INTERNAL: the scanner's part of a step: it forwards what it releases, drops a marker, and
keeps the rest behind the armed leader.
SRC: input.rs:88-110 -/
theorem processByte_scan {r : KeystrokeReassembler β} {b : β}
    (h : r.scan ≠ .normal ∨ val b = 0x1b) :
    (r.processByte val b).1.armed = r.armed ∧
      forwarded (r.processByte val b).2 = released val r.scan b ∧
      ∃ kept, scanBuffer (r.processByte val b).1.scan = kept ∧
        (dropped val r b = [] ∧ released val r.scan b ++ kept = scanBuffer r.scan ++ [b] ∨
          kept = [] ∧ released val r.scan b ++ dropped val r b = scanBuffer r.scan ++ [b]) := by
  unfold processByte dropped released
  cases hs : r.scan with
  | normal =>
      have hb : val b = 0x1b := by
        rcases h with h | h
        · exact absurd hs h
        · exact h
      simp [hb, scanBuffer]
  | matchingPasteStart buf =>
      dsimp only [scanBuffer]
      generalize buf ++ [b] = held
      by_cases hfull : held.map val = pasteStart
      · have hpre : (held.map val).isPrefixOf pasteStart = true := by
          rw [hfull]
          decide
        rw [if_pos hfull, if_pos hpre, if_pos hfull]
        exact ⟨rfl, rfl, [], rfl, Or.inr ⟨rfl, rfl⟩⟩
      · rw [if_neg hfull, if_neg hfull]
        by_cases hpre : (held.map val).isPrefixOf pasteStart = true
        · rw [if_pos hpre, if_pos hpre]
          exact ⟨rfl, rfl, held, rfl, Or.inl ⟨rfl, rfl⟩⟩
        · rw [if_neg hpre, if_neg hpre]
          exact ⟨rfl, by simp, [], rfl, Or.inl ⟨rfl, List.append_nil held⟩⟩
  | inPaste buf =>
      dsimp only [scanBuffer]
      generalize buf ++ [b] = held
      by_cases hend : pasteEnd.isSuffixOf (held.map val) = true
      · rw [if_pos hend, if_pos hend, if_pos hend]
        refine ⟨rfl, ?_, [], rfl, Or.inr ⟨rfl, List.take_append_drop ..⟩⟩
        cases hc : held.take (held.length - pasteEnd.length) with
        | nil => simp
        | cons x xs => simp
      · rw [if_neg hend, if_neg hend, if_neg hend]
        by_cases hlen : pasteEnd.length < held.length
        · rw [if_pos hlen, if_pos hlen]
          exact ⟨rfl, by simp, _, rfl, Or.inl ⟨rfl, List.take_append_drop ..⟩⟩
        · rw [if_neg hlen, if_neg hlen]
          exact ⟨rfl, rfl, held, rfl, Or.inl ⟨rfl, rfl⟩⟩

/-- INTERNAL: the bindings' part of a step: the armed leader and the byte are forwarded, held
or dropped, and the scanner stays idle.
SRC: input.rs:112-157 -/
theorem processByte_key {r : KeystrokeReassembler β} {b : β} (hs : r.scan = .normal)
    (hb : val b ≠ 0x1b) :
    (r.processByte val b).1.scan = .normal ∧ ArmedNonempty (r.processByte val b).1 ∧
      (dropped val r b = [] ∧ forwarded (r.processByte val b).2 ++
          armedBytes (r.processByte val b).1 = armedBytes r ++ [b] ∨
        armedBytes (r.processByte val b).1 = [] ∧ dropped val r b ++
          forwarded (r.processByte val b).2 = armedBytes r ++ [b]) := by
  unfold processByte dropped
  simp only [hs, hb, if_false]
  unfold handleNormalByte
  cases ha : r.armed with
  | none =>
      dsimp only
      by_cases harms : r.arms (classifyByte (val b)) = true
      · rw [if_pos harms]
        exact ⟨hs, fun _ => by simp [armedBytes], Or.inl ⟨rfl, by simp [armedBytes, ha]⟩⟩
      · rw [if_neg harms]
        refine ⟨hs, ?_, Or.inl ⟨rfl, by simp [armedBytes, ha]⟩⟩
        simp [ArmedNonempty, ha]
  | some armed =>
      obtain ⟨bytes, armedKey⟩ := armed
      dsimp only
      by_cases hsame : classifyByte (val b) = armedKey
      · rw [if_pos hsame, if_pos hsame]
        exact ⟨hs, by simp [ArmedNonempty], Or.inr ⟨rfl, by simp [armedBytes, ha]⟩⟩
      · rw [if_neg hsame, if_neg hsame]
        have hfind : ({ r with armed := none } : KeystrokeReassembler β).findBinding armedKey
            (classifyByte (val b)) = r.findBinding armedKey (classifyByte (val b)) := rfl
        rw [hfind]
        cases r.findBinding armedKey (classifyByte (val b)) with
        | none => exact ⟨hs, by simp [ArmedNonempty], Or.inl ⟨rfl, by simp [armedBytes, ha]⟩⟩
        | some binding =>
            exact ⟨hs, by simp [ArmedNonempty], Or.inr ⟨rfl, by simp [armedBytes, ha]⟩⟩

/-- INTERNAL: a step that does not overtake splits what was pending, and the new byte, into
what it forwards or keeps, in order, and what it drops.
SRC: input.rs:79-157 -/
theorem step_conserves {r : KeystrokeReassembler β} {b : β}
    (h : stepOvertakes val r b = false) :
    ∃ before after, pending r ++ [b] = before ++ dropped val r b ++ after ∧
      forwarded (r.processByte val b).2 ++ pending (r.processByte val b).1 = before ++ after := by
  by_cases hkey : r.scan = .normal ∧ val b ≠ 0x1b
  · obtain ⟨hs, hb⟩ := hkey
    obtain ⟨hs', -, ⟨hd, heq⟩ | ⟨ha, heq⟩⟩ := processByte_key val hs hb
    · refine ⟨armedBytes r ++ [b], [], ?_, ?_⟩
      · simp [pending, hs, scanBuffer, hd]
      · simp [pending, hs', scanBuffer, heq]
    · refine ⟨[], forwarded (r.processByte val b).2, ?_, ?_⟩
      · simp [pending, hs, scanBuffer, heq]
      · simp [pending, hs', scanBuffer, ha]
  · have hscan : r.scan ≠ .normal ∨ val b = 0x1b := by
      by_cases hs : r.scan = .normal
      · exact Or.inr (by simpa using fun hb => hkey ⟨hs, hb⟩)
      · exact Or.inl hs
    obtain ⟨harmed, hout, kept, hkept, hsplit⟩ := processByte_scan val hscan
    have hab : armedBytes (r.processByte val b).1 = armedBytes r := by
      unfold armedBytes
      rw [harmed]
    have hclear : armedBytes r = [] ∨ released val r.scan b = [] := by
      unfold stepOvertakes at h
      cases ha : r.armed with
      | none => exact Or.inl (by simp [armedBytes, ha])
      | some armed => exact Or.inr (by simpa [ha] using h)
    unfold pending
    rw [hout, hab, hkept]
    rcases hsplit with ⟨hd, heq⟩ | ⟨hk, heq⟩
    · refine ⟨armedBytes r ++ (scanBuffer r.scan ++ [b]), [], by simp [hd], ?_⟩
      rw [← heq]
      rcases hclear with ha | hr
      · simp [ha]
      · simp [hr]
    · refine ⟨armedBytes r ++ released val r.scan b, [], ?_, ?_⟩
      · rw [List.append_assoc, ← heq]
        simp
      · rcases hclear with ha | hr
        · simp [ha, hk]
        · simp [hr, hk]

/-- INTERNAL: a step that overtakes forwards some bytes ahead of the armed ones.
SRC: input.rs:93-97, 100-108 -/
theorem step_overtakes {r : KeystrokeReassembler β} {b : β} (hn : ArmedNonempty r)
    (h : stepOvertakes val r b = true) :
    ∃ old new, [old, new].Sublist (pending r ++ [b]) ∧
      [new, old].Sublist
        (forwarded (r.processByte val b).2 ++ pending (r.processByte val b).1) := by
  unfold stepOvertakes at h
  rw [Bool.and_eq_true] at h
  obtain ⟨harmed, hrel⟩ := h
  have hscan : r.scan ≠ .normal ∨ val b = 0x1b := by
    left
    intro hs
    simp [hs, released] at hrel
  obtain ⟨hsame, hout, kept, hkept, hsplit⟩ := processByte_scan val hscan
  have hab : armedBytes (r.processByte val b).1 = armedBytes r := by
    unfold armedBytes
    rw [hsame]
  obtain ⟨old, olds, hold⟩ := List.exists_cons_of_ne_nil (hn harmed)
  have hne : released val r.scan b ≠ [] := by simpa using hrel
  obtain ⟨new, news, hnew⟩ := List.exists_cons_of_ne_nil hne
  have hmem : new ∈ scanBuffer r.scan ++ [b] := by
    rcases hsplit with ⟨-, heq⟩ | ⟨-, heq⟩
    · rw [← heq, hnew]
      simp
    · rw [← heq, hnew]
      simp
  refine ⟨old, new, ?_, ?_⟩
  · unfold pending
    rw [hold, List.append_assoc, List.cons_append]
    apply List.Sublist.cons_cons
    apply List.Sublist.trans (List.singleton_sublist.mpr hmem)
    exact List.sublist_append_right ..
  · unfold pending
    rw [hout, hab, hnew, hold, List.cons_append]
    apply List.Sublist.cons_cons
    rw [List.singleton_sublist]
    simp

/-- INTERNAL: what is pending is always part of what was pending and the new byte, in order. -/
theorem pending_sublist (r : KeystrokeReassembler β) (b : β) :
    (pending (r.processByte val b).1).Sublist (pending r ++ [b]) := by
  by_cases hover : stepOvertakes val r b = false
  · obtain ⟨before, after, hsplit, heq⟩ := step_conserves val hover
    have hsub : (before ++ after).Sublist (before ++ dropped val r b ++ after) := by
      rw [List.append_assoc]
      exact (List.Sublist.refl before).append (List.sublist_append_right ..)
    rw [hsplit]
    rw [← heq] at hsub
    exact (List.sublist_append_right ..).trans hsub
  · have hscan : r.scan ≠ .normal ∨ val b = 0x1b := by
      left
      intro hs
      simp [stepOvertakes, hs, released] at hover
    obtain ⟨hsame, -, kept, hkept, hsplit⟩ := processByte_scan val hscan
    have hab : armedBytes (r.processByte val b).1 = armedBytes r := by
      unfold armedBytes
      rw [hsame]
    have hkeep : kept.Sublist (scanBuffer r.scan ++ [b]) := by
      rcases hsplit with ⟨-, heq⟩ | ⟨hk, -⟩
      · rw [← heq]
        exact List.sublist_append_right ..
      · rw [hk]
        exact List.nil_sublist _
    unfold pending
    rw [hab, hkept, List.append_assoc]
    exact (List.Sublist.refl _).append hkeep

theorem armedNonempty_processByte {r : KeystrokeReassembler β} (b : β) (h : ArmedNonempty r) :
    ArmedNonempty (r.processByte val b).1 := by
  by_cases hkey : r.scan = .normal ∧ val b ≠ 0x1b
  · exact (processByte_key val hkey.1 hkey.2).2.1
  · have hscan : r.scan ≠ .normal ∨ val b = 0x1b := by
      by_cases hs : r.scan = .normal
      · exact Or.inr (by simpa using fun hb => hkey ⟨hs, hb⟩)
      · exact Or.inl hs
    obtain ⟨hsame, -⟩ := processByte_scan val hscan
    unfold ArmedNonempty armedBytes at h ⊢
    rw [hsame]
    exact h

/-! ## Runs -/

/-- The bytes that a run discards. -/
def droppedRun (r : KeystrokeReassembler β) : List β → List β
  | [] => []
  | b :: l => dropped val r b ++ droppedRun (r.processByte val b).1 l

theorem droppedRun_append (r : KeystrokeReassembler β) (l l' : List β) :
    droppedRun val r (l ++ l') =
      droppedRun val r l ++ droppedRun val (r.process val l).1 l' := by
  induction l generalizing r with
  | nil => rfl
  | cons b l ih => simp [droppedRun, process, ih]

theorem process_singleton (r : KeystrokeReassembler β) (b : β) :
    r.process val [b] = r.processByte val b := by
  simp [process]

/-- No step of the run overtakes. -/
def NeverOvertakes (r : KeystrokeReassembler β) (l : List β) : Prop :=
  ∀ before b after, l = before ++ b :: after →
    stepOvertakes val (r.process val before).1 b = false

/-- Forwarded and pending bytes together are the input in its order, less what was dropped. -/
def ConservedAt [DecidableEq β] (r : KeystrokeReassembler β) (l : List β) : Prop :=
  forwarded (r.process val l).2 ++ pending (r.process val l).1 =
    l.filter fun b => b ∉ droppedRun val r l

theorem pending_run_sublist {r : KeystrokeReassembler β} (hr : pending r = []) (l : List β) :
    (pending (r.process val l).1).Sublist l := by
  induction l using List.reverseRecOn with
  | nil => simp [process, hr]
  | append_singleton l b ih =>
      rw [process_concat, process_singleton]
      exact (pending_sublist val _ b).trans (ih.append (List.Sublist.refl [b]))

theorem armedNonempty_run {r : KeystrokeReassembler β} (h : ArmedNonempty r) (l : List β) :
    ArmedNonempty (r.process val l).1 := by
  induction l generalizing r with
  | nil => exact h
  | cons b l ih => exact ih (armedNonempty_processByte val b h)

/-- INTERNAL: dropping a block from the middle of a list without repetitions. -/
theorem filter_not_mem_middle [DecidableEq β] {before mid after : List β}
    (h : (before ++ mid ++ after).Nodup) :
    (before ++ mid ++ after).filter (fun b => b ∉ mid) = before ++ after := by
  rw [List.nodup_append, List.nodup_append] at h
  obtain ⟨⟨-, -, hbm⟩, -, hma⟩ := h
  have hbefore : before.filter (fun b => b ∉ mid) = before := by
    rw [List.filter_eq_self]
    intro x hx
    exact decide_eq_true fun hm => hbm x hx x hm rfl
  have hafter : after.filter (fun b => b ∉ mid) = after := by
    rw [List.filter_eq_self]
    intro x hx
    exact decide_eq_true fun hm => hma x (List.mem_append_right _ hm) x hx rfl
  have hmid : mid.filter (fun b => b ∉ mid) = [] := by
    rw [List.filter_eq_nil_iff]
    intro x hx
    simpa using hx
  rw [List.filter_append, List.filter_append, hbefore, hmid, hafter, List.append_nil]

/-- INTERNAL: what is dropped was pending or is the new byte. -/
theorem dropped_subset {r : KeystrokeReassembler β} {b : β}
    (h : stepOvertakes val r b = false) : dropped val r b ⊆ pending r ++ [b] := by
  obtain ⟨before, after, hsplit, -⟩ := step_conserves val h
  intro x hx
  rw [hsplit]
  simp [hx]

theorem droppedRun_subset {r : KeystrokeReassembler β} (hr : pending r = []) (l : List β)
    (h : NeverOvertakes val r l) : droppedRun val r l ⊆ l := by
  induction l using List.reverseRecOn with
  | nil => simp [droppedRun]
  | append_singleton l b ih =>
      have hprev : NeverOvertakes val r l := fun before x after heq =>
        h before x (after ++ [b]) (by simp [heq])
      have hstep := dropped_subset val (h l b [] rfl)
      rw [droppedRun_append]
      intro x hx
      rcases List.mem_append.mp hx with hx | hx
      · exact List.mem_append_left _ (ih hprev hx)
      · have hx' : x ∈ dropped val (r.process val l).1 b := by simpa [droppedRun] using hx
        rcases List.mem_append.mp (hstep hx') with hp | hb
        · exact List.mem_append_left _ ((pending_run_sublist val hr l).subset hp)
        · exact List.mem_append_right _ hb

/-- INTERNAL: a run without an overtaking step conserves its input. -/
theorem conservedAt_of_neverOvertakes [DecidableEq β] {r : KeystrokeReassembler β}
    (hr : pending r = []) (l : List β) (hl : l.Nodup) (h : NeverOvertakes val r l) :
    ConservedAt val r l := by
  induction l using List.reverseRecOn with
  | nil => simp [ConservedAt, process, hr]
  | append_singleton l b ih =>
      have hprev : NeverOvertakes val r l := fun before x after heq =>
        h before x (after ++ [b]) (by simp [heq])
      rw [List.nodup_append] at hl
      obtain ⟨hnodup, -, hfresh⟩ := hl
      have hih := ih hnodup hprev
      unfold ConservedAt at hih
      obtain ⟨before, after, hsplit, heq⟩ := step_conserves val (h l b [] rfl)
      have hbd : b ∉ droppedRun val r l := fun hb =>
        hfresh b (droppedRun_subset val hr l hprev hb) b (List.mem_singleton_self b) rfl
      -- the kept bytes so far, and the new one, still without repetitions
      have hkept : (l ++ [b]).filter (fun x => x ∉ droppedRun val r l) =
          forwarded (r.process val l).2 ++ (before ++ dropped val (r.process val l).1 b ++ after) := by
        rw [List.filter_append, ← hih, List.append_assoc, ← hsplit]
        simp [hbd]
      have hkeptNodup : (forwarded (r.process val l).2 ++ before ++
          dropped val (r.process val l).1 b ++ after).Nodup := by
        have hall : (l ++ [b]).Nodup := by
          rw [List.nodup_append]
          exact ⟨hnodup, List.nodup_singleton b, hfresh⟩
        have hfiltered := hall.filter (fun x => x ∉ droppedRun val r l)
        rw [hkept] at hfiltered
        simpa only [List.append_assoc] using hfiltered
      unfold ConservedAt
      rw [process_concat, process_singleton, droppedRun_append]
      dsimp only
      rw [forwarded_append, List.append_assoc, heq]
      have hfilter := filter_not_mem_middle hkeptNodup
      have hdrop : droppedRun val (r.process val l).1 [b] = dropped val (r.process val l).1 b := by
        simp [droppedRun]
      rw [hdrop]
      calc forwarded (r.process val l).2 ++ (before ++ after)
          = (forwarded (r.process val l).2 ++ before ++ dropped val (r.process val l).1 b ++
              after).filter (fun x => x ∉ dropped val (r.process val l).1 b) := by
            rw [hfilter, List.append_assoc]
        _ = ((l ++ [b]).filter fun x => x ∉ droppedRun val r l).filter
              (fun x => x ∉ dropped val (r.process val l).1 b) := by
            rw [hkept]
            simp only [List.append_assoc]
        _ = (l ++ [b]).filter fun x =>
              x ∉ droppedRun val r l ++ dropped val (r.process val l).1 b := by
            rw [List.filter_filter]
            apply List.filter_congr
            intro x _
            simp [Bool.and_comm]

/-- INTERNAL: an overtaking step breaks the order right there. -/
theorem not_conservedAt_of_overtakes [DecidableEq β] {R : β → β → Prop}
    (hasymm : ∀ x y, R x y → ¬ R y x) {r : KeystrokeReassembler β} (hr : pending r = [])
    (hn : ArmedNonempty r) {l : List β} {b : β} (hl : (l ++ [b]).Pairwise R)
    (h : stepOvertakes val (r.process val l).1 b = true) : ¬ ConservedAt val r (l ++ [b]) := by
  intro hcons
  obtain ⟨old, new, hin, hout⟩ := step_overtakes val (armedNonempty_run val hn l) h
  have hfirst : [old, new].Sublist (l ++ [b]) :=
    hin.trans ((pending_run_sublist val hr l).append (List.Sublist.refl [b]))
  have hsecond : [new, old].Sublist (l ++ [b]) := by
    unfold ConservedAt at hcons
    rw [process_concat, process_singleton] at hcons
    dsimp only at hcons
    rw [forwarded_append, List.append_assoc] at hcons
    have hsub : [new, old].Sublist ((l ++ [b]).filter fun x => x ∉ droppedRun val r (l ++ [b])) := by
      rw [← hcons]
      exact hout.trans (List.sublist_append_right ..)
    exact hsub.trans List.filter_sublist
  have hab : R old new := by simpa using hl.sublist hfirst
  have hba : R new old := by simpa using hl.sublist hsecond
  exact hasymm old new hab hba

end Bytes

/-! ## Streams -/

/-- A stream with the position of each byte. -/
def positions (s : List UInt8) : List (UInt8 × ℕ) := s.zipIdx

theorem positions_append (s t : List UInt8) :
    positions (s ++ t) = positions s ++ t.zipIdx s.length := by
  simp [positions, List.zipIdx_append]

theorem positions_take (s : List UInt8) (n : ℕ) :
    positions (s.take n) = (positions s).take n := by
  apply List.ext_getElem?
  intro i
  simp only [positions, List.getElem?_zipIdx, List.getElem?_take]
  split_ifs <;> simp

theorem positions_pairwise (s : List UInt8) :
    (positions s).Pairwise fun x y => x.2 < y.2 := by
  induction s using List.reverseRecOn with
  | nil => exact List.Pairwise.nil
  | append_singleton s b ih =>
      rw [positions_append, List.pairwise_append]
      refine ⟨ih, by simp, ?_⟩
      intro x hx y hy
      have hxlt := List.snd_lt_of_mem_zipIdx hx
      have hyeq : y = (b, s.length) := by simpa using hy
      rw [hyeq]
      simpa using hxlt

theorem positions_nodup (s : List UInt8) : (positions s).Nodup := by
  apply (positions_pairwise s).imp
  intro x y hxy heq
  rw [heq] at hxy
  exact Nat.lt_irrefl _ hxy

/-- The reassembler of a configuration over a stream, with positions, conserves the stream. -/
def Conserved (config : TymuxConfig) (s : List UInt8) : Prop :=
  ConservedAt Prod.fst (.new config) (positions s)

instance (config : TymuxConfig) (s : List UInt8) : Decidable (Conserved config s) :=
  inferInstanceAs (Decidable (_ = _))

/-- INTERNAL: **order and conservation of keystrokes.** Positions only label the bytes of the
run. For every configuration and stream, at every point of the stream the forwarded and the pending bytes together are the bytes read so
far, in their order, less the recognised markers, the fired bindings and one byte of each
doubled leader, if and only if the paste scanner never gives up bytes while a leader is
armed.
SRC: input.rs:79-157 -/
theorem keystrokes_conserved_iff (config : TymuxConfig) (s : List UInt8) :
    ((KeystrokeReassembler.new config).process id s).2 =
      ((KeystrokeReassembler.new config).process Prod.fst (positions s)).2.map
        (ReassembledOutput.map Prod.fst) ∧
    ((∀ read, read <+: s → Conserved config read) ↔
      NeverOvertakes Prod.fst (.new config) (positions s)) := by
  refine ⟨?_, ?_⟩
  · have hmap := process_map Prod.fst id (.new config) (positions s)
    have hbytes : (positions s).map Prod.fst = s := List.zipIdx_map_fst 0 s
    rw [hbytes] at hmap
    exact congrArg Prod.snd hmap
  have hr : pending (.new config : KeystrokeReassembler (UInt8 × ℕ)) = [] := rfl
  have hn : ArmedNonempty (.new config : KeystrokeReassembler (UInt8 × ℕ)) := by
    simp [ArmedNonempty, KeystrokeReassembler.new]
  constructor
  · intro h before b after heq
    rw [← Bool.not_eq_true]
    intro hover
    -- the step that overtakes is the last one of a prefix of the stream
    have htake : positions (s.take (before.length + 1)) = before ++ [b] := by
      rw [positions_take, heq, List.take_append, List.take_of_length_le (by omega)]
      simp
    have hcons := h _ (List.take_prefix (before.length + 1) s)
    unfold Conserved at hcons
    rw [htake] at hcons
    have hsorted : (before ++ [b]).Pairwise fun x y => x.2 < y.2 := by
      rw [← htake]
      exact positions_pairwise _
    exact not_conservedAt_of_overtakes Prod.fst (fun x y hxy => Nat.lt_asymm hxy) hr hn hsorted
      hover hcons
  · intro h read hread
    obtain ⟨rest, rfl⟩ := hread
    apply conservedAt_of_neverOvertakes Prod.fst hr _ (positions_nodup read)
    intro before b after heq
    apply h before b (after ++ rest.zipIdx read.length)
    rw [positions_append, heq]
    simp

/-- The default leader with the binding of `detach`. -/
def detachConfig : TymuxConfig where
  leader := "C-b"
  bindings := [⟨[⟨'b', true⟩, ⟨'d', false⟩], .detach⟩]

/-- INTERNAL: the leader, an `ESC O` of a function key, and `Z`: the escape bytes are forwarded
at once and the leader after them.
SRC: input.rs:93-97 -/
theorem keystrokes_reordered : ¬ Conserved detachConfig [0x02, 0x1b, 0x4f, 0x5a] := by
  decide

end Tymux.Analysis
