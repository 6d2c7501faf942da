import Tymux.Analysis.Tokenizing
import Mathlib.Data.List.Induction

/-!
# A tokenizer that is lawful

The state machine of `vte`, which is not part of the repository: the theorems take the tokenizer
as a parameter, and this one shows on concrete outputs that their assumptions can be met.
-/

set_option autoImplicit false

namespace Tymux.Analysis

open Tymux.Model.Vt Tymux.Model.TerminalQuery

namespace Vte

/-! ## States -/

inductive CsiStage where
  | entry
  | param
  | intermediate
  | ignored
  deriving DecidableEq, Repr

/-- What has been read of a CSI: the finished parameters, the finished values of the open one, the
open value and the intermediates. -/
structure Csi where
  stage : CsiStage := .entry
  params : List (List ℕ) := []
  values : List ℕ := []
  value : ℕ := 0
  intermediates : List UInt8 := []
  deriving DecidableEq, Repr

inductive State where
  /-- with the bytes of an unfinished character -/
  | ground (bytes : List UInt8)
  | escape
  | escapeIntermediate (intermediates : List UInt8)
  | csi (head : Csi)
  | osc (bytes : List UInt8)
  | dcs
  | dcsPassthrough
  | sosPmApc
  deriving DecidableEq, Repr

/-! ## Characters -/

/-- How many bytes a character with this first byte has. -/
def charLength (b : UInt8) : ℕ :=
  if 0xc2 ≤ b ∧ b ≤ 0xdf then 2
  else if 0xe0 ≤ b ∧ b ≤ 0xef then 3
  else if 0xf0 ≤ b ∧ b ≤ 0xf4 then 4
  else 1

def decodeChar : List UInt8 → Char
  | [a, b] => Char.ofNat ((a.toNat - 0xc0) * 64 + (b.toNat - 0x80))
  | [a, b, c] => Char.ofNat ((a.toNat - 0xe0) * 4096 + (b.toNat - 0x80) * 64 + (c.toNat - 0x80))
  | [a, b, c, d] => Char.ofNat ((a.toNat - 0xf0) * 262144 + (b.toNat - 0x80) * 4096 +
      (c.toNat - 0x80) * 64 + (d.toNat - 0x80))
  | _ => Char.ofNat 0xfffd

/-- A byte between characters. -/
def groundByte (b : UInt8) : State × List Action :=
  if b < 0x20 then (.ground [], [.execute b])
  else if b < 0x7f then (.ground [], [.print (Char.ofNat b.toNat)])
  else if b = 0x7f then (.ground [], [])
  else if charLength b = 1 then (.ground [], [.print (Char.ofNat 0xfffd)])
  else (.ground [b], [])

/-- The first bytes that do not go with every second one. -/
def secondByte (lead b : UInt8) : Bool :=
  if lead = 0xe0 then 0xa0 ≤ b
  else if lead = 0xed then b ≤ 0x9f
  else if lead = 0xf0 then 0x90 ≤ b
  else if lead = 0xf4 then b ≤ 0x8f
  else true

/-- A byte after the bytes of an unfinished character. -/
def advanceGround (bytes : List UInt8) (b : UInt8) : State × List Action :=
  match bytes with
  | [] => groundByte b
  | lead :: rest =>
    if 0x80 ≤ b ∧ b ≤ 0xbf ∧ (rest ≠ [] ∨ secondByte lead b) then
      if rest.length + 2 < charLength lead then (.ground (bytes ++ [b]), [])
      else (.ground [], [.print (decodeChar (bytes ++ [b]))])
    else ((groundByte b).1, .print (Char.ofNat 0xfffd) :: (groundByte b).2)

/-! ## Sequences -/

/-- A byte of a CSI that is no control and does not end it. -/
def Csi.collect (h : Csi) (b : UInt8) : Csi :=
  match h.stage with
  | .ignored => h
  | .intermediate =>
    if b < 0x30 then { h with intermediates := (h.intermediates ++ [b]).take 2 }
    else { h with stage := .ignored }
  | stage =>
    let full := 32 ≤ h.params.flatten.length + h.values.length
    if b < 0x30 then
      { h with stage := .intermediate, intermediates := (h.intermediates ++ [b]).take 2 }
    else if b < 0x3a then
      { h with
        stage := .param
        value := if full then h.value else min (h.value * 10 + (b.toNat - 0x30)) 65535 }
    else if b = 0x3a then
      if full then { h with stage := .param }
      else { h with stage := .param, values := h.values ++ [h.value], value := 0 }
    else if b = 0x3b then
      if full then { h with stage := .param }
      else { h with stage := .param, params := h.params ++ [h.values ++ [h.value]], values := [], value := 0 }
    else if stage = .entry then
      { h with stage := .param, intermediates := (h.intermediates ++ [b]).take 2 }
    else { h with stage := .ignored }

def Csi.dispatch (h : Csi) (b : UInt8) : List Action :=
  if h.stage = .ignored then []
  else
    let params :=
      if 32 ≤ h.params.flatten.length + h.values.length then
        if h.values = [] then h.params else h.params ++ [h.values]
      else h.params ++ [h.values ++ [h.value]]
    [.csiDispatch params h.intermediates (Char.ofNat b.toNat)]

def oscParams (bytes : List UInt8) : List (List UInt8) := (bytes.splitOn 0x3b).take 16

/-- CAN and SUB end every sequence, and an ESC begins one. -/
def abort (s : State) (b : UInt8) : State × List Action :=
  let before := match s with
    | .osc bytes => [.oscDispatch (oscParams bytes) false]
    | .dcsPassthrough => [.unhook]
    | _ => []
  if b = 0x1b then (.escape, before) else (.ground [], before ++ [.execute b])

def advanceEscape (b : UInt8) : State × List Action :=
  if b < 0x20 then (.escape, [.execute b])
  else if b < 0x30 then (.escapeIntermediate [b], [])
  else if b = 0x50 then (.dcs, [])
  else if b = 0x5b then (.csi {}, [])
  else if b = 0x5d then (.osc [], [])
  else if b = 0x58 ∨ b = 0x5e ∨ b = 0x5f then (.sosPmApc, [])
  else if b < 0x7f then (.ground [], [.escDispatch [] b])
  else (.escape, [])

def advanceIntermediate (intermediates : List UInt8) (b : UInt8) : State × List Action :=
  if b < 0x20 then (.escapeIntermediate intermediates, [.execute b])
  else if b < 0x30 then (.escapeIntermediate ((intermediates ++ [b]).take 2), [])
  else if b < 0x7f then (.ground [], [.escDispatch intermediates b])
  else (.escapeIntermediate intermediates, [])

def advanceCsi (h : Csi) (b : UInt8) : State × List Action :=
  if b < 0x20 then (.csi h, [.execute b])
  else if b < 0x40 then (.csi (h.collect b), [])
  else if b < 0x7f then (.ground [], h.dispatch b)
  else (.csi h, [])

def advanceOsc (bytes : List UInt8) (b : UInt8) : State × List Action :=
  if b = 0x07 then (.ground [], [.oscDispatch (oscParams bytes) true])
  else if b < 0x20 then (.osc bytes, [])
  else (.osc (bytes ++ [b]), [])

def advance (s : State) (b : UInt8) : State × List Action :=
  if b = 0x1b ∨ b = 0x18 ∨ b = 0x1a then abort s b
  else match s with
    | .ground bytes => advanceGround bytes b
    | .escape => advanceEscape b
    | .escapeIntermediate intermediates => advanceIntermediate intermediates b
    | .csi h => advanceCsi h b
    | .osc bytes => advanceOsc bytes b
    | .dcs => if 0x40 ≤ b ∧ b ≤ 0x7e then (.dcsPassthrough, [.hook]) else (.dcs, [])
    | .dcsPassthrough =>
      if b = 0x9c then (.ground [], [.unhook])
      else if b < 0x7f then (.dcsPassthrough, [.put b])
      else (.dcsPassthrough, [])
    | .sosPmApc => if b = 0x9c then (.ground [], []) else (.sosPmApc, [])

end Vte

def vte : Tokenizer Vte.State where
  start := .ground []
  advance := Vte.advance

/-! ## The laws -/

namespace Vte

def State.phase : State → Phase
  | .escape => .escape
  | .csi _ => .csi
  | .osc _ => .osc
  | _ => .calm

/-- A step from `s` at the byte is what the phase of `s` says. -/
def StepOk (p : Phase) (b : UInt8) (r : State × List Action) : Prop :=
  r.1.phase = p.next b ∧ Allowed p b r.2

theorem stepOk_calm {b : UInt8} (hesc : b ≠ 0x1b) {r : State × List Action}
    (hphase : r.1.phase = .calm) (hacts : ∀ a ∈ r.2, ¬ Dispatches a) : StepOk .calm b r := by
  constructor
  · rw [Phase.next_calm hesc]
    exact hphase
  · exact hacts

theorem groundByte_calm (b : UInt8) :
    (groundByte b).1.phase = .calm ∧ ∀ a ∈ (groundByte b).2, ¬ Dispatches a := by
  unfold groundByte
  split_ifs <;> simp [State.phase, Dispatches]

theorem advanceGround_calm (bytes : List UInt8) (b : UInt8) :
    (advanceGround bytes b).1.phase = .calm ∧ ∀ a ∈ (advanceGround bytes b).2, ¬ Dispatches a := by
  obtain ⟨hphase, hacts⟩ := groundByte_calm b
  unfold advanceGround
  split
  · exact ⟨hphase, hacts⟩
  · split_ifs
    · simp [State.phase]
    · simp [State.phase, Dispatches]
    · refine ⟨hphase, ?_⟩
      rw [List.forall_mem_cons]
      exact ⟨id, hacts⟩

theorem stepOk_escape {b : UInt8} (hesc : b ≠ 0x1b) (habort : ¬ Aborts b) :
    StepOk .escape b (advanceEscape b) := by
  unfold StepOk Allowed Phase.next advanceEscape
  rw [if_neg hesc, if_neg habort]
  dsimp only
  constructor
  · split_ifs <;> first | rfl | (exfalso; grind) 
  · split_ifs <;> first | rfl | (exfalso; grind) | simp [Dispatches]

theorem stepOk_csi (h : Csi) {b : UInt8} (hesc : b ≠ 0x1b) (habort : ¬ Aborts b) :
    StepOk .csi b (advanceCsi h b) := by
  unfold StepOk Allowed Phase.next advanceCsi
  rw [if_neg hesc, if_neg habort]
  dsimp only
  by_cases hctl : b < 0x20
  · have hfinal : ¬ CsiFinal b := by
      unfold CsiFinal
      grind
    rw [if_pos hctl, if_neg hfinal, if_neg hfinal, if_neg habort, if_pos ⟨hctl, hesc⟩]
    exact ⟨rfl, rfl⟩
  rw [if_neg hctl]
  by_cases hparam : b < 0x40
  · have hfinal : ¬ CsiFinal b := by
      unfold CsiFinal
      grind
    rw [if_pos hparam, if_neg hfinal, if_neg hfinal, if_neg habort, if_neg fun hc => hctl hc.1]
    exact ⟨rfl, rfl⟩
  rw [if_neg hparam]
  by_cases hend : b < 0x7f
  · have hfinal : CsiFinal b := by
      unfold CsiFinal
      grind
    rw [if_pos hend, if_pos hfinal, if_pos hfinal]
    refine ⟨rfl, ?_⟩
    dsimp only
    unfold Csi.dispatch
    split
    · exact Or.inl rfl
    · exact Or.inr ⟨_, _, rfl⟩
  · have hfinal : ¬ CsiFinal b := by
      unfold CsiFinal
      grind
    rw [if_neg hend, if_neg hfinal, if_neg hfinal, if_neg habort, if_neg fun hc => hctl hc.1]
    exact ⟨rfl, rfl⟩

theorem stepOk_osc (bytes : List UInt8) {b : UInt8} (hesc : b ≠ 0x1b) (habort : ¬ Aborts b) :
    StepOk .osc b (advanceOsc bytes b) := by
  unfold StepOk Allowed Phase.next advanceOsc
  rw [if_neg hesc, if_neg habort]
  dsimp only
  by_cases hbel : b = 0x07
  · rw [if_pos hbel, if_pos hbel, if_pos hbel]
    exact ⟨rfl, _, rfl⟩
  · rw [if_neg hbel, if_neg hbel, if_neg hbel, if_neg hesc, if_neg habort]
    split
    · exact ⟨rfl, rfl⟩
    · exact ⟨rfl, rfl⟩

theorem stepOk_abort (s : State) {b : UInt8} (hends : b = 0x1b ∨ Aborts b) :
    StepOk s.phase b (abort s b) := by
  unfold StepOk
  rcases hends with rfl | habort
  · rw [Phase.next_esc]
    refine ⟨rfl, ?_⟩
    cases s with
    | osc bytes => exact ⟨_, rfl⟩
    | dcsPassthrough =>
        intro a ha
        rw [List.mem_singleton.mp ha]
        exact id
    | ground bytes => exact fun a ha => absurd ha List.not_mem_nil
    | escape => exact (rfl : ([] : List Action) = [])
    | escapeIntermediate inter => exact fun a ha => absurd ha List.not_mem_nil
    | csi h => exact (rfl : ([] : List Action) = [])
    | dcs => exact fun a ha => absurd ha List.not_mem_nil
    | sosPmApc => exact fun a ha => absurd ha List.not_mem_nil
  · have hone : ∀ a ∈ ([.execute b] : List Action), ¬ Dispatches a := by
      intro a ha
      rw [List.mem_singleton.mp ha]
      exact id
    have htwo : ∀ a ∈ ([.unhook, .execute b] : List Action), ¬ Dispatches a := by
      rw [List.forall_mem_cons]
      exact ⟨id, hone⟩
    rw [Phase.next_of_aborts _ habort]
    obtain rfl | rfl := habort
    · refine ⟨rfl, ?_⟩
      cases s with
      | osc bytes => exact ⟨_, _, rfl, hone⟩
      | dcsPassthrough => exact htwo
      | ground bytes => exact hone
      | escape => exact hone
      | escapeIntermediate inter => exact hone
      | csi h => exact hone
      | dcs => exact hone
      | sosPmApc => exact hone
    · refine ⟨rfl, ?_⟩
      cases s with
      | osc bytes => exact ⟨_, _, rfl, hone⟩
      | dcsPassthrough => exact htwo
      | ground bytes => exact hone
      | escape => exact hone
      | escapeIntermediate inter => exact hone
      | csi h => exact hone
      | dcs => exact hone
      | sosPmApc => exact hone

theorem stepOk_advance (s : State) (b : UInt8) : StepOk s.phase b (advance s b) := by
  unfold advance
  split
  · rename_i hends
    exact stepOk_abort s hends
  · rename_i hends
    obtain ⟨hesc, habort⟩ := not_or.mp hends
    cases s with
    | ground bytes =>
        obtain ⟨hphase, hacts⟩ := advanceGround_calm bytes b
        exact stepOk_calm hesc hphase hacts
    | escape => exact stepOk_escape hesc habort
    | escapeIntermediate inter =>
        apply stepOk_calm hesc
        · unfold advanceIntermediate
          split_ifs <;> rfl
        · unfold advanceIntermediate
          split_ifs <;> simp [Dispatches]
    | csi h => exact stepOk_csi h hesc habort
    | osc bytes => exact stepOk_osc bytes hesc habort
    | dcs =>
        dsimp only
        split
        · exact stepOk_calm hesc rfl (by simp [Dispatches])
        · exact stepOk_calm hesc rfl (by simp)
    | dcsPassthrough =>
        dsimp only
        split_ifs
        · exact stepOk_calm hesc rfl (by simp [Dispatches])
        · exact stepOk_calm hesc rfl (by simp [Dispatches])
        · exact stepOk_calm hesc rfl (by simp)
    | sosPmApc =>
        dsimp only
        split
        · exact stepOk_calm hesc rfl (by simp)
        · exact stepOk_calm hesc rfl (by simp)

theorem phase_after (u : List UInt8) : (vte.after u).phase = phaseOf u := by
  induction u using List.reverseRecOn with
  | nil => rfl
  | append_singleton u b ih =>
      rw [vte.after_append, phaseOf_append, ← ih]
      exact (stepOk_advance _ b).1

end Vte

theorem lawful_vte : Lawful vte where
  esc := by
    intro s t
    have hescape : ∀ s, (vte.advance s 0x1b).1 = .escape := fun s => rfl
    rw [hescape, hescape]
    exact Tokenizer.ObsEq.refl _
  allowed := by
    intro u b
    rw [← Vte.phase_after]
    exact (Vte.stepOk_advance _ b).2

end Tymux.Analysis
