import Tymux.Model.Basic

/-!
# Reassembling keystrokes

`input.rs` of the client: raw input bytes go through the paste scanner, which looks for the
bracketed-paste markers, and what it does not hold back goes to the key bindings. A read can
end anywhere, so everything is a fold over single bytes.

The functions are generic in the type `β` of bytes, with `val` giving the byte. The source is
the case `val = id`; with positions attached to the bytes the same functions say which input
byte ended up where.
-/

set_option autoImplicit false

namespace Tymux.Model

/-- A `crossterm` key event of the kind the configuration and `classify_byte` produce: a
character, with or without Control. -/
structure KeyEvent where
  char : Char
  control : Bool
  deriving DecidableEq, Repr

/-- SRC: config.rs:17-29 -/
inductive Action where
  | detach
  | enterCopyMode
  | exitCopyMode
  | splitHorizontal
  | splitVertical
  | newWindow
  | nextWindow
  | prevWindow
  | killPane
  | sendPrefixLiteral
  deriving DecidableEq, Repr

/-- SRC: config.rs:65-69 -/
structure KeyBinding where
  sequence : List KeyEvent
  action : Action
  deriving DecidableEq, Repr

/-- SRC: config.rs:79-83 -/
structure TymuxConfig where
  leader : String
  bindings : List KeyBinding

/-- `\x1b[200~` and `\x1b[201~`.
SRC: input.rs:5-6 -/
def pasteStart : List UInt8 := [0x1b, 0x5b, 0x32, 0x30, 0x30, 0x7e]

def pasteEnd : List UInt8 := [0x1b, 0x5b, 0x32, 0x30, 0x31, 0x7e]

/-- SRC: input.rs:166-179 -/
def classifyByte (b : UInt8) : KeyEvent :=
  if 1 ≤ b.toNat ∧ b.toNat ≤ 26 then ⟨Char.ofNat (97 + b.toNat - 1), true⟩
  else ⟨Char.ofNat b.toNat, false⟩

/-- SRC: input.rs:181-190 -/
def parseLeader (raw : String) : KeyEvent :=
  match raw.toList with
  | 'C' :: '-' :: c :: _ => ⟨c, true⟩
  | _ => ⟨'b', true⟩

section Reassembler

variable {β : Type*}

/-- SRC: input.rs:8-19 -/
inductive ReassembledOutput (β : Type*) where
  | forward (bytes : List β)
  | action (action : Action)
  deriving DecidableEq, Repr

/-- SRC: input.rs:21-29 -/
inductive ScanState (β : Type*) where
  | normal
  | matchingPasteStart (buf : List β)
  | inPaste (buf : List β)
  deriving DecidableEq, Repr

/-- SRC: input.rs:37-54 -/
structure KeystrokeReassembler (β : Type*) where
  bindings : List KeyBinding
  leader : KeyEvent
  armed : Option (List β × KeyEvent)
  scan : ScanState β
  deriving DecidableEq, Repr

namespace KeystrokeReassembler

/-- SRC: input.rs:57-65 -/
def new (config : TymuxConfig) : KeystrokeReassembler β where
  bindings := config.bindings
  leader := parseLeader config.leader
  armed := none
  scan := .normal

/-- Whether a key arms: the global leader, or the first key of any binding.
SRC: input.rs:120-124 -/
def arms (r : KeystrokeReassembler β) (key : KeyEvent) : Bool :=
  key = r.leader || r.bindings.any fun bnd => bnd.sequence.head? = some key

/-- The binding that an armed key and its follow-up select.
SRC: input.rs:137-141 -/
def findBinding (r : KeystrokeReassembler β) (armedKey key : KeyEvent) : Option KeyBinding :=
  r.bindings.find? fun bnd => bnd.sequence = [armedKey, key]

variable (val : β → UInt8)

/-- SRC: input.rs:112-157 -/
def handleNormalByte (r : KeystrokeReassembler β) (b : β) :
    KeystrokeReassembler β × List (ReassembledOutput β) :=
  let key := classifyByte (val b)
  match r.armed with
  | none =>
    if r.arms key then ({ r with armed := some ([b], key) }, [])
    else (r, [.forward [b]])
  | some (armedBytes, armedKey) =>
    let r := { r with armed := none }
    if key = armedKey then (r, [.forward [b]])
    else match r.findBinding armedKey key with
      | some binding => (r, [.action binding.action])
      | none => (r, [.forward (armedBytes ++ [b])])

/-- SRC: input.rs:79-110 -/
def processByte (r : KeystrokeReassembler β) (b : β) :
    KeystrokeReassembler β × List (ReassembledOutput β) :=
  match r.scan with
  | .normal =>
    if val b = 0x1b then ({ r with scan := .matchingPasteStart [b] }, [])
    else r.handleNormalByte val b
  | .matchingPasteStart buf =>
    let buf := buf ++ [b]
    if buf.map val = pasteStart then ({ r with scan := .inPaste [] }, [])
    else if (buf.map val).isPrefixOf pasteStart then
      ({ r with scan := .matchingPasteStart buf }, [])
    else ({ r with scan := .normal }, [.forward buf])
  | .inPaste buf =>
    let buf := buf ++ [b]
    if pasteEnd.isSuffixOf (buf.map val) then
      let content := buf.take (buf.length - pasteEnd.length)
      ({ r with scan := .normal }, if content.isEmpty then [] else [.forward content])
    else if pasteEnd.length < buf.length then
      let flushUpto := buf.length - (pasteEnd.length - 1)
      ({ r with scan := .inPaste (buf.drop flushUpto) }, [.forward (buf.take flushUpto)])
    else ({ r with scan := .inPaste buf }, [])

/-- One read.
SRC: input.rs:71-77 -/
def process (r : KeystrokeReassembler β) :
    List β → KeystrokeReassembler β × List (ReassembledOutput β)
  | [] => (r, [])
  | b :: bytes =>
    let (r, out) := r.processByte val b
    let (r, rest) := r.process bytes
    (r, out ++ rest)

/-- Any number of reads, one after the other. -/
def processReads (r : KeystrokeReassembler β) :
    List (List β) → KeystrokeReassembler β × List (ReassembledOutput β)
  | [] => (r, [])
  | read :: reads =>
    let (r, out) := r.process val read
    let (r, rest) := r.processReads reads
    (r, out ++ rest)

theorem process_concat (r : KeystrokeReassembler β) (s t : List β) :
    r.process val (s ++ t) = (((r.process val s).1.process val t).1,
      (r.process val s).2 ++ ((r.process val s).1.process val t).2) := by
  induction s generalizing r with
  | nil => simp [process]
  | cons b s ih => simp [process, ih]

/-- INTERNAL: where the reads are cut does not matter.
SRC: input.rs:71-77 -/
theorem processReads_eq (r : KeystrokeReassembler β) (reads : List (List β)) :
    r.processReads val reads = r.process val reads.flatten := by
  induction reads generalizing r with
  | nil => rfl
  | cons read reads ih => simp [processReads, process_concat, ih]

end KeystrokeReassembler

/-! ## Attaching positions to the bytes -/

variable {γ : Type*} (f : β → γ)

def ReassembledOutput.map : ReassembledOutput β → ReassembledOutput γ
  | forward bytes => forward (bytes.map f)
  | action a => action a

def ScanState.map : ScanState β → ScanState γ
  | normal => normal
  | matchingPasteStart buf => matchingPasteStart (buf.map f)
  | inPaste buf => inPaste (buf.map f)

namespace KeystrokeReassembler

def map (r : KeystrokeReassembler β) : KeystrokeReassembler γ where
  bindings := r.bindings
  leader := r.leader
  armed := r.armed.map fun a => (a.1.map f, a.2)
  scan := r.scan.map f

variable (val : γ → UInt8)

theorem handleNormalByte_map (r : KeystrokeReassembler β) (b : β) :
    (r.map f).handleNormalByte val (f b) =
      ((r.handleNormalByte (val ∘ f) b).1.map f,
        (r.handleNormalByte (val ∘ f) b).2.map (ReassembledOutput.map f)) := by
  unfold handleNormalByte
  cases ha : r.armed with
  | none =>
      have hm : (r.map f).armed = none := by simp [map, ha]
      simp only [hm, Function.comp_apply]
      by_cases harms : r.arms (classifyByte (val (f b))) = true
      · have harms' : (r.map f).arms (classifyByte (val (f b))) = true := harms
        rw [if_pos harms, if_pos harms']
        rfl
      · have harms' : ¬ (r.map f).arms (classifyByte (val (f b))) = true := harms
        rw [if_neg harms, if_neg harms']
        rfl
  | some armed =>
      obtain ⟨bytes, armedKey⟩ := armed
      have hm : (r.map f).armed = some (bytes.map f, armedKey) := by simp [map, ha]
      simp only [hm, Function.comp_apply]
      by_cases hsame : classifyByte (val (f b)) = armedKey
      · rw [if_pos hsame, if_pos hsame]
        rfl
      · rw [if_neg hsame, if_neg hsame]
        simp only [findBinding, map]
        cases r.bindings.find? fun bnd => bnd.sequence = [armedKey, classifyByte (val (f b))] with
        | none => simp [ReassembledOutput.map]
        | some binding => simp [ReassembledOutput.map]

/-- INTERNAL: the reassembler only looks at the values of the bytes.
SRC: input.rs:79-110 -/
theorem processByte_map (r : KeystrokeReassembler β) (b : β) :
    (r.map f).processByte val (f b) =
      ((r.processByte (val ∘ f) b).1.map f,
        (r.processByte (val ∘ f) b).2.map (ReassembledOutput.map f)) := by
  unfold processByte
  cases hs : r.scan with
  | normal =>
      have hm : (r.map f).scan = .normal := by simp [map, hs, ScanState.map]
      simp only [hm, Function.comp_apply]
      by_cases hb : val (f b) = 0x1b
      · rw [if_pos hb, if_pos hb]
        simp [map, ScanState.map]
      · rw [if_neg hb, if_neg hb]
        exact handleNormalByte_map f val r b
  | matchingPasteStart buf =>
      have hm : (r.map f).scan = .matchingPasteStart (buf.map f) := by
        simp [map, hs, ScanState.map]
      have happ : buf.map f ++ [f b] = (buf ++ [b]).map f := by simp
      simp only [hm, happ, List.map_map]
      generalize buf ++ [b] = held
      split_ifs
      · simp [map, ScanState.map]
      · simp [map, ScanState.map]
      · simp [map, ScanState.map, ReassembledOutput.map]
  | inPaste buf =>
      have hm : (r.map f).scan = .inPaste (buf.map f) := by simp [map, hs, ScanState.map]
      have happ : buf.map f ++ [f b] = (buf ++ [b]).map f := by simp
      simp only [hm, happ, List.map_map, List.length_map, ← List.map_take, ← List.map_drop,
        List.isEmpty_map]
      generalize buf ++ [b] = held
      by_cases hend : pasteEnd.isSuffixOf (held.map (val ∘ f)) = true
      · rw [if_pos hend, if_pos hend]
        cases (held.take (held.length - pasteEnd.length)).isEmpty <;>
          simp [map, ScanState.map, ReassembledOutput.map]
      · rw [if_neg hend, if_neg hend]
        split_ifs
        · simp [map, ScanState.map, ReassembledOutput.map]
        · simp [map, ScanState.map]

theorem process_map (r : KeystrokeReassembler β) (l : List β) :
    (r.map f).process val (l.map f) =
      ((r.process (val ∘ f) l).1.map f,
        (r.process (val ∘ f) l).2.map (ReassembledOutput.map f)) := by
  induction l generalizing r with
  | nil => rfl
  | cons b l ih => simp [process, processByte_map, ih]

end KeystrokeReassembler

end Reassembler

end Tymux.Model
