import Tymux.Model.Input
import Mathlib.Data.List.SplitOn

/-!
# The configuration of the key bindings

`config.rs` of the client. The TOML parser is a parameter: what it reads from a text is the
optional leader and the map of the binding strings. A `KeyEvent` here has no other modifiers, so
that the case-folding equality of `crossterm` is plain equality.
-/

set_option autoImplicit false

namespace Tymux.Model

/-- The action, its name in the configuration file and its default.
SRC: config.rs:54-63 -/
def bindableActions : List (Action × String × String) :=
  [(.detach, "detach", "C-b d"),
    (.enterCopyMode, "copy_mode", "C-b ["),
    (.splitHorizontal, "split_horizontal", "C-b %"),
    (.splitVertical, "split_vertical", "C-b \""),
    (.newWindow, "new_window", "C-b c"),
    (.nextWindow, "next_window", "C-b n"),
    (.prevWindow, "prev_window", "C-b p"),
    (.killPane, "kill_pane", "C-b x")]

/-- SRC: config.rs:71-77 -/
structure RawConfig where
  leader : Option String
  keybindings : String → Option String

/-- SRC: config.rs:85-88 -/
structure KeySequenceParseError where
  raw : String
  deriving DecidableEq, Repr

/-- `char::is_whitespace`. -/
def isWhitespace (c : Char) : Bool :=
  let n := c.toNat
  (9 ≤ n && n ≤ 13) || n = 0x20 || n = 0x85 || n = 0xa0 || n = 0x1680 ||
    (0x2000 ≤ n && n ≤ 0x200a) || n = 0x2028 || n = 0x2029 || n = 0x202f || n = 0x205f ||
    n = 0x3000

/-- `str::split_whitespace`. -/
def splitWhitespace (raw : String) : List (List Char) :=
  (raw.toList.splitOnP isWhitespace).filter (· ≠ [])

/-- SRC: config.rs:186-205 -/
def parseKeyToken (token : List Char) (raw : String) : Except KeySequenceParseError KeyEvent :=
  match token with
  | 'C' :: '-' :: rest =>
    match rest with
    | [c] => .ok ⟨c, true⟩
    | _ => .error ⟨raw⟩
  | _ =>
    match token with
    | [c] => .ok ⟨c, false⟩
    | _ => .error ⟨raw⟩

/-- SRC: config.rs:180-184 -/
def parseKeySequence (raw : String) : Except KeySequenceParseError (List KeyEvent) :=
  (splitWhitespace raw).mapM fun token => parseKeyToken token raw

namespace TymuxConfig

/-- The hardcoded default; where it did not parse, the client would panic.
SRC: config.rs:106-108, 139-143 -/
def defaultSequence (defaultSeq : String) : Option (List KeyEvent) :=
  (parseKeySequence defaultSeq).toOption

/-- SRC: config.rs:102-116 -/
def defaults : Option TymuxConfig := do
  let bindings ← bindableActions.mapM fun (action, _, defaultSeq) => do
    some (KeyBinding.mk (← defaultSequence defaultSeq) action)
  some ⟨"C-b", bindings⟩

/-- The binding of one action.
SRC: config.rs:138-167 -/
def bindingFor (raw : RawConfig) : Action × String × String → Option KeyBinding
  | (action, configKey, defaultSeq) =>
    match raw.keybindings configKey with
    | none => (defaultSequence defaultSeq).map fun seq => ⟨seq, action⟩
    | some rawValue =>
      match parseKeySequence rawValue with
      | .ok sequence => some ⟨sequence, action⟩
      | .error _ => (defaultSequence defaultSeq).map fun seq => ⟨seq, action⟩

/-- SRC: config.rs:126-171 -/
def fromTomlStr (toml : String → Option RawConfig) (contents : String) : Option TymuxConfig :=
  match toml contents with
  | none => defaults
  | some raw => do
    let bindings ← bindableActions.mapM (bindingFor raw)
    some ⟨raw.leader.getD "C-b", bindings⟩

/-- INTERNAL: the hardcoded defaults parse, so that nothing panics.
SRC: config.rs:106-108 -/
theorem defaultSequence_isSome {entry : Action × String × String} (h : entry ∈ bindableActions) :
    (defaultSequence entry.2.2).isSome = true := by
  revert entry
  decide

theorem bindingFor_isSome (raw : RawConfig) {entry : Action × String × String}
    (h : entry ∈ bindableActions) :
    ∃ sequence, bindingFor raw entry = some ⟨sequence, entry.1⟩ := by
  obtain ⟨seq, hseq⟩ := Option.isSome_iff_exists.mp (defaultSequence_isSome h)
  obtain ⟨action, configKey, defaultSeq⟩ := entry
  have hdefault : (defaultSequence defaultSeq).map (fun seq => KeyBinding.mk seq action) =
      some ⟨seq, action⟩ := by
    rw [show defaultSequence defaultSeq = some seq from hseq, Option.map_some]
  unfold bindingFor
  dsimp only
  cases raw.keybindings configKey with
  | none => exact ⟨seq, hdefault⟩
  | some rawValue =>
      dsimp only
      cases parseKeySequence rawValue with
      | error err => exact ⟨seq, hdefault⟩
      | ok sequence => exact ⟨sequence, rfl⟩

theorem mapM_eq_some {α β : Type*} {f : α → Option β} {l : List α} {l' : List β} :
    l.mapM f = some l' ↔ l.map f = l'.map some := by
  induction l generalizing l' with
  | nil =>
      cases l' <;> simp
  | cons a l ih =>
      rw [List.mapM_cons, List.map_cons]
      constructor
      · intro h
        obtain ⟨b, hb, hrest⟩ := Option.bind_eq_some_iff.mp h
        obtain ⟨bs, hbs, hdone⟩ := Option.bind_eq_some_iff.mp hrest
        cases hdone
        rw [List.map_cons, hb, ih.mp hbs]
      · intro h
        cases l' with
        | nil => cases h
        | cons b l' =>
            rw [List.map_cons, List.cons.injEq] at h
            rw [h.1, ih.mpr h.2]
            rfl

/-- INTERNAL: a configuration is read without a panic.
SRC: config.rs:126-171 -/
theorem fromTomlStr_isSome (toml : String → Option RawConfig) (contents : String)
    {raw : RawConfig} (hraw : toml contents = some raw) :
    ∃ config, fromTomlStr toml contents = some config := by
  have hbindings : bindableActions.mapM (bindingFor raw) =
      some (bindableActions.map fun entry => (bindingFor raw entry).getD ⟨[], entry.1⟩) := by
    rw [mapM_eq_some, List.map_map]
    apply List.map_congr_left
    intro entry hentry
    obtain ⟨sequence, hsequence⟩ := bindingFor_isSome raw hentry
    simp [hsequence]
  unfold fromTomlStr
  simp only [hraw, hbindings]
  exact ⟨_, rfl⟩

end TymuxConfig

end Tymux.Model
