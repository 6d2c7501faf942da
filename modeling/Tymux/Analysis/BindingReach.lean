import Tymux.Model.Config
import Tymux.Analysis.PasteIsolation

/-!
# Which bindings can fire

The reassembler fires a binding on a key that arms and a different key that follows, and each of
them is the class of one byte other than `ESC`. The parser accepts much more: sequences of any
length, every character, and Control on each of them. So an action whose string the parser accepts
can fire exactly if the string has two different tokens that a byte can bring about
(`binding_fires_iff`).
-/

set_option autoImplicit false

namespace Tymux.Analysis

open Tymux.Model KeystrokeReassembler TymuxConfig

/-- Some bytes make the action fire and forward nothing. -/
def Fires (r : KeystrokeReassembler UInt8) (action : Action) : Prop :=
  ∃ bytes, .action action ∈ (r.process id bytes).2 ∧
    ∀ forwarded, .forward forwarded ∉ (r.process id bytes).2

/-- A token that one byte other than `ESC` brings about: Control with a small letter, or a
character of one byte that is neither a control character with a letter nor `ESC`. -/
def TypableToken (token : List Char) : Prop :=
  (∃ c, token = ['C', '-', c] ∧ 'a'.toNat ≤ c.toNat ∧ c.toNat ≤ 'z'.toNat) ∨
    ∃ c, token = [c] ∧ (c.toNat = 0 ∨ 28 ≤ c.toNat ∧ c.toNat ≤ 255)

/-- Two different such tokens. -/
def TypablePair (raw : String) : Prop :=
  ∃ first second, splitWhitespace raw = [first, second] ∧ first ≠ second ∧
    TypableToken first ∧ TypableToken second

/-! ## Tokens and bytes -/

/-- The only token of a key. -/
def tokenOf (key : KeyEvent) : List Char :=
  if key.control then ['C', '-', key.char] else [key.char]

/-- INTERNAL: what the parser of a token accepts.
SRC: config.rs:186-205 -/
theorem parseKeyToken_eq_ok {token : List Char} {raw : String} {key : KeyEvent} :
    parseKeyToken token raw = .ok key ↔ token = tokenOf key := by
  obtain ⟨char, control⟩ := key
  constructor
  · intro h
    unfold parseKeyToken at h
    split at h
    case h_1 =>
      split at h
      case h_1 =>
        cases h
        rfl
      case h_2 => cases h
    case h_2 =>
      split at h
      case h_1 =>
        cases h
        rfl
      case h_2 => cases h
  · rintro rfl
    cases control with
    | true => rfl
    | false =>
        change parseKeyToken [char] raw = _
        unfold parseKeyToken
        split
        case h_1 heq => cases heq
        case h_2 => rfl

theorem tokenOf_inj {key key' : KeyEvent} (h : tokenOf key = tokenOf key') : key = key' := by
  obtain ⟨char, control⟩ := key
  obtain ⟨char', control'⟩ := key'
  cases control <;> cases control' <;> simp [tokenOf] at h ⊢
  all_goals exact h

/-- INTERNAL: the tokens that can be typed are those of the bytes.
SRC: input.rs:166-179 -/
theorem typableToken_iff {token : List Char} :
    TypableToken token ↔ ∃ b : UInt8, b ≠ 0x1b ∧ token = tokenOf (classifyByte b) := by
  have ha : 'a'.toNat = 97 := rfl
  have hz : 'z'.toNat = 122 := rfl
  have hesc : (0x1b : UInt8).toNat = 27 := rfl
  have hback : ∀ n, n ≤ 255 → (UInt8.ofNat n).toNat = n := fun n hn =>
    UInt8.toNat_ofNat_of_lt' (lt_of_le_of_lt hn (by decide))
  constructor
  · rintro (⟨c, rfl, hlow, hhigh⟩ | ⟨c, rfl, hc⟩)
    · have hn := hback (c.toNat - 96) (by omega)
      refine ⟨UInt8.ofNat (c.toNat - 96), ?_, ?_⟩
      · intro heq
        rw [heq] at hn
        omega
      · have hsame : 97 + (c.toNat - 96) - 1 = c.toNat := by omega
        unfold classifyByte
        rw [hn, if_pos (by omega), hsame, Char.ofNat_toNat]
        rfl
    · have hn := hback c.toNat (by omega)
      refine ⟨UInt8.ofNat c.toNat, ?_, ?_⟩
      · intro heq
        rw [heq] at hn
        omega
      · unfold classifyByte
        rw [hn, if_neg (by omega), Char.ofNat_toNat]
        rfl
  · rintro ⟨b, hb, rfl⟩
    have hlt := b.toNat_lt
    have hne : b.toNat ≠ 27 := fun heq => hb (UInt8.toNat_inj.mp heq)
    unfold classifyByte
    split_ifs with hctrl
    · have hn : (Char.ofNat (97 + b.toNat - 1)).toNat = 97 + b.toNat - 1 :=
        toNat_charOfNat (by omega)
      exact Or.inl ⟨Char.ofNat (97 + b.toNat - 1), rfl, by omega, by omega⟩
    · have hn : (Char.ofNat b.toNat).toNat = b.toNat := toNat_charOfNat (by omega)
      exact Or.inr ⟨Char.ofNat b.toNat, rfl, by omega⟩

theorem mapM_parseKeyToken {tokens : List (List Char)} {raw : String}
    {sequence : List KeyEvent} :
    (tokens.mapM fun token => parseKeyToken token raw) = .ok sequence →
      tokens = sequence.map tokenOf := by
  induction tokens generalizing sequence with
  | nil =>
      intro h
      cases h
      rfl
  | cons token tokens ih =>
      intro h
      rw [List.mapM_cons] at h
      cases hkey : parseKeyToken token raw with
      | error err =>
          rw [hkey] at h
          cases h
      | ok key =>
          rw [hkey] at h
          cases hkeys : tokens.mapM fun token => parseKeyToken token raw with
          | error err =>
              rw [hkeys] at h
              cases h
          | ok keys =>
              rw [hkeys] at h
              cases h
              rw [List.map_cons, ← ih hkeys, ← parseKeyToken_eq_ok.mp hkey]

/-- INTERNAL: the string of two different keys that can be typed.
SRC: config.rs:180-184 -/
theorem typablePair_iff {raw : String} {sequence : List KeyEvent}
    (h : parseKeySequence raw = .ok sequence) :
    TypablePair raw ↔ ∃ b b' : UInt8, b ≠ 0x1b ∧ b' ≠ 0x1b ∧
      classifyByte b ≠ classifyByte b' ∧ sequence = [classifyByte b, classifyByte b'] := by
  have htokens : splitWhitespace raw = sequence.map tokenOf := mapM_parseKeyToken h
  have hinj : Function.Injective tokenOf := fun _ _ => tokenOf_inj
  unfold TypablePair
  rw [htokens]
  constructor
  · rintro ⟨first, second, hpair, hdiffer, hfirst, hsecond⟩
    obtain ⟨b, hb, rfl⟩ := typableToken_iff.mp hfirst
    obtain ⟨b', hb', rfl⟩ := typableToken_iff.mp hsecond
    refine ⟨b, b', hb, hb', fun heq => hdiffer (by rw [heq]), ?_⟩
    exact hinj.list_map hpair
  · rintro ⟨b, b', hb, hb', hdiffer, rfl⟩
    exact ⟨_, _, rfl, fun heq => hdiffer (tokenOf_inj heq), typableToken_iff.mpr ⟨b, hb, rfl⟩,
      typableToken_iff.mpr ⟨b', hb', rfl⟩⟩

/-! ## Two keys fire -/

section Reassembler

variable {r : KeystrokeReassembler UInt8} {action : Action}

/-- INTERNAL: a key that arms, and then another.
SRC: input.rs:117-144 -/
theorem process_pair (hscan : r.scan = .normal) (hidle : r.armed = none) {b b' : UInt8}
    (hb : b ≠ 0x1b) (hb' : b' ≠ 0x1b) (hdiffer : classifyByte b ≠ classifyByte b')
    (harms : r.arms (classifyByte b) = true) {binding : KeyBinding}
    (hfind : r.findBinding (classifyByte b) (classifyByte b') = some binding) :
    (r.process id [b, b']).2 = [.action binding.action] := by
  have hfirst : r.processByte id b =
      ({ r with armed := some ([b], classifyByte b) }, []) := by
    simp [processByte, hscan, hb, handleNormalByte, hidle, harms]
  have hsecond : (KeystrokeReassembler.processByte id
      { r with armed := some ([b], classifyByte b) } b').2 = [.action binding.action] := by
    unfold processByte
    simp only [hscan]
    rw [if_neg (show ¬ id b' = 0x1b from hb')]
    unfold handleNormalByte
    dsimp only
    rw [if_neg (show ¬ classifyByte (id b') = classifyByte b from hdiffer.symm)]
    have hfind' : ({ r with armed := none, scan := .normal } :
        KeystrokeReassembler UInt8).findBinding (classifyByte b) (classifyByte b') =
          some binding := hfind
    dsimp only [id]
    rw [hfind']
  simp only [process, hfirst, hsecond, List.nil_append, List.append_nil]

/-- What is armed is the key of a byte other than `ESC`. -/
def ArmedKey (r : KeystrokeReassembler UInt8) : Prop :=
  ∀ bytes key, r.armed = some (bytes, key) → ∃ b : UInt8, b ≠ 0x1b ∧ key = classifyByte b

theorem armedKey_processByte (h : ArmedKey r) (b : UInt8) : ArmedKey (r.processByte id b).1 := by
  unfold processByte
  cases hscan : r.scan with
  | normal =>
      dsimp only
      split_ifs with hb
      · exact h
      · unfold handleNormalByte
        cases harmed : r.armed with
        | none =>
            dsimp only
            split_ifs
            · intro bytes key heq
              cases heq
              exact ⟨b, hb, rfl⟩
            · exact h
        | some armed =>
            dsimp only
            split_ifs
            · exact fun _ _ heq => nomatch heq
            · split <;> exact fun _ _ heq => nomatch heq
  | matchingPasteStart buf =>
      dsimp only
      split_ifs <;> exact h
  | inPaste buf =>
      dsimp only
      split_ifs <;> exact h

/-- INTERNAL: an action fires on the second of two different keys.
SRC: input.rs:134-144 -/
theorem fires_processByte {b : UInt8} (h : .action action ∈ (r.processByte id b).2) :
    ∃ bytes key binding, r.armed = some (bytes, key) ∧ b ≠ 0x1b ∧ key ≠ classifyByte b ∧
      r.findBinding key (classifyByte b) = some binding ∧ binding.action = action := by
  unfold processByte at h
  cases hscan : r.scan with
  | normal =>
      simp only [hscan] at h
      split_ifs at h with hb
      · cases h
      · unfold handleNormalByte at h
        cases harmed : r.armed with
        | none =>
            simp only [harmed] at h
            split_ifs at h <;> simp at h
        | some armed =>
            obtain ⟨bytes, key⟩ := armed
            simp only [harmed] at h
            split_ifs at h with hsame
            · simp at h
            · split at h
              case h_1 binding hfind =>
                refine ⟨bytes, key, binding, rfl, hb, fun heq => hsame heq.symm, hfind, ?_⟩
                exact (ReassembledOutput.action.inj (List.mem_singleton.mp h)).symm
              case h_2 => simp at h
  | matchingPasteStart buf =>
      simp only [hscan] at h
      split_ifs at h <;> simp at h
  | inPaste buf =>
      simp only [hscan] at h
      split_ifs at h <;> simp at h

theorem fires_process (harmed : ArmedKey r) {bytes : List UInt8}
    (h : .action action ∈ (r.process id bytes).2) :
    ∃ b b' binding, b ≠ 0x1b ∧ b' ≠ 0x1b ∧ classifyByte b ≠ classifyByte b' ∧
      r.findBinding (classifyByte b) (classifyByte b') = some binding ∧
      binding.action = action := by
  induction bytes generalizing r with
  | nil => cases h
  | cons b bytes ih =>
      rcases List.mem_append.mp h with h | h
      · obtain ⟨held, key, binding, hkey, hb, hdiffer, hfind, haction⟩ := fires_processByte h
        obtain ⟨b₀, hb₀, rfl⟩ := harmed held key hkey
        exact ⟨b₀, b, binding, hb₀, hb, hdiffer, hfind, haction⟩
      · obtain ⟨b₁, b₂, binding, hb₁, hb₂, hdiffer, hfind, haction⟩ :=
          ih (armedKey_processByte harmed b) h
        refine ⟨b₁, b₂, binding, hb₁, hb₂, hdiffer, ?_, haction⟩
        rw [← hfind, findBinding, findBinding, (bindings_processByte id r b).1]

end Reassembler

/-! ## The configured actions -/

/-- INTERNAL: the bindings are those of the actions, in their order.
SRC: config.rs:136-169 -/
theorem map_bindingFor {toml : String → Option RawConfig} {contents : String} {raw : RawConfig}
    (hraw : toml contents = some raw) {config : TymuxConfig}
    (hconfig : fromTomlStr toml contents = some config) :
    bindableActions.map (bindingFor raw) = config.bindings.map some := by
  unfold fromTomlStr at hconfig
  simp only [hraw] at hconfig
  obtain ⟨bindings, hbindings, hdone⟩ := Option.bind_eq_some_iff.mp hconfig
  cases hdone
  exact mapM_eq_some.mp hbindings

/-- INTERNAL: no two bindings are for the same action. -/
theorem binding_unique {raw : RawConfig} {bindings : List KeyBinding}
    (h : bindableActions.map (bindingFor raw) = bindings.map some) {binding binding' : KeyBinding}
    (hb : binding ∈ bindings) (hb' : binding' ∈ bindings)
    (hsame : binding.action = binding'.action) : binding = binding' := by
  have hactions : bindings.map KeyBinding.action = bindableActions.map Prod.fst := by
    apply List.map_injective_iff.mpr (Option.some_injective _)
    rw [List.map_map, List.map_map]
    have hmapped := congrArg (List.map (Option.map KeyBinding.action)) h
    rw [List.map_map, List.map_map] at hmapped
    refine hmapped.symm.trans (List.map_congr_left ?_)
    intro entry hentry
    obtain ⟨sequence, hsequence⟩ := bindingFor_isSome raw hentry
    rw [Function.comp_apply, hsequence]
    rfl
  have hnodup : (bindings.map KeyBinding.action).Nodup := by
    rw [hactions]
    decide
  exact List.inj_on_of_nodup_map hnodup hb hb' hsame

/-- INTERNAL: the binding of an action with a sequence of its own.
SRC: input.rs:79-157 -/
theorem fires_iff {raw : RawConfig} {bindings : List KeyBinding}
    (hmap : bindableActions.map (bindingFor raw) = bindings.map some) {i : ℕ} {action : Action}
    {sequence : List KeyEvent} (hthis : bindings[i]? = some ⟨sequence, action⟩)
    (hdiffer : ∀ binding ∈ bindings.take i, binding.sequence ≠ sequence)
    {r : KeystrokeReassembler UInt8} (hbindings : r.bindings = bindings)
    (hscan : r.scan = .normal) (hidle : r.armed = none) :
    Fires r action ↔ ∃ b b' : UInt8, b ≠ 0x1b ∧ b' ≠ 0x1b ∧
      classifyByte b ≠ classifyByte b' ∧ sequence = [classifyByte b, classifyByte b'] := by
  have hmem : (⟨sequence, action⟩ : KeyBinding) ∈ bindings := List.mem_of_getElem? hthis
  constructor
  · rintro ⟨bytes, hfires, -⟩
    have hnone : ArmedKey r := by
      intro bytes key hkey
      rw [hidle] at hkey
      cases hkey
    obtain ⟨b, b', binding, hb, hb', hkeys, hfind, haction⟩ := fires_process hnone hfires
    refine ⟨b, b', hb, hb', hkeys, ?_⟩
    rw [findBinding, hbindings] at hfind
    have hsequence : binding.sequence = [classifyByte b, classifyByte b'] := by
      simpa using List.find?_some hfind
    have hsame := binding_unique hmap (List.mem_of_find?_eq_some hfind) hmem haction
    rw [hsame] at hsequence
    exact hsequence
  · rintro ⟨b, b', hb, hb', hkeys, rfl⟩
    have harms : r.arms (classifyByte b) = true := by
      rw [arms, hbindings, Bool.or_eq_true]
      exact Or.inr (List.any_eq_true.mpr ⟨_, hmem, decide_eq_true rfl⟩)
    have hfind : r.findBinding (classifyByte b) (classifyByte b') =
        some ⟨[classifyByte b, classifyByte b'], action⟩ := by
      obtain ⟨hlt, hget⟩ := List.getElem?_eq_some_iff.mp hthis
      have hbefore : (bindings.take i).find? (fun bnd =>
          decide (bnd.sequence = [classifyByte b, classifyByte b'])) = none := by
        rw [List.find?_eq_none]
        intro binding hbinding
        simpa using hdiffer binding hbinding
      rw [findBinding, hbindings, ← List.take_append_drop i bindings,
        List.find?_append, hbefore, Option.none_or, List.drop_eq_getElem_cons hlt, hget]
      exact List.find?_cons_of_pos (decide_eq_true rfl)
    have hout := process_pair hscan hidle hb hb' hkeys harms hfind
    refine ⟨[b, b'], ?_, ?_⟩
    · rw [hout]
      exact List.mem_singleton_self _
    · intro bytes hforward
      rw [hout] at hforward
      cases List.mem_singleton.mp hforward

/-- INTERNAL: the binding of an action whose string the parser accepts.
SRC: config.rs:150-155 -/
theorem getElem?_bindings {raw : RawConfig} {bindings : List KeyBinding}
    (hmap : bindableActions.map (bindingFor raw) = bindings.map some) {i : ℕ} {action : Action}
    {configKey defaultSeq : String}
    (hentry : bindableActions[i]? = some (action, configKey, defaultSeq)) {rawValue : String}
    (hvalue : raw.keybindings configKey = some rawValue) {sequence : List KeyEvent}
    (hparse : parseKeySequence rawValue = .ok sequence) :
    bindings[i]? = some ⟨sequence, action⟩ := by
  have hi := congrArg (·[i]?) hmap
  have hbinding : bindingFor raw (action, configKey, defaultSeq) = some ⟨sequence, action⟩ := by
    simp only [bindingFor, hvalue, hparse]
  simp only [List.getElem?_map, hentry, Option.map_some, hbinding] at hi
  obtain ⟨binding, hget, hsame⟩ := Option.map_eq_some_iff.mp hi.symm
  rw [hget, Option.some_inj.mp hsame]

/-- **Which bindings can fire.** An action whose string the parser accepts, as a sequence that no
action before it has, can fire if and only if the string is that of two different keys that a byte
other than `ESC` brings about.
SRC: config.rs:126-205, input.rs:79-184 -/
theorem binding_fires_iff (toml : String → Option RawConfig) {contents : String} {raw : RawConfig}
    (hraw : toml contents = some raw) {config : TymuxConfig}
    (hconfig : fromTomlStr toml contents = some config) {i : ℕ} {action : Action}
    {configKey defaultSeq : String}
    (hentry : bindableActions[i]? = some (action, configKey, defaultSeq)) {rawValue : String}
    (hvalue : raw.keybindings configKey = some rawValue) {sequence : List KeyEvent}
    (hparse : parseKeySequence rawValue = .ok sequence)
    (hdiffer : ∀ binding ∈ config.bindings.take i, binding.sequence ≠ sequence)
    {r : KeystrokeReassembler UInt8} (hbindings : r.bindings = config.bindings)
    (hscan : r.scan = .normal) (hidle : r.armed = none) :
    Fires r action ↔ TypablePair rawValue := by
  have hmap := map_bindingFor hraw hconfig
  rw [typablePair_iff hparse]
  exact fires_iff hmap (getElem?_bindings hmap hentry hvalue hparse) hdiffer hbindings hscan hidle

/-- What the TOML parser reads from a text that binds `detach` alone. -/
def detachOnly (rawValue : String) : RawConfig where
  leader := none
  keybindings := fun configKey => if configKey = "detach" then some rawValue else none

/-- INTERNAL: `detach = "C-a d"` can fire. -/
theorem binding_fires_iff_detach : ∃ config,
    fromTomlStr (fun _ => some (detachOnly "C-a d")) "[keybindings]\ndetach = \"C-a d\"\n" =
      some config ∧ (Fires (new config) .detach ↔ TypablePair "C-a d") := by
  obtain ⟨config, hconfig⟩ := fromTomlStr_isSome (fun _ => some (detachOnly "C-a d"))
    "[keybindings]\ndetach = \"C-a d\"\n" rfl
  refine ⟨config, hconfig, ?_⟩
  have hparse : parseKeySequence "C-a d" = .ok [⟨'a', true⟩, ⟨'d', false⟩] := by decide
  exact binding_fires_iff _ rfl hconfig (i := 0) rfl rfl hparse
    (fun _ h => absurd h List.not_mem_nil) rfl rfl rfl

/-- INTERNAL: `detach = "C-D d"` is accepted, and no bytes make it fire: a byte brings about Control
only together with a small letter.
SRC: config.rs:173-184, input.rs:166-179 -/
theorem upper_case_binding_dead : ∃ config,
    fromTomlStr (fun _ => some (detachOnly "C-D d")) "[keybindings]\ndetach = \"C-D d\"\n" =
      some config ∧
    config.bindings[0]? = some ⟨[⟨'D', true⟩, ⟨'d', false⟩], .detach⟩ ∧
    ¬ Fires (new config) .detach := by
  obtain ⟨config, hconfig⟩ := fromTomlStr_isSome (fun _ => some (detachOnly "C-D d"))
    "[keybindings]\ndetach = \"C-D d\"\n" rfl
  have hparse : parseKeySequence "C-D d" = .ok [⟨'D', true⟩, ⟨'d', false⟩] := by decide
  have hmap := map_bindingFor rfl hconfig
  have hthis := getElem?_bindings hmap (i := 0) rfl rfl hparse
  refine ⟨config, hconfig, hthis, ?_⟩
  rw [fires_iff hmap hthis (fun _ h => absurd h List.not_mem_nil) (r := new config) rfl rfl rfl]
  rintro ⟨b, b', hb, -, -, hsequence⟩
  have hkey : (⟨'D', true⟩ : KeyEvent) = classifyByte b := (List.cons.inj hsequence).1
  have htoken : TypableToken (tokenOf ⟨'D', true⟩) := typableToken_iff.mpr ⟨b, hb, by rw [hkey]⟩
  rcases htoken with ⟨c, hc, hlow, -⟩ | ⟨c, hc, -⟩
  · have hchar : c = 'D' := by simpa [tokenOf] using hc.symm
    rw [hchar] at hlow
    exact absurd hlow (by decide)
  · simp [tokenOf] at hc

end Tymux.Analysis
