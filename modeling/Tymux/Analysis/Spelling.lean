import Tymux.Analysis.LastPrinted

/-!
# Letters and characters

What a tokenizer makes of a letter, and of the bytes that end a character, tells where it is: a
parser in a sequence or a string prints no letter, and one that has the first bytes of a character
ends it. The concrete tokenizer reads the characters that Unicode has and no others.
-/

set_option autoImplicit false

namespace Tymux.Analysis

open Tymux.Model.Vt

section

variable {σ : Type} (tok : Tokenizer σ)

/-- A letter is not printed: it ends a sequence or belongs to a string. -/
def Deaf (s : σ) : Prop := ∀ b, Letter b → ∀ a ∈ (tok.advance s b).2, Unprinted a

/-- The bytes end with a character after `s`, and with a replacement character after nothing. -/
def Midway (s : σ) : Prop :=
  ∃ (bytes : List UInt8) (c : Char), bytes.contains 0xc2 = false ∧ 0xa0 ≤ c.toNat ∧
    c ≠ Char.ofNat 0xfffd ∧ (∃ before, (tok.advanceAll s bytes).2 = before ++ [.print c]) ∧
    ∃ before, (tok.advanceAll tok.start bytes).2 = before ++ [.print (Char.ofNat 0xfffd)]

/-- The behaviour of `vte` on letters and on the bytes of characters. -/
structure Spells : Prop where
  letters : ∀ b, Letter b → (tok.advance tok.start b).2 = [.print (Char.ofNat b.toNat)]
  /-- A byte that goes on with a character is none by itself. -/
  stray : (tok.advance tok.start 0xa9).2 = [.print (Char.ofNat 0xfffd)]
  /-- Outside of the ground state the parser is inside of a sequence or a string, or of a
  character. -/
  rest : ∀ u, AtRest tok (tok.after u) ∨ Deaf tok (tok.after u) ∨ Midway tok (tok.after u)
  /-- The first byte of a character begins one, or is skipped. -/
  lead : ∀ u, (∀ b, Letter b → ∀ a ∈ (tok.advanceAll (tok.after u) [0xc2, b]).2, Unprinted a) ∨
    ∃ before, (tok.advanceAll (tok.after u) [0xc2, 0xa9]).2 = before ++ [.print (Char.ofNat 0xa9)]

end

/-! ## The concrete tokenizer -/

namespace Vte

theorem deaf_or_ground (s : State) : (∃ bytes, s = .ground bytes) ∨ Deaf vte s := by
  have hdeaf : ∀ s : State, (∀ b, Letter b → ∃ a, (advance s b).2 = [a] ∧ Unprinted a) →
      Deaf vte s := by
    intro s h b hb a ha
    obtain ⟨a', ha', hunprinted⟩ := h b hb
    change a ∈ (advance s b).2 at ha
    rw [ha', List.mem_singleton] at ha
    exact ha ▸ hunprinted
  have hnone : ∀ s : State, (∀ b, Letter b → (advance s b).2 = []) → Deaf vte s := by
    intro s h b hb a ha
    change a ∈ (advance s b).2 at ha
    rw [h b hb] at ha
    exact absurd ha List.not_mem_nil
  cases s with
  | ground bytes => exact Or.inl ⟨bytes, rfl⟩
  | escape =>
      refine Or.inr (hdeaf _ fun b hb => ⟨.escDispatch [] b, ?_, hb⟩)
      obtain rfl | rfl := hb
      · rfl
      · rfl
  | escapeIntermediate intermediates =>
      refine Or.inr (hdeaf _ fun b hb => ⟨.escDispatch intermediates b, ?_, hb⟩)
      obtain rfl | rfl := hb
      · rfl
      · rfl
  | csi head =>
      refine Or.inr fun b hb a ha => ?_
      have hdispatch : a ∈ head.dispatch b := by
        obtain rfl | rfl := hb
        · exact ha
        · exact ha
      unfold Csi.dispatch at hdispatch
      split at hdispatch
      · exact absurd hdispatch List.not_mem_nil
      · rw [List.mem_singleton.mp hdispatch]
        exact ⟨b, hb, rfl⟩
  | osc bytes =>
      refine Or.inr (hnone _ fun b hb => ?_)
      obtain rfl | rfl := hb
      · rfl
      · rfl
  | dcs =>
      refine Or.inr (hdeaf _ fun b hb => ⟨.hook, ?_, trivial⟩)
      obtain rfl | rfl := hb
      · rfl
      · rfl
  | dcsPassthrough =>
      refine Or.inr (hdeaf _ fun b hb => ⟨.put b, ?_, trivial⟩)
      obtain rfl | rfl := hb
      · rfl
      · rfl
  | sosPmApc =>
      refine Or.inr (hnone _ fun b hb => ?_)
      obtain rfl | rfl := hb
      · rfl
      · rfl

/-- The bytes begin a character and do not end it. -/
def Unfinished : List UInt8 → Prop
  | [] => True
  | lead :: rest => rest.length + 1 < charLength lead ∧ (∀ b ∈ rest, 0x80 ≤ b ∧ b ≤ 0xbf) ∧
      ∀ b ∈ rest.head?, secondByte lead b = true

/-- What is read of a character can be one. -/
def State.Spelled : State → Prop
  | .ground bytes => Unfinished bytes
  | _ => True

theorem spelled_groundByte (b : UInt8) : (groundByte b).1.Spelled := by
  unfold groundByte
  split_ifs with hcontrol hascii hdelete hone
  · trivial
  · trivial
  · trivial
  · trivial
  · refine ⟨?_, fun _ h => absurd h List.not_mem_nil, fun _ h => nomatch h⟩
    unfold charLength at hone ⊢
    split_ifs at hone ⊢
    · decide
    · decide
    · decide
    · exact absurd rfl hone

theorem spelled_advanceGround {bytes : List UInt8} (h : Unfinished bytes) (b : UInt8) :
    (advanceGround bytes b).1.Spelled := by
  unfold advanceGround
  split
  · exact spelled_groundByte b
  · rename_i lead rest
    obtain ⟨-, hrest, hsecond⟩ := h
    split_ifs with hnext hmore
    · refine ⟨?_, ?_, ?_⟩
      · show (rest ++ [b]).length + 1 < charLength lead
        rw [List.length_append]
        exact hmore
      · intro c hc
        rcases List.mem_append.mp hc with hold | hnew
        · exact hrest c hold
        · rw [List.mem_singleton.mp hnew]
          exact ⟨hnext.1, hnext.2.1⟩
      · intro c hc
        cases rest with
        | nil =>
            obtain rfl : b = c := by simpa using hc
            exact hnext.2.2.resolve_left fun hne => hne rfl
        | cons first rest => exact hsecond c hc
    · trivial
    · exact spelled_groundByte b

theorem spelled_advance {s : State} (h : s.Spelled) (b : UInt8) : (advance s b).1.Spelled := by
  have hescape : (advanceEscape b).1.Spelled := by
    unfold advanceEscape
    split_ifs <;> trivial
  have hintermediate : ∀ intermediates, (advanceIntermediate intermediates b).1.Spelled := by
    intro intermediates
    unfold advanceIntermediate
    split_ifs <;> trivial
  have hcsi : ∀ head, (advanceCsi head b).1.Spelled := by
    intro head
    unfold advanceCsi
    split_ifs <;> trivial
  have hosc : ∀ bytes, (advanceOsc bytes b).1.Spelled := by
    intro bytes
    unfold advanceOsc
    split_ifs <;> trivial
  unfold advance
  split
  · unfold abort
    split_ifs <;> trivial
  · cases s with
    | ground bytes => exact spelled_advanceGround h b
    | escape => exact hescape
    | escapeIntermediate intermediates => exact hintermediate intermediates
    | csi head => exact hcsi head
    | osc bytes => exact hosc bytes
    | dcs =>
        dsimp only
        split_ifs <;> trivial
    | dcsPassthrough =>
        dsimp only
        split_ifs <;> trivial
    | sosPmApc =>
        dsimp only
        split_ifs <;> trivial

theorem spelled_after (u : List UInt8) : (vte.after u).Spelled := by
  induction u using List.reverseRecOn with
  | nil => trivial
  | append_singleton u b ih =>
      rw [vte.after_append]
      exact spelled_advance ih b

theorem advance_continue {lead b : UInt8} {rest : List UInt8} (hb : 0x80 ≤ b ∧ b ≤ 0xbf)
    (hsecond : rest ≠ [] ∨ secondByte lead b = true) :
    advance (.ground (lead :: rest)) b =
      if rest.length + 2 < charLength lead then (.ground (lead :: rest ++ [b]), [])
      else (.ground [], [.print (decodeChar (lead :: rest ++ [b]))]) := by
  have hends : ¬ (b = 0x1b ∨ b = 0x18 ∨ b = 0x1a) := by
    rintro (rfl | rfl | rfl)
    · exact absurd hb.1 (by decide)
    · exact absurd hb.1 (by decide)
    · exact absurd hb.1 (by decide)
  unfold advance
  rw [if_neg hends]
  show advanceGround (lead :: rest) b = _
  unfold advanceGround
  dsimp only
  rw [if_pos ⟨hb.1, hb.2, hsecond⟩]

theorem advance_stray {b : UInt8} (hb : 0x80 ≤ b ∧ b ≤ 0xbf) :
    advance (.ground []) b = (.ground [], [.print (Char.ofNat 0xfffd)]) := by
  have hone : charLength b = 1 := by
    unfold charLength
    rw [if_neg (by grind), if_neg (by grind), if_neg (by grind)]
  have hends : ¬ (b = 0x1b ∨ b = 0x18 ∨ b = 0x1a) := by grind
  unfold advance
  rw [if_neg hends]
  show groundByte b = _
  unfold groundByte
  rw [if_neg (by grind), if_neg (by grind), if_neg (by grind), if_pos hone]

theorem midway_continue {s s' : State} {b : UInt8} (hb : 0x80 ≤ b ∧ b ≤ 0xbf)
    (hstep : advance s b = (s', [])) (h : Midway vte s') : Midway vte s := by
  obtain ⟨bytes, c, hbytes, hc, hother, ⟨before, hpane⟩, ⟨before', hprimed⟩⟩ := h
  refine ⟨b :: bytes, c, ?_, hc, hother, ⟨before, ?_⟩,
    ⟨.print (Char.ofNat 0xfffd) :: before', ?_⟩⟩
  · rw [List.contains_cons, hbytes, Bool.or_false, beq_eq_false_iff_ne]
    rintro rfl
    exact absurd hb.2 (by decide)
  · rw [vte.advanceAll_cons]
    show (advance s b).2 ++ (vte.advanceAll (advance s b).1 bytes).2 = _
    rw [hstep]
    exact hpane
  · rw [vte.advanceAll_cons]
    show (advance (.ground []) b).2 ++ (vte.advanceAll (advance (.ground []) b).1 bytes).2 = _
    rw [advance_stray hb]
    exact congrArg (List.cons _) hprimed

theorem toNat_ofNat {n : ℕ} (h : n.isValidChar) : (Char.ofNat n).toNat = n := by
  unfold Char.ofNat
  rw [dif_pos h]
  rfl

/-- What the first byte says of the number of bytes, in numbers. -/
theorem charLength_cases (lead : UInt8) :
    (charLength lead = 2 ∧ 0xc2 ≤ lead.toNat ∧ lead.toNat ≤ 0xdf) ∨
    (charLength lead = 3 ∧ 0xe0 ≤ lead.toNat ∧ lead.toNat ≤ 0xef) ∨
    (charLength lead = 4 ∧ 0xf0 ≤ lead.toNat ∧ lead.toNat ≤ 0xf4) ∨ charLength lead = 1 := by
  unfold charLength
  split_ifs with htwo hthree hfour
  · exact Or.inl ⟨rfl, htwo⟩
  · exact Or.inr (Or.inl ⟨rfl, hthree⟩)
  · exact Or.inr (Or.inr (Or.inl ⟨rfl, hfour⟩))
  · exact Or.inr (Or.inr (Or.inr rfl))

/-- The second byte keeps the character from being too low, a surrogate or too high. -/
theorem secondByte_bounds {lead b : UInt8} (h : secondByte lead b = true) :
    (lead.toNat = 0xe0 → 0xa0 ≤ b.toNat) ∧ (lead.toNat = 0xed → b.toNat ≤ 0x9f) ∧
      (lead.toNat = 0xf0 → 0x90 ≤ b.toNat) ∧ (lead.toNat = 0xf4 → b.toNat ≤ 0x8f) := by
  unfold secondByte at h
  refine ⟨fun hlead => ?_, fun hlead => ?_, fun hlead => ?_, fun hlead => ?_⟩
  · rw [if_pos (UInt8.toNat_inj.mp hlead)] at h
    exact of_decide_eq_true h
  · obtain rfl : lead = 0xed := UInt8.toNat_inj.mp hlead
    exact of_decide_eq_true h
  · obtain rfl : lead = 0xf0 := UInt8.toNat_inj.mp hlead
    exact of_decide_eq_true h
  · obtain rfl : lead = 0xf4 := UInt8.toNat_inj.mp hlead
    exact of_decide_eq_true h

/-- INTERNAL: The number of a character whose last byte is `A9`. -/
theorem decodeChar_last {lead : UInt8} {rest : List UInt8} (h : Unfinished (lead :: rest))
    (hlast : rest.length + 2 = charLength lead) :
    ∃ n, decodeChar (lead :: rest ++ [0xa9]) = Char.ofNat n ∧ n.isValidChar ∧
      0xa0 ≤ n ∧ n ≠ 0xfffd := by
  obtain ⟨-, hrest, hfirst⟩ := h
  have hcases := charLength_cases lead
  have hnine : (0xa9 : UInt8).toNat = 0xa9 := rfl
  have hrange : ∀ b ∈ rest, 0x80 ≤ b.toNat ∧ b.toNat ≤ 0xbf := fun b hb => hrest b hb
  match rest, hlast, hrange, hfirst with
  | [], hlast, _, _ =>
      refine ⟨_, rfl, ?_, ?_, ?_⟩
      · unfold Nat.isValidChar
        rw [hnine]
        simp only [List.length_nil] at hlast
        omega
      · rw [hnine]
        simp only [List.length_nil] at hlast
        omega
      · rw [hnine]
        simp only [List.length_nil] at hlast
        omega
  | [b], hlast, hrange, hfirst =>
      obtain ⟨hb, hb'⟩ := hrange b (List.mem_singleton_self b)
      obtain ⟨hlow, hsurrogate, -, -⟩ := secondByte_bounds (hfirst b rfl)
      simp only [List.length_singleton] at hlast
      refine ⟨_, rfl, ?_, ?_, ?_⟩
      · unfold Nat.isValidChar
        rw [hnine]
        omega
      · rw [hnine]
        omega
      · rw [hnine]
        omega
  | [b, c], hlast, hrange, hfirst =>
      obtain ⟨hb, hb'⟩ := hrange b (List.mem_cons_self ..)
      obtain ⟨hc, hc'⟩ := hrange c (List.mem_cons_of_mem _ (List.mem_singleton_self c))
      obtain ⟨-, -, hlow, hhigh⟩ := secondByte_bounds (hfirst b rfl)
      simp only [List.length_cons, List.length_nil] at hlast
      refine ⟨_, rfl, ?_, ?_, ?_⟩
      · unfold Nat.isValidChar
        rw [hnine]
        omega
      · rw [hnine]
        omega
      · rw [hnine]
        omega
  | _ :: _ :: _ :: _, hlast, _, _ =>
      simp only [List.length_cons] at hlast
      omega

/-- A last byte `A9` ends the character. -/
theorem midway_last {lead : UInt8} {rest : List UInt8} (h : Unfinished (lead :: rest))
    (hlast : rest.length + 2 = charLength lead) (hsecond : rest ≠ [] ∨ charLength lead = 2) :
    Midway vte (.ground (lead :: rest)) := by
  have hnext : rest ≠ [] ∨ secondByte lead 0xa9 = true := by
    refine hsecond.imp_right fun htwo => ?_
    unfold charLength at htwo
    unfold secondByte
    grind
  obtain ⟨n, hdecode, hvalid, hlow, hother⟩ := decodeChar_last h hlast
  refine ⟨[0xa9], decodeChar (lead :: rest ++ [0xa9]), rfl, ?_, ?_, ⟨[], ?_⟩, ⟨[], rfl⟩⟩
  · rw [hdecode, toNat_ofNat hvalid]
    exact hlow
  · rw [hdecode]
    intro hsame
    have hnat := congrArg Char.toNat hsame
    rw [toNat_ofNat hvalid] at hnat
    exact hother hnat
  · rw [vte.advanceAll_singleton]
    show (advance (.ground (lead :: rest)) 0xa9).2 = _
    rw [advance_continue (by decide) hnext, if_neg (by omega)]
    rfl

/-- A second byte that goes with every first one that has the number of bytes. -/
theorem midway_second {lead : UInt8} (h : 2 < charLength lead) :
    ∃ b, (0x80 ≤ b ∧ b ≤ 0xbf) ∧ secondByte lead b = true ∧
      advance (.ground [lead]) b = (.ground [lead, b], []) := by
  have hsecond : ∃ b, (0x80 ≤ b ∧ b ≤ (0xbf : UInt8)) ∧ secondByte lead b = true := by
    by_cases hlow : lead = 0xed ∨ lead = 0xf4
    · refine ⟨0x80, by decide, ?_⟩
      obtain rfl | rfl := hlow
      · rfl
      · rfl
    · obtain ⟨hed, hf4⟩ := not_or.mp hlow
      refine ⟨0xa9, by decide, ?_⟩
      unfold secondByte
      rw [if_neg hed, if_neg hf4]
      split_ifs <;> rfl
  obtain ⟨b, hb, hsecond⟩ := hsecond
  refine ⟨b, hb, hsecond, ?_⟩
  rw [advance_continue hb (Or.inr hsecond)]
  exact if_pos h

theorem midway_ground {lead : UInt8} {rest : List UInt8} (h : Unfinished (lead :: rest)) :
    Midway vte (.ground (lead :: rest)) := by
  have hcases := charLength_cases lead
  have hshort := h.1
  -- as long as there is more than one byte to come, one that is not the second may be `A9`
  have hmore : ∀ {first : UInt8} {rest : List UInt8}, Unfinished (lead :: first :: rest) →
      Midway vte (.ground (lead :: first :: rest)) := by
    intro first rest h
    have hnext : ∀ {rest : List UInt8}, Unfinished (lead :: first :: rest) →
        rest.length + 3 = charLength lead → Midway vte (.ground (lead :: first :: rest)) :=
      fun h hlast => midway_last h hlast (Or.inl (List.cons_ne_nil _ _))
    by_cases hlast : rest.length + 3 = charLength lead
    · exact hnext h hlast
    · obtain ⟨hlength, hrest, hfirst⟩ := h
      simp only [List.length_cons] at hlength
      obtain rfl : rest = [] := List.length_eq_zero_iff.mp (by omega)
      simp only [List.length_nil] at hlength hlast
      have hadvance : advance (.ground [lead, first]) 0xa9 = (.ground [lead, first, 0xa9], []) := by
        rw [advance_continue (by decide) (Or.inl (List.cons_ne_nil _ _)), if_pos]
        · rfl
        · simp only [List.length_singleton]
          omega
      refine midway_continue (by decide) hadvance (hnext ⟨?_, ?_, hfirst⟩ ?_)
      · simp only [List.length_cons, List.length_nil]
        omega
      · intro b hb
        rcases List.mem_cons.mp hb with rfl | hb
        · exact hrest b (List.mem_singleton_self b)
        · rw [List.mem_singleton.mp hb]
          decide
      · simp only [List.length_singleton]
        omega
  cases rest with
  | cons first rest => exact hmore h
  | nil =>
      by_cases htwo : charLength lead = 2
      · exact midway_last h htwo.symm (Or.inr htwo)
      · simp only [List.length_nil] at hshort
        have hlength : 2 < charLength lead := by omega
        obtain ⟨b, hb, hsecond, hadvance⟩ := midway_second hlength
        refine midway_continue hb hadvance (hmore ⟨?_, ?_, ?_⟩)
        · simp only [List.length_singleton]
          omega
        · intro c hc
          rw [List.mem_singleton.mp hc]
          exact hb
        · intro c hc
          obtain rfl : b = c := by simpa using hc
          exact hsecond

end Vte

theorem spells_vte : Spells vte where
  letters := by
    rintro b (rfl | rfl)
    · rfl
    · rfl
  stray := rfl
  rest := by
    intro u
    obtain ⟨bytes, hground⟩ | hdeaf := Vte.deaf_or_ground (vte.after u)
    · have hspelled := Vte.spelled_after u
      rw [hground] at hspelled ⊢
      cases bytes with
      | nil => exact Or.inl rfl
      | cons lead rest => exact Or.inr (Or.inr (Vte.midway_ground hspelled))
    · exact Or.inr (Or.inl hdeaf)
  lead := by
    intro u
    have hskips : ∀ s s' : Vte.State, Vte.advance s 0xc2 = (s', []) → Deaf vte s' →
        ∀ b, Letter b → ∀ a ∈ (vte.advanceAll s [0xc2, b]).2, Unprinted a := by
      intro s s' hstep hdeaf b hb a ha
      rw [vte.advanceAll_cons, vte.advanceAll_singleton] at ha
      change a ∈ (Vte.advance s 0xc2).2 ++ (Vte.advance (Vte.advance s 0xc2).1 b).2 at ha
      rw [hstep] at ha
      exact hdeaf b hb a ha
    have hdeaf : ∀ s : Vte.State, (∀ bytes, s ≠ .ground bytes) → Deaf vte s := fun s hs =>
      (Vte.deaf_or_ground s).resolve_left fun ⟨bytes, hground⟩ => hs bytes hground
    cases vte.after u with
    | ground bytes =>
        refine Or.inr ⟨(Vte.advance (.ground bytes) 0xc2).2, ?_⟩
        have hlead : (Vte.advance (.ground bytes) 0xc2).1 = .ground [0xc2] := by
          cases bytes with
          | nil => rfl
          | cons b bytes => rfl
        rw [vte.advanceAll_cons, vte.advanceAll_singleton]
        show _ ++ (Vte.advance (Vte.advance (.ground bytes) 0xc2).1 0xa9).2 = _
        rw [hlead]
        rfl
    | escape => exact Or.inl (hskips _ _ rfl (hdeaf _ nofun))
    | escapeIntermediate intermediates => exact Or.inl (hskips _ _ rfl (hdeaf _ nofun))
    | csi head => exact Or.inl (hskips _ _ rfl (hdeaf _ nofun))
    | osc bytes => exact Or.inl (hskips _ _ rfl (hdeaf _ nofun))
    | dcs => exact Or.inl (hskips _ _ rfl (hdeaf _ nofun))
    | dcsPassthrough => exact Or.inl (hskips _ _ rfl (hdeaf _ nofun))
    | sosPmApc => exact Or.inl (hskips _ _ rfl (hdeaf _ nofun))

end Tymux.Analysis
