import Tymux.Analysis.SgrSequence
import Tymux.Model.Vt.Perform
import Mathlib.Tactic.IntervalCases

/-!
# The difference of two pens

An SGR sequence that is written for the difference of two sets of attributes makes the one of the
other. The written parameters are a list of pieces, one for each field; a piece sets its field and
leaves the others (`Sets`), whatever comes behind it.
-/

set_option autoImplicit false

namespace Tymux.Analysis

open Tymux.Lib Tymux.Model Tymux.Model.Vt

/-! ## Attributes -/

/-- The style of an underline that is off is the default. -/
def StyleKept (a : Attrs) : Prop := a.underline = false → a.underlineStyle = .single

/-- The numbers of a colour are bytes. -/
def ColorFits : Color → Prop
  | .default => True
  | .idx i => i ≤ 255
  | .rgb r g b => r ≤ 255 ∧ g ≤ 255 ∧ b ≤ 255

/-- The numbers of all colours are. -/
structure ColorsFit (a : Attrs) : Prop where
  fgcolor : ColorFits a.fgcolor
  bgcolor : ColorFits a.bgcolor
  ulcolor : ColorFits a.ulcolor

theorem styleKept_setUnderline (a : Attrs) (style : Option UnderlineStyle) :
    StyleKept (a.setUnderline style) := by
  cases style with
  | none => exact fun _ => rfl
  | some style => exact fun hoff => absurd hoff (show ¬ true = false by decide)

/-- SGR sequences leave no style on an underline that is off. -/
theorem styleKept_sgrOne {a a' : Attrs} {p : List ℕ} (h : StyleKept a)
    (hone : Screen.sgrOne a p = some a') : StyleKept a' := by
  unfold Screen.sgrOne at hone
  split at hone
  case h_30 =>
    split_ifs at hone
    all_goals
      rw [← Option.some_inj.mp hone]
      exact h
  case h_31 => cases hone
  all_goals
    rw [← Option.some_inj.mp hone]
    first | exact h | exact styleKept_setUnderline a _ | exact fun _ => rfl

theorem styleKept_sgrLoop {a : Attrs} (h : StyleKept a) (fuel : ℕ) (params : List (List ℕ)) :
    StyleKept (Screen.sgrLoop fuel a params).1 := by
  induction fuel generalizing a params with
  | zero => exact h
  | succ fuel ih =>
      cases params with
      | nil => exact h
      | cons p rest =>
          unfold Screen.sgrLoop
          dsimp only
          split
          case h_4 =>
              cases hone : Screen.sgrOne a p with
              | none => exact ih h rest
              | some a' => exact ih (styleKept_sgrOne h hone) rest
          case h_1 =>
              cases Screen.extendedColor _ rest with
              | none => exact h
              | some r => exact ih (a := { a with fgcolor := r.1 }) h r.2
          case h_2 =>
              cases Screen.extendedColor _ rest with
              | none => exact h
              | some r => exact ih (a := { a with bgcolor := r.1 }) h r.2
          case h_3 =>
              cases Screen.extendedColor _ rest with
              | none => exact h
              | some r => exact ih (a := { a with ulcolor := r.1 }) h r.2

/-! ## What is written -/

/-- SRC: term.rs:214-240 -/
def colorParams (default lo hi ext : ℕ) : Color → List (List ℕ)
  | .default => [[default]]
  | .idx i =>
    if lo ≠ 0 ∧ i < 8 then [[i + lo]]
    else if lo ≠ 0 ∧ i < 16 then [[i + hi]]
    else [[ext], [5], [i]]
  | .rgb r g b => [[ext], [2], [r], [g], [b]]

/-- SRC: term.rs:252-260 -/
def intensityParams (intensity : Bool × Bool) : List (List ℕ) :=
  [[22]] ++ (if intensity.1 then [[1]] else []) ++ if intensity.2 then [[2]] else []

/-- SRC: term.rs:266-290 -/
def underlineParams : Option UnderlineStyle → List (List ℕ)
  | none => [[24]]
  | some .single => [[4]]
  | some .double => [[4, 2]]
  | some .curly => [[4, 3]]
  | some .dotted => [[4, 4]]
  | some .dashed => [[4, 5]]

def flagParams (on off : ℕ) (flag : Bool) : List (List ℕ) := [[if flag then on else off]]

/-- The parameters that are written.
SRC: term.rs:184-309 -/
def termParams (t : Term.Attrs) : List (List ℕ) :=
  t.fgcolor.elim [] (colorParams 39 30 82 38) ++ t.bgcolor.elim [] (colorParams 49 40 92 48) ++
    t.ulcolor.elim [] (colorParams 59 0 0 58) ++ t.intensity.elim [] intensityParams ++
    t.italic.elim [] (flagParams 3 23) ++ t.underline.elim [] underlineParams ++
    t.inverse.elim [] (flagParams 7 27) ++ t.strikethrough.elim [] (flagParams 9 29) ++
    t.blink.elim [] (flagParams 5 25) ++ t.conceal.elim [] (flagParams 8 28) ++
    t.overline.elim [] (flagParams 53 55)

/-- The buffer is the beginning of a sequence with these parameters. -/
structure Bears (w : Term.Written) (params : List (List ℕ)) : Prop where
  buf : w.buf = [0x1b, 0x5b] ++ [0x3b].intercalate (params.map paramBytes)
  first : w.first = params.isEmpty

section

variable {w : Term.Written} {params : List (List ℕ)}

theorem Bears.push (h : Bears w params) (param : List ℕ) :
    Bears (w.push (paramBytes param)) (params ++ [param]) := by
  constructor
  · unfold Term.Written.push
    dsimp only
    rw [h.buf, h.first, List.map_append, List.map_singleton, intercalate_concat, List.isEmpty_map]
    cases params with
    | nil => simp
    | cons p ps => simp
  · simp [Term.Written.push]

theorem Bears.writeParam (h : Bears w params) (i : ℕ) :
    Bears (w.writeParam i) (params ++ [[i]]) := by
  have hpush := h.push [i]
  unfold paramBytes at hpush
  rw [List.map_singleton, List.intercalate_singleton] at hpush
  exact hpush

theorem Bears.writeColor (h : Bears w params) (default lo hi ext : ℕ) (c : Color) :
    Bears (w.writeColor default lo hi ext c) (params ++ colorParams default lo hi ext c) := by
  cases c with
  | default => exact h.writeParam default
  | idx i =>
      unfold Term.Written.writeColor colorParams
      dsimp only
      split_ifs
      · exact h.writeParam _
      · exact h.writeParam _
      · have hthree := ((h.writeParam ext).writeParam 5).writeParam i
        simp only [List.append_assoc, List.singleton_append] at hthree
        exact hthree
  | rgb r g b =>
      have hfive := ((((h.writeParam ext).writeParam 2).writeParam r).writeParam g).writeParam b
      simp only [List.append_assoc, List.singleton_append] at hfive
      exact hfive

theorem Bears.writeIntensity (h : Bears w params) (intensity : Bool × Bool) :
    Bears (w.writeIntensity intensity) (params ++ intensityParams intensity) := by
  obtain ⟨bold, dim⟩ := intensity
  have hclear := h.writeParam 22
  have hbold := hclear.writeParam 1
  have hdim := hclear.writeParam 2
  have hboth := hbold.writeParam 2
  simp only [List.append_assoc, List.singleton_append] at hbold hdim hboth
  cases bold with
  | false =>
      cases dim with
      | false => exact hclear
      | true => exact hdim
  | true =>
      cases dim with
      | false => exact hbold
      | true => exact hboth

theorem Bears.writeUnderline (h : Bears w params) (underline : Option UnderlineStyle) :
    Bears (w.writeUnderline underline) (params ++ underlineParams underline) := by
  match underline with
  | none => exact h.push [24]
  | some .single => exact h.push [4]
  | some .double => exact h.push [4, 2]
  | some .curly => exact h.push [4, 3]
  | some .dotted => exact h.push [4, 4]
  | some .dashed => exact h.push [4, 5]

theorem Bears.writeFlag (h : Bears w params) (on off : ℕ) (flag : Bool) :
    Bears (w.writeFlag on off flag) (params ++ flagParams on off flag) := h.writeParam _

theorem Bears.writeSome {α : Type} (h : Bears w params) (field : Option α)
    {write : Term.Written → α → Term.Written} {piece : α → List (List ℕ)}
    (hwrite : ∀ a, Bears (write w a) (params ++ piece a)) :
    Bears (w.writeSome field write) (params ++ field.elim [] piece) := by
  cases field with
  | none => simpa [Term.Written.writeSome] using h
  | some a => exact hwrite a

end

/-- INTERNAL: The bytes of a sequence are those of its parameters.
SRC: term.rs:184-309 -/
theorem writeBuf_eq (t : Term.Attrs) :
    t.writeBuf = if termParams t = [] then [] else sgrBytes (termParams t) := by
  have hcolor : ∀ default lo hi ext c, colorParams default lo hi ext c ≠ [] := by
    intro default lo hi ext c
    cases c with
    | default => exact List.cons_ne_nil _ _
    | idx i =>
        unfold colorParams
        dsimp only
        split_ifs
        · exact List.cons_ne_nil _ _
        · exact List.cons_ne_nil _ _
        · exact List.cons_ne_nil _ _
    | rgb r g b => exact List.cons_ne_nil _ _
  have hunderline : ∀ u, underlineParams u ≠ [] := by
    intro u
    match u with
    | none => exact List.cons_ne_nil _ _
    | some style => cases style <;> exact List.cons_ne_nil _ _
  have hfield : ∀ {α : Type} (field : Option α) (piece : α → List (List ℕ)),
      (∀ a, piece a ≠ []) → (field.isNone = true ↔ field.elim [] piece = []) := by
    intro α field piece hpiece
    cases field with
    | none => exact iff_of_true rfl rfl
    | some a => exact iff_of_false Bool.false_ne_true (hpiece a)
  have hflag : ∀ on off flag, flagParams on off flag ≠ [] := fun _ _ _ => List.cons_ne_nil _ _
  have hempty : (t.fgcolor.isNone ∧ t.bgcolor.isNone ∧ t.ulcolor.isNone ∧ t.intensity.isNone ∧
      t.italic.isNone ∧ t.underline.isNone ∧ t.inverse.isNone ∧ t.strikethrough.isNone ∧
      t.blink.isNone ∧ t.conceal.isNone ∧ t.overline.isNone) ↔ termParams t = [] := by
    unfold termParams
    simp only [List.append_eq_nil_iff, and_assoc]
    rw [hfield t.fgcolor _ (hcolor 39 30 82 38), hfield t.bgcolor _ (hcolor 49 40 92 48),
      hfield t.ulcolor _ (hcolor 59 0 0 58), hfield t.intensity intensityParams (by simp [intensityParams]),
      hfield t.italic _ (hflag 3 23), hfield t.underline _ hunderline, hfield t.inverse _ (hflag 7 27),
      hfield t.strikethrough _ (hflag 9 29), hfield t.blink _ (hflag 5 25),
      hfield t.conceal _ (hflag 8 28), hfield t.overline _ (hflag 53 55)]
  unfold Term.Attrs.writeBuf
  by_cases hnone : termParams t = []
  · rw [if_pos (hempty.mpr hnone), if_pos hnone]
  rw [if_neg fun h => hnone (hempty.mp h), if_neg hnone]
  have hstart : Bears ⟨[0x1b, 0x5b], true⟩ [] := ⟨rfl, rfl⟩
  have hfg := hstart.writeSome t.fgcolor fun c => hstart.writeColor 39 30 82 38 c
  have hbg := hfg.writeSome t.bgcolor fun c => hfg.writeColor 49 40 92 48 c
  have hul := hbg.writeSome t.ulcolor fun c => hbg.writeColor 59 0 0 58 c
  have hintensity := hul.writeSome t.intensity fun i => hul.writeIntensity i
  have hitalic := hintensity.writeSome t.italic fun f => hintensity.writeFlag 3 23 f
  have hunder := hitalic.writeSome t.underline fun u => hitalic.writeUnderline u
  have hinverse := hunder.writeSome t.inverse fun f => hunder.writeFlag 7 27 f
  have hstrike := hinverse.writeSome t.strikethrough fun f => hinverse.writeFlag 9 29 f
  have hblink := hstrike.writeSome t.blink fun f => hstrike.writeFlag 5 25 f
  have hconceal := hblink.writeSome t.conceal fun f => hblink.writeFlag 8 28 f
  have hoverline := hconceal.writeSome t.overline fun f => hconceal.writeFlag 53 55 f
  rw [List.nil_append] at hoverline
  dsimp only
  rw [hoverline.buf]
  rfl

/-! ## What a tokenizer keeps of it -/

/-- Parameters of at most `k` numbers, which are bytes. -/
structure Numerals (k : ℕ) (params : List (List ℕ)) : Prop where
  full : ∀ param ∈ params, param ≠ []
  bounded : ∀ n ∈ params.flatten, n ≤ 255
  length : params.flatten.length ≤ k

section

variable {k l : ℕ} {params rest : List (List ℕ)}

theorem Numerals.append (h : Numerals k params) (h' : Numerals l rest) :
    Numerals (k + l) (params ++ rest) := by
  constructor
  · rw [List.forall_mem_append]
    exact ⟨h.full, h'.full⟩
  · rw [List.flatten_append, List.forall_mem_append]
    exact ⟨h.bounded, h'.bounded⟩
  · rw [List.flatten_append, List.length_append]
    exact Nat.add_le_add h.length h'.length

/-- The piece of a field. -/
theorem numerals_elim {α : Type} (field : Option α) {piece : α → List (List ℕ)}
    (h : ∀ a, field = some a → Numerals k (piece a)) : Numerals k (field.elim [] piece) := by
  cases field with
  | none => exact ⟨List.forall_mem_nil _, List.forall_mem_nil _, Nat.zero_le _⟩
  | some a => exact h a rfl

theorem Numerals.mono (h : Numerals k params) (hle : k ≤ l) : Numerals l params :=
  ⟨h.full, h.bounded, h.length.trans hle⟩

theorem numerals_singles (ns : List ℕ) (hns : ∀ n ∈ ns, n ≤ 255) :
    Numerals ns.length (ns.map fun n => [n]) := by
  have hflatten : (ns.map fun n => [n]).flatten = ns := by
    rw [← List.flatMap_def]
    exact List.flatMap_singleton' ns
  constructor
  · rw [List.forall_mem_map]
    exact fun n _ => List.cons_ne_nil n []
  · rw [hflatten]
    exact hns
  · rw [hflatten]

end

theorem numerals_color {default lo hi ext : ℕ}
    (hcodes : default ≤ 255 ∧ lo ≤ 240 ∧ hi ≤ 239 ∧ ext ≤ 255) {c : Color} (hc : ColorFits c) :
    Numerals 5 (colorParams default lo hi ext c) := by
  obtain ⟨hdefault, hlo, hhi, hext⟩ := hcodes
  cases c with
  | default => exact (numerals_singles [default] (by simpa using hdefault)).mono (Nat.le_add_left 1 4)
  | idx i =>
      replace hc : i ≤ 255 := hc
      unfold colorParams
      dsimp only
      split_ifs with hlow hhigh
      · exact (numerals_singles [i + lo] (by simp; omega)).mono (Nat.le_add_left 1 4)
      · exact (numerals_singles [i + hi] (by simp; omega)).mono (Nat.le_add_left 1 4)
      · exact (numerals_singles [ext, 5, i] (by simp; omega)).mono (Nat.le_add_left 3 2)
  | rgb r g b =>
      obtain ⟨hr, hg, hb⟩ : r ≤ 255 ∧ g ≤ 255 ∧ b ≤ 255 := hc
      exact numerals_singles [ext, 2, r, g, b] (by simp; omega)

theorem numerals_intensity (intensity : Bool × Bool) : Numerals 3 (intensityParams intensity) := by
  obtain ⟨bold, dim⟩ := intensity
  cases bold <;> cases dim <;> exact ⟨by decide, by decide, by decide⟩

theorem numerals_underline (underline : Option UnderlineStyle) :
    Numerals 2 (underlineParams underline) := by
  match underline with
  | none => exact ⟨by decide, by decide, by decide⟩
  | some style => cases style <;> exact ⟨by decide, by decide, by decide⟩

theorem numerals_flag {on off : ℕ} (hcodes : on ≤ 255 ∧ off ≤ 255) (flag : Bool) :
    Numerals 1 (flagParams on off flag) := by
  apply numerals_singles [if flag then on else off]
  rw [List.forall_mem_singleton]
  split_ifs
  · exact hcodes.1
  · exact hcodes.2

theorem changed_eq_some {α : Type} [DecidableEq α] {now before a : α}
    (h : Attrs.changed now before = some a) : a = now := by
  unfold Attrs.changed at h
  split_ifs at h
  exact (Option.some_inj.mp h).symm

/-- INTERNAL: At most 26 numbers are written: five for each colour, three for the intensity, two for
the underline and one for each flag.
SRC: attrs.rs:126-165 -/
theorem numerals_changes {a : Attrs} (ha : ColorsFit a) (b : Attrs) :
    Numerals 26 (termParams (a.changes b)) := by
  have hcolor : ∀ (default lo hi ext : ℕ) {now : Color} (before : Color),
      (default ≤ 255 ∧ lo ≤ 240 ∧ hi ≤ 239 ∧ ext ≤ 255) → ColorFits now →
        Numerals 5 ((Attrs.changed now before).elim [] (colorParams default lo hi ext)) := by
    intro default lo hi ext now before hcodes hnow
    refine numerals_elim _ fun c hc => numerals_color hcodes ?_
    rw [changed_eq_some hc]
    exact hnow
  have hflag : ∀ (on off : ℕ) (field : Option Bool), on ≤ 255 ∧ off ≤ 255 →
      Numerals 1 (field.elim [] (flagParams on off)) := fun _ _ field hcodes =>
    numerals_elim field fun flag _ => numerals_flag hcodes flag
  have hfg := hcolor 39 30 82 38 b.fgcolor (by decide) ha.fgcolor
  have hbg := hcolor 49 40 92 48 b.bgcolor (by decide) ha.bgcolor
  have hul := hcolor 59 0 0 58 b.ulcolor (by decide) ha.ulcolor
  have hcolors := (hfg.append hbg).append hul
  have hintensity := numerals_elim (a.changes b).intensity fun i _ => numerals_intensity i
  have hunderline := numerals_elim (a.changes b).underline fun u _ => numerals_underline u
  have htext := ((hcolors.append hintensity).append (hflag 3 23 (a.changes b).italic
    (by decide))).append hunderline
  have hshown := ((htext.append (hflag 7 27 (a.changes b).inverse (by decide))).append
    (hflag 9 29 (a.changes b).strikethrough (by decide))).append
      (hflag 5 25 (a.changes b).blink (by decide))
  exact (hshown.append (hflag 8 28 (a.changes b).conceal (by decide))).append
    (hflag 53 55 (a.changes b).overline (by decide))

/-- One separator less than there are pieces. -/
theorem countP_intercalate {α : Type} {P : α → Bool} {sep : α} (hsep : P sep = true)
    {xs : List (List α)} (hne : xs ≠ []) :
    ([sep].intercalate xs).countP P + 1 = (xs.map (List.countP P)).sum + xs.length := by
  induction xs with
  | nil => exact absurd rfl hne
  | cons x xs ih =>
      cases xs with
      | nil => simp
      | cons y ys =>
          have hrest := ih (List.cons_ne_nil _ _)
          rw [List.intercalate_cons_cons, List.countP_append, List.countP_append,
            List.countP_singleton, if_pos hsep, List.map_cons, List.sum_cons, List.length_cons]
          omega

/-- One separator less than there are numbers. -/
theorem separators_sgrBytes {params : List (List ℕ)} (hne : params ≠ [])
    (hfull : ∀ param ∈ params, param ≠ []) :
    (sgrBytes params).countP (fun b => b = 0x3a ∨ b = 0x3b) + 1 = params.flatten.length := by
  have hdigits : ∀ n, (itoa n).countP (fun b => b = 0x3a ∨ b = 0x3b) = 0 := by
    intro n
    rw [List.countP_eq_zero]
    intro b hb
    obtain ⟨-, hhigh⟩ := digits_itoa n b hb
    grind
  have hparam : ∀ param ∈ params,
      (paramBytes param).countP (fun b => b = 0x3a ∨ b = 0x3b) + 1 = param.length := by
    intro param hmem
    unfold paramBytes
    rw [countP_intercalate (by decide) (by simpa using hfull param hmem), List.map_map,
      List.length_map, List.sum_eq_zero, Nat.zero_add]
    rw [List.forall_mem_map]
    exact fun n _ => hdigits n
  have hsum : ((params.map paramBytes).map (List.countP fun b => b = 0x3a ∨ b = 0x3b)).sum +
      params.length = params.flatten.length := by
    clear hne hfull
    induction params with
    | nil => rfl
    | cons param params ih =>
        rw [List.forall_mem_cons] at hparam
        have hrest := ih hparam.2
        simp only [List.map_cons, List.sum_cons, List.length_cons, List.flatten_cons,
          List.length_append]
        omega
  unfold sgrBytes
  rw [List.countP_append, List.countP_append]
  have hbody := @countP_intercalate _ (fun b => b = 0x3a ∨ b = 0x3b) 0x3b (by decide)
    (params.map paramBytes) (by simpa using hne)
  rw [List.length_map, hsum] at hbody
  rw [← hbody]
  simp

/-! ## What is read -/

/-- The parameters make the pen `y` of the pen `x`, whatever follows them. -/
def Sets (params : List (List ℕ)) (x y : Attrs) : Prop :=
  ∀ rest fuel, params.length + rest.length ≤ fuel → ∃ fuel', rest.length ≤ fuel' ∧
    Screen.sgrLoop fuel x (params ++ rest) = Screen.sgrLoop fuel' y rest

section

variable {params more : List (List ℕ)} {x y z : Attrs}

theorem sets_nil (x : Attrs) : Sets [] x x := by
  intro rest fuel hfuel
  rw [List.length_nil, Nat.zero_add] at hfuel
  exact ⟨fuel, hfuel, rfl⟩

theorem Sets.trans (h : Sets params x y) (h' : Sets more y z) : Sets (params ++ more) x z := by
  intro rest fuel hfuel
  rw [List.length_append, Nat.add_assoc] at hfuel
  obtain ⟨mid, hmid, hfirst⟩ := h (more ++ rest) fuel (by rw [List.length_append]; exact hfuel)
  rw [List.length_append] at hmid
  obtain ⟨last, hlast, hsecond⟩ := h' rest mid hmid
  exact ⟨last, hlast, by rw [List.append_assoc, hfirst, hsecond]⟩

/-- A parameter that stands alone. -/
theorem sets_one {p : List ℕ} (hone : Screen.sgrOne x p = some y)
    (hcolor : p.head? ≠ some 38 ∧ p.head? ≠ some 48 ∧ p.head? ≠ some 58) : Sets [p] x y := by
  intro rest fuel hfuel
  rw [List.length_singleton] at hfuel
  obtain ⟨fuel, rfl⟩ : ∃ n, fuel = n + 1 := ⟨fuel - 1, by omega⟩
  refine ⟨fuel, by omega, ?_⟩
  rw [List.singleton_append]
  conv_lhs => unfold Screen.sgrLoop
  dsimp only
  split
  · exact absurd rfl hcolor.1
  · exact absurd rfl hcolor.2.1
  · exact absurd rfl hcolor.2.2
  · rw [hone]

/-- INTERNAL: A colour, for one of the three targets.
SRC: screen.rs:1797-1808, screen.rs:1864-1889 -/
theorem sets_color (put : Color → Attrs) {default lo hi ext : ℕ}
    (hdefault : Sets [[default]] x (put .default))
    (hlow : lo ≠ 0 → ∀ i < 8, Sets [[i + lo]] x (put (.idx i)))
    (hhigh : lo ≠ 0 → ∀ i < 16, 8 ≤ i → Sets [[i + hi]] x (put (.idx i)))
    (hext : ∀ fuel rest, Screen.sgrLoop (fuel + 1) x ([ext] :: rest) =
      match Screen.extendedColor [ext] rest with
      | some (color, rest) => Screen.sgrLoop fuel (put color) rest
      | none => (x, 1)) {c : Color} (hc : ColorFits c) :
    Sets (colorParams default lo hi ext c) x (put c) := by
  have hbyte : ∀ {n}, n ≤ 255 → Screen.toByte n = some n := fun hn => if_pos hn
  cases c with
  | default => exact hdefault
  | idx i =>
      unfold colorParams
      dsimp only
      split_ifs with hlt hmid
      · exact hlow hlt.1 i hlt.2
      · exact hhigh hmid.1 i hmid.2 (Nat.le_of_not_lt fun h => hlt ⟨hmid.1, h⟩)
      · intro rest fuel hfuel
        simp only [List.length_cons, List.length_nil] at hfuel
        obtain ⟨fuel, rfl⟩ : ∃ n, fuel = n + 1 := ⟨fuel - 1, by omega⟩
        refine ⟨fuel, by omega, ?_⟩
        have hread : Screen.extendedColor [ext] ([5] :: [i] :: rest) = some (.idx i, rest) := by
          show (do return (.idx (← Screen.toByte i), rest) : Option (Color × List (List ℕ))) = _
          rw [hbyte hc]
          rfl
        have hloop := hext fuel ([5] :: [i] :: rest)
        rw [hread] at hloop
        exact hloop
  | rgb r g b =>
      obtain ⟨hr, hg, hb⟩ : r ≤ 255 ∧ g ≤ 255 ∧ b ≤ 255 := hc
      intro rest fuel hfuel
      simp only [colorParams, List.length_cons, List.length_nil] at hfuel
      obtain ⟨fuel, rfl⟩ : ∃ n, fuel = n + 1 := ⟨fuel - 1, by omega⟩
      refine ⟨fuel, by omega, ?_⟩
      have hread : Screen.extendedColor [ext] ([2] :: [r] :: [g] :: [b] :: rest) =
          some (.rgb r g b, rest) := by
        simp [Screen.extendedColor, Screen.nextParam, hbyte hr, hbyte hg, hbyte hb]
      have hloop := hext fuel ([2] :: [r] :: [g] :: [b] :: rest)
      rw [hread] at hloop
      exact hloop

theorem sets_fgcolor (x : Attrs) {c : Color} (hc : ColorFits c) :
    Sets (colorParams 39 30 82 38 c) x { x with fgcolor := c } := by
  refine sets_color (fun c => { x with fgcolor := c }) ?_ ?_ ?_ (fun fuel rest => rfl) hc
  · exact sets_one rfl (by decide)
  · intro _ i hi
    interval_cases i <;> exact sets_one rfl (by decide)
  · intro _ i hi hge
    interval_cases i <;> exact sets_one rfl (by decide)

theorem sets_bgcolor (x : Attrs) {c : Color} (hc : ColorFits c) :
    Sets (colorParams 49 40 92 48 c) x { x with bgcolor := c } := by
  refine sets_color (fun c => { x with bgcolor := c }) ?_ ?_ ?_ (fun fuel rest => rfl) hc
  · exact sets_one rfl (by decide)
  · intro _ i hi
    interval_cases i <;> exact sets_one rfl (by decide)
  · intro _ i hi hge
    interval_cases i <;> exact sets_one rfl (by decide)

theorem sets_ulcolor (x : Attrs) {c : Color} (hc : ColorFits c) :
    Sets (colorParams 59 0 0 58 c) x { x with ulcolor := c } := by
  refine sets_color (fun c => { x with ulcolor := c }) ?_ ?_ ?_ (fun fuel rest => rfl) hc
  · exact sets_one rfl (by decide)
  · exact fun hzero => absurd rfl hzero
  · exact fun hzero => absurd rfl hzero

/-- INTERNAL: 22 clears both, and what is on is set again.
SRC: screen.rs:1771, term.rs:252-260 -/
theorem sets_intensity (x : Attrs) (bold dim : Bool) :
    Sets (intensityParams (bold, dim)) x { x with bold, dim } := by
  have hclear : Sets [[22]] x { x with bold := false, dim := false } := sets_one rfl (by decide)
  cases bold with
  | false =>
      cases dim with
      | false => exact hclear
      | true => exact hclear.trans (sets_one (p := [2]) rfl (by decide))
  | true =>
      have hbold := hclear.trans (sets_one (p := [1]) (y := { x with bold := true, dim := false })
        rfl (by decide))
      cases dim with
      | false => exact hbold
      | true => exact hbold.trans (sets_one (p := [2]) rfl (by decide))

theorem sets_underline (x : Attrs) (underline : Option UnderlineStyle) :
    Sets (underlineParams underline) x (x.setUnderline underline) := by
  match underline with
  | none => exact sets_one rfl (by decide)
  | some style => cases style <;> exact sets_one rfl (by decide)

/-- The piece of a field that is written only if it has changed. -/
theorem sets_changed {α : Type} [DecidableEq α] (put : α → Attrs) {now before : α}
    {piece : α → List (List ℕ)} (hput : put before = x) (hset : Sets (piece now) x (put now)) :
    Sets ((Attrs.changed now before).elim [] piece) x (put now) := by
  unfold Attrs.changed
  split_ifs with hne
  · exact hset
  · rw [not_not.mp hne, hput]
    exact sets_nil x

/-- A flag with its two codes. -/
theorem sets_flag (put : Bool → Attrs) {now before : Bool} {on off : ℕ} (hput : put before = x)
    (hon : Sets [[on]] x (put true)) (hoff : Sets [[off]] x (put false)) :
    Sets ((Attrs.changed now before).elim [] (flagParams on off)) x (put now) := by
  refine sets_changed put hput ?_
  cases now with
  | false => exact hoff
  | true => exact hon

end

/-- INTERNAL: The parameters of a difference, one field after another.
SRC: attrs.rs:126-165, screen.rs:1727-1813 -/
theorem sets_changes {a b : Attrs} (ha : StyleKept a) (hfit : ColorsFit a) (hb : StyleKept b) :
    Sets (termParams (a.changes b)) b { a with hyperlink := b.hyperlink } := by
  let fg : Attrs := { b with fgcolor := a.fgcolor }
  let bg : Attrs := { fg with bgcolor := a.bgcolor }
  let ul : Attrs := { bg with ulcolor := a.ulcolor }
  let lit : Attrs := { ul with bold := a.bold, dim := a.dim }
  let slanted : Attrs := { lit with italic := a.italic }
  let under : Attrs := { slanted with underline := a.underline, underlineStyle := a.underlineStyle }
  let inverted : Attrs := { under with inverse := a.inverse }
  let struck : Attrs := { inverted with strikethrough := a.strikethrough }
  let blinking : Attrs := { struck with blink := a.blink }
  let concealed : Attrs := { blinking with conceal := a.conceal }
  have hfg : Sets ((a.changes b).fgcolor.elim [] (colorParams 39 30 82 38)) b fg :=
    sets_changed (fun c => { b with fgcolor := c }) rfl (sets_fgcolor b hfit.fgcolor)
  have hbg : Sets ((a.changes b).bgcolor.elim [] (colorParams 49 40 92 48)) fg bg :=
    sets_changed (fun c => { fg with bgcolor := c }) rfl (sets_bgcolor fg hfit.bgcolor)
  have hul : Sets ((a.changes b).ulcolor.elim [] (colorParams 59 0 0 58)) bg ul :=
    sets_changed (fun c => { bg with ulcolor := c }) rfl (sets_ulcolor bg hfit.ulcolor)
  have hlit : Sets ((a.changes b).intensity.elim [] intensityParams) ul lit := by
    unfold Attrs.changes
    dsimp only
    split_ifs with hne
    · exact sets_intensity ul a.bold a.dim
    · obtain ⟨hbold, hdim⟩ := not_or.mp hne
      have hsame : ul = lit := by simp only [lit, ul, bg, fg, not_not.mp hbold, not_not.mp hdim]
      rw [← hsame]
      exact sets_nil ul
  have hslanted : Sets ((a.changes b).italic.elim [] (flagParams 3 23)) lit slanted :=
    sets_flag (fun on => { lit with italic := on }) rfl (sets_one rfl (by decide))
      (sets_one rfl (by decide))
  have hunder : Sets ((a.changes b).underline.elim [] underlineParams) slanted under := by
    have hstyle : slanted.setUnderline (if a.underline then some a.underlineStyle else none) = under := by
      cases hon : a.underline with
      | false => simp [under, Attrs.setUnderline, hon, ha hon]
      | true => simp [under, Attrs.setUnderline, hon]
    by_cases hne : a.underline ≠ b.underline ∨ (a.underline ∧ a.underlineStyle ≠ b.underlineStyle)
    · unfold Attrs.changes
      dsimp only
      rw [if_pos hne, ← hstyle]
      exact sets_underline slanted _
    · -- an underline that stays off has the default style in both
      obtain ⟨hflag, hstyles⟩ := not_or.mp hne
      have hsame : slanted = under := by
        have hkept : a.underlineStyle = b.underlineStyle := by
          cases hon : a.underline with
          | false => rw [ha hon, hb ((not_not.mp hflag).symm.trans hon)]
          | true => exact not_not.mp fun h => hstyles ⟨hon, h⟩
        simp only [under, slanted, lit, ul, bg, fg, hkept, not_not.mp hflag]
      unfold Attrs.changes
      dsimp only
      rw [if_neg hne, hsame]
      exact sets_nil under
  have hinverted : Sets ((a.changes b).inverse.elim [] (flagParams 7 27)) under inverted :=
    sets_flag (fun on => { under with inverse := on }) rfl (sets_one rfl (by decide))
      (sets_one rfl (by decide))
  have hstruck : Sets ((a.changes b).strikethrough.elim [] (flagParams 9 29)) inverted struck :=
    sets_flag (fun on => { inverted with strikethrough := on }) rfl (sets_one rfl (by decide))
      (sets_one rfl (by decide))
  have hblinking : Sets ((a.changes b).blink.elim [] (flagParams 5 25)) struck blinking :=
    sets_flag (fun on => { struck with blink := on }) rfl (sets_one rfl (by decide))
      (sets_one rfl (by decide))
  have hconcealed : Sets ((a.changes b).conceal.elim [] (flagParams 8 28)) blinking concealed :=
    sets_flag (fun on => { blinking with conceal := on }) rfl (sets_one rfl (by decide))
      (sets_one rfl (by decide))
  have hoverline : Sets ((a.changes b).overline.elim [] (flagParams 53 55)) concealed
      { a with hyperlink := b.hyperlink } :=
    sets_flag (fun on => { concealed with overline := on }) rfl (sets_one rfl (by decide))
      (sets_one rfl (by decide))
  have hcolors := (hfg.trans hbg).trans hul
  have htext := ((hcolors.trans hlit).trans hslanted).trans hunder
  exact ((((htext.trans hinverted).trans hstruck).trans hblinking).trans hconcealed).trans hoverline

/-- The parameters of a sequence, and nothing behind them. -/
theorem Sets.sgrLoop {params : List (List ℕ)} {x y : Attrs} (h : Sets params x y) :
    Screen.sgrLoop params.length x params = (y, 0) := by
  obtain ⟨fuel, -, hloop⟩ := h [] params.length (by rw [List.length_nil]; omega)
  rw [List.append_nil] at hloop
  rw [hloop]
  cases fuel with
  | zero => rfl
  | succ fuel => rfl

/-! ## The bytes, processed -/

section

variable {σ : Type} {tok : Tokenizer σ} {width : Char → Option ℕ} {p : Parser σ}

theorem process_nil (hpending : p.pendingC2 = false) : p.process tok width [] = some (p, []) := by
  unfold Parser.process
  rw [if_pos (by simp [hpending])]
  obtain ⟨parser, pending, screen⟩ := p
  cases hpending
  rfl

/-- A sequence that the tokenizer hands on as a whole, and that has no parameter that is not handled. -/
theorem process_sgr {bytes : List UInt8} (hpending : p.pendingC2 = false) (hplain : 0xc2 ∉ bytes)
    {params : List (List ℕ)} (hne : params ≠ []) {y : Attrs}
    (hacts : (tok.advanceAll p.parser bytes).2 = [.csiDispatch params [] 'm'])
    (hloop : Screen.sgrLoop params.length p.screen.attrs params = (y, 0)) :
    ∃ p', p.process tok width bytes = some (p', []) ∧ p'.screen.attrs = y := by
  have hsgr : p.screen.breakRep.sgr params =
      ({ p.screen.breakRep with attrs := y }.syncBlankAttrs, 0) := by
    have hfrom : Screen.sgrLoop params.length p.screen.breakRep.attrs params = (y, 0) := hloop
    unfold Screen.sgr
    rw [if_neg fun h => hne (List.isEmpty_iff.mp h)]
    dsimp only
    rw [hfrom]
  have hclean : (!p.pendingC2 && !bytes.contains 0xc2) = true := by
    simp [hpending, hplain]
  unfold Parser.process
  rw [if_pos hclean]
  dsimp only
  rw [hacts]
  refine ⟨⟨(tok.advanceAll p.parser bytes).1, false,
    { p.screen.breakRep with attrs := y }.syncBlankAttrs⟩, ?_, rfl⟩
  have hperform : p.screen.perform width (.csiDispatch params [] 'm') =
      some (Screen.calling _ (p.screen.breakRep.sgr params)) := rfl
  have hall : p.screen.performAll width [.csiDispatch params [] 'm'] =
      some ({ p.screen.breakRep with attrs := y }.syncBlankAttrs, []) := by
    unfold Screen.performAll
    rw [List.foldlM_cons, hperform, hsgr]
    rfl
  rw [hall]
  rfl

theorem plain_sgrBytes (params : List (List ℕ)) : 0xc2 ∉ sgrBytes params := by
  intro hmem
  unfold sgrBytes at hmem
  rw [List.mem_append, List.mem_append] at hmem
  rcases hmem with (hopen | hbody) | hfinal
  · exact absurd hopen (by decide)
  · exact absurd (Vte.numerals_body params _ hbody).2 (by decide)
  · exact absurd hfinal (by decide)

/-- INTERNAL: **The difference of two pens.** The sequence written for it makes the pen that it was
written for of the other, but for the hyperlink, and no tokenizer drops one of its numbers. Pens
without an underline have the default style as long as SGR sets them.
SRC: attrs.rs:120-177, term.rs:181-310, screen.rs:1727-1813, screen.rs:1859-1889 -/
theorem sgr_diff_applied (hreads : ReadsSgr tok p.parser) (hpending : p.pendingC2 = false)
    {a : Attrs} (ha : StyleKept a) (hfit : ColorsFit a) (hb : StyleKept p.screen.attrs) :
    (∃ p', p.process tok width (a.writeEscapeCodeDiff p.screen.attrs) = some (p', []) ∧
      p'.screen.attrs = { a with hyperlink := p.screen.attrs.hyperlink }) ∧
    (a.writeEscapeCodeDiff p.screen.attrs).countP (fun c => c = 0x3a ∨ c = 0x3b) < 32 ∧
    ∀ params, StyleKept (Screen.sgrLoop params.length p.screen.attrs params).1 := by
  have hkept : ∀ params, StyleKept (Screen.sgrLoop params.length p.screen.attrs params).1 :=
    fun params => styleKept_sgrLoop hb _ params
  have hsets := sets_changes ha hfit hb
  obtain ⟨hfull, hbounded, hlength⟩ := numerals_changes hfit p.screen.attrs
  unfold Attrs.writeEscapeCodeDiff
  by_cases hclear : a ≠ p.screen.attrs ∧ a.sgrEq {}
  · rw [if_pos hclear]
    have hdefault : ({ hyperlink := p.screen.attrs.hyperlink } : Attrs) =
        { a with hyperlink := p.screen.attrs.hyperlink } :=
      (congrArg (fun b : Attrs => { b with hyperlink := p.screen.attrs.hyperlink })
        (of_decide_eq_true hclear.2)).symm
    refine ⟨?_, by decide, hkept⟩
    rw [← hdefault]
    exact process_sgr hpending (by decide) (List.cons_ne_nil _ _) hreads.missing rfl
  rw [if_neg hclear, writeBuf_eq]
  by_cases hempty : termParams (a.changes p.screen.attrs) = []
  · rw [if_pos hempty]
    rw [hempty] at hsets
    exact ⟨⟨p, process_nil hpending, congrArg Prod.fst hsets.sgrLoop⟩, by decide, hkept⟩
  · rw [if_neg hempty]
    have hcount := separators_sgrBytes hempty hfull
    refine ⟨?_, by omega, hkept⟩
    have hacts := hreads.params _ hempty hfull (fun n hn => (hbounded n hn).trans (by decide))
      (hlength.trans (by decide))
    exact process_sgr hpending (plain_sgrBytes _) hempty hacts hsets.sgrLoop

/-- From a bold pen with an indexed colour to a curly underline in its own colour. -/
theorem sgr_diff_applied_curly :
    ∃ p p' : Parser Vte.State, p.screen.attrs = { fgcolor := .idx 9, bold := true } ∧
      p.process vte (fun _ => some 1)
        (Attrs.writeEscapeCodeDiff
          { bgcolor := .rgb 255 0 7, ulcolor := .idx 200, underline := true, underlineStyle := .curly }
          p.screen.attrs) = some (p', []) ∧
      p'.screen.attrs = { bgcolor := .rgb 255 0 7, ulcolor := .idx 200, underline := true,
                          underlineStyle := .curly, hyperlink := p.screen.attrs.hyperlink } := by
  obtain ⟨s, -⟩ : ∃ s, Screen.new ⟨1, 2⟩ 1 = some s :=
    Option.isSome_iff_exists.mp (by decide +kernel)
  have hfit : ColorsFit
      { bgcolor := .rgb 255 0 7, ulcolor := .idx 200, underline := true, underlineStyle := .curly } :=
    ⟨trivial, ⟨by decide, by decide, by decide⟩, show (200 : ℕ) ≤ 255 by decide⟩
  obtain ⟨⟨p', happlied, hattrs⟩, -⟩ :=
    @sgr_diff_applied _ vte (fun _ => some 1)
      ⟨.ground [], false, { s with attrs := { fgcolor := .idx 9, bold := true } }⟩
      (Vte.readsSgr []) rfl _ (fun h => absurd h (show ¬ true = false by decide)) hfit fun _ => rfl
  exact ⟨_, p', rfl, happlied, hattrs⟩

end

end Tymux.Analysis
