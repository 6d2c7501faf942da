import Tymux.Analysis.Tokenizing
import Tymux.Analysis.Vt.Controls

/-!
# Which actions the emulator answers

The emulator hands what it does not handle itself to its callbacks, and the responder replies to
the queries among them. So a reply is produced for an action exactly if `isQuery` holds of it: the
emulator handles no query itself, and the responder knows nothing else.
-/

set_option autoImplicit false

namespace Tymux.Analysis

open Tymux.Model.Vt Tymux.Model.TerminalQuery Tymux.Analysis.Vt Tymux.Lib

variable {width : Char → Option ℕ} {colors : Colors}

/-! ## Queries -/

theorem palettePairs_ne_nil {rest : List (List UInt8)} (h : rest ≠ []) :
    palettePairs rest ≠ some [] := by
  intro heq
  match rest, heq with
  | [], _ => exact h rfl
  | [_], heq => cases heq
  | index :: mark :: rest, heq =>
      rw [palettePairs] at heq
      obtain ⟨i, -, hi⟩ := Option.bind_eq_some_iff.mp heq
      split at hi
      · obtain ⟨items, -, hitems⟩ := Option.bind_eq_some_iff.mp hi
        cases hitems
      · cases hi

theorem dynamicItems_ne_nil {base : ℕ} (hbase : base ≤ 12) (rest : List (List UInt8)) :
    dynamicItems base rest ≠ some [] := by
  unfold dynamicItems
  split
  · intro h
    cases h
  · rename_i hrest
    intro h
    rw [Option.some_inj, List.map_eq_nil_iff] at h
    have hlength := congrArg List.length h
    rw [List.length_zip, List.length_range', List.length_nil] at hlength
    have hne : rest ≠ [] := by
      intro hnil
      rw [hnil] at hrest
      exact hrest rfl
    have hpos := List.length_pos_iff.mpr hne
    omega

/-- A query asks for at least one colour. -/
theorem oscQuery_ne_nil (params : List (List UInt8)) : oscQuery params ≠ some [] := by
  have hpalette : ∀ rest : List (List UInt8),
      (if rest.isEmpty || rest.length % 2 ≠ 0 then none else palettePairs rest) ≠ some [] := by
    intro rest
    split
    · intro h
      cases h
    · rename_i hempty
      apply palettePairs_ne_nil
      intro hnil
      rw [hnil] at hempty
      exact hempty rfl
  match params with
  | [] =>
      intro h
      cases h
  | first :: rest =>
      unfold oscQuery
      dsimp only
      by_cases h10 : first = [0x31, 0x30]
      · rw [if_pos h10]
        exact dynamicItems_ne_nil (by omega) _
      rw [if_neg h10]
      by_cases h11 : first = [0x31, 0x31]
      · rw [if_pos h11]
        exact dynamicItems_ne_nil (by omega) _
      rw [if_neg h11]
      by_cases h12 : first = [0x31, 0x32]
      · rw [if_pos h12]
        exact dynamicItems_ne_nil (by omega) _
      rw [if_neg h12]
      by_cases h4 : first = [0x34]
      · rw [if_pos h4]
        exact hpalette _
      · rw [if_neg h4]
        intro h
        cases h

theorem oscReplies_eq_nil (params : List (List UInt8)) (bel : Bool) :
    oscReplies params bel colors = [] ↔ (oscQuery params).isSome = false := by
  unfold oscReplies
  rw [List.map_eq_nil_iff]
  cases hquery : oscQuery params with
  | none => simp
  | some items =>
      have hne : items ≠ [] := fun hnil => oscQuery_ne_nil params (hnil ▸ hquery)
      simp [hne]

/-- The sequences that `classifyCsi` knows. -/
theorem classifyCsi_cases {i1 i2 : Option UInt8} {p0 : ℕ} {fin : UInt8}
    (h : (classifyCsi i1 i2 p0 fin).isSome) :
    let c := Char.ofNat fin.toNat
    (i1 = none ∧ i2 = none ∧ (c = 'c' ∨ c = 'n' ∨ c = 't' ∧ (p0 = 18 ∨ p0 = 19))) ∨
      (i1 = some 0x3e ∧ i2 = none ∧ (c = 'c' ∨ c = 'q')) ∨
      (i1 = some 0x3f ∧ i2 = none ∧ c = 'n') ∨
      (i1 = some 0x24 ∧ i2 = none ∧ c = 'p') ∨
      (i1 = some 0x3f ∧ i2 = some 0x24 ∧ c = 'p') := by
  unfold classifyCsi at h
  generalize Char.ofNat fin.toNat = c at h ⊢
  split at h <;> simp_all

/-! ## Callbacks -/

/-- Every call made on the way is one of these. -/
def Calls (P : Callback → Prop) (r : Screen.Performed) : Prop :=
  ∀ s cbs, r = some (s, cbs) → ∀ cb ∈ cbs, P cb

theorem calls_quiet (P : Callback → Prop) (m : Option Screen) : Calls P (Screen.quiet m) := by
  intro s cbs h cb hcb
  cases m with
  | none => cases h
  | some t =>
      cases h
      exact absurd hcb List.not_mem_nil

theorem calls_calling {P : Callback → Prop} {callback : Callback} (h : P callback)
    (m : Option (Screen × ℕ)) : Calls P (m.map (Screen.calling callback)) := by
  intro s cbs hm cb hcb
  cases m with
  | none => cases hm
  | some r =>
      cases hm
      rw [List.eq_of_mem_replicate hcb]
      exact h

theorem calls_some {P : Callback → Prop} {cbs : List Callback} (s : Screen)
    (h : ∀ cb ∈ cbs, P cb) : Calls P (some (s, cbs)) := by
  intro s' cbs' heq
  cases heq
  exact h

/-- The call for a CSI, if it is not the one for a resize. -/
def CsiCall (i1 i2 : Option UInt8) (params : List (List ℕ)) (c : Char) (cb : Callback) : Prop :=
  cb = .unhandledCsi i1 i2 params c ∨ ∃ rows cols, cb = .resize rows cols

theorem calls_unhandledCsi {i1 i2 : Option UInt8} {params : List (List ℕ)} {c : Char} (s : Screen) :
    Calls (CsiCall i1 i2 params c) (some (s, [.unhandledCsi i1 i2 params c])) :=
  calls_some s fun _ hcb => Or.inl (List.mem_singleton.mp hcb)

theorem calls_csiFinal (s : Screen) (params : List (List ℕ)) (c : Char) :
    Calls (CsiCall none none params c) (s.csiFinal width params c) := by
  have hcall : CsiCall none none params c (.unhandledCsi none none params c) := Or.inl rfl
  have hnone : ∀ t : Screen, Calls (CsiCall none none params c) (some (t, [])) :=
    fun t => calls_some t fun cb hcb => absurd hcb List.not_mem_nil
  have hcalling : ∀ r : Screen × ℕ, Calls (CsiCall none none params c)
      (some (Screen.calling (.unhandledCsi none none params c) r)) :=
    fun r => calls_calling hcall (some r)
  have hresize : ∀ rows cols, Calls (CsiCall none none params c) (some (s, [.resize rows cols])) :=
    fun rows cols => calls_some s fun cb hcb => Or.inr ⟨rows, cols, List.mem_singleton.mp hcb⟩
  unfold Screen.csiFinal
  dsimp only
  split
  all_goals first
    | split
      · exact hresize _ _
      · exact calls_unhandledCsi s
    | exact calls_quiet _ _
    | exact calls_calling hcall _
    | exact hnone _
    | exact hcalling _
    | exact calls_unhandledCsi s

theorem calls_csiPrivate (s : Screen) (params : List (List ℕ)) (i2 : Option UInt8) (c : Char) :
    Calls (CsiCall (some 0x3f) i2 params c) (s.csiPrivate params i2 c) := by
  have hcall : CsiCall (some 0x3f) i2 params c (.unhandledCsi (some 0x3f) i2 params c) := Or.inl rfl
  unfold Screen.csiPrivate
  dsimp only
  split
  all_goals first
    | exact calls_calling hcall _
    | exact calls_unhandledCsi s

/-- INTERNAL: A CSI is reported with its own intermediates and parameters.
SRC: perform.rs:96-219 -/
theorem calls_csiDispatch (s : Screen) (params : List (List ℕ)) (inter : List UInt8) (c : Char) :
    Calls (CsiCall inter[0]? inter[1]? params c) (s.csiDispatch width params inter c) := by
  unfold Screen.csiDispatch
  dsimp only
  generalize (if c = 'b' then s else s.breakRep) = t
  cases inter with
  | nil => exact calls_csiFinal t params c
  | cons i rest =>
      have hsecond : (i :: rest)[1]? = rest.head? := by
        rw [List.getElem?_cons_succ, List.head?_eq_getElem?]
      rw [hsecond, List.getElem?_cons_zero]
      dsimp only
      split_ifs with hprivate hstr hcusr
      · rw [hprivate]
        exact calls_csiPrivate t params rest.head? c
      · exact calls_quiet _ _
      · exact calls_some _ fun cb hcb => absurd hcb List.not_mem_nil
      · exact calls_unhandledCsi t

theorem ofNat_byteOfChar {c : Char} {fin : UInt8} (h : byteOfChar c = some fin) :
    Char.ofNat fin.toNat = c := by
  unfold byteOfChar at h
  split at h
  · rename_i hlt
    cases h
    rw [Nat.toUInt8_eq, UInt8.toNat_ofNat_of_lt' hlt, Char.ofNat_toNat]
  · cases h

/-- INTERNAL: The emulator handles no query itself.
SRC: perform.rs:96-219 -/
theorem csiDispatch_of_classify (s : Screen) {params : List (List ℕ)} {inter : List UInt8} {c : Char}
    {fin : UInt8} (hfin : byteOfChar c = some fin)
    (h : (classifyCsi inter[0]? inter[1]? (paramAt params 0) fin).isSome) :
    ∃ t, s.csiDispatch width params inter c =
      some (t, [.unhandledCsi inter[0]? inter[1]? params c]) := by
  have hcases := classifyCsi_cases h
  rw [ofNat_byteOfChar hfin] at hcases
  refine ⟨if c = 'b' then s else s.breakRep, ?_⟩
  unfold Screen.csiDispatch
  generalize (if c = 'b' then s else s.breakRep) = t
  cases inter with
  | nil =>
      simp only [List.getElem?_nil, reduceCtorEq, false_and, or_false, true_and, and_false] at hcases
      rcases hcases with rfl | rfl | ⟨rfl, hp⟩
      · rfl
      · rfl
      · have hnot : params[0]?.bind (fun p => p[0]?) ≠ some 8 := by
          intro h8
          unfold paramAt at hp
          cases hparam : params[0]? with
          | none =>
              rw [hparam] at h8
              cases h8
          | some p =>
              rw [hparam, Option.bind_some] at h8
              rw [hparam, Option.getD_some, h8] at hp
              rcases hp with hp | hp
              · cases hp
              · cases hp
        show (if params[0]?.bind (fun p => p[0]?) = some 8 then _ else _) = _
        rw [if_neg hnot]
        rfl
  | cons i rest =>
      have hsecond : (i :: rest)[1]? = rest.head? := by
        rw [List.getElem?_cons_succ, List.head?_eq_getElem?]
      rw [hsecond, List.getElem?_cons_zero] at hcases ⊢
      simp only [Option.some_inj, reduceCtorEq, false_and, false_or] at hcases
      rcases hcases with ⟨rfl, hrest, rfl | rfl⟩ | ⟨rfl, hrest, rfl⟩ | ⟨rfl, hrest, rfl⟩ |
        ⟨rfl, hrest, rfl⟩
      all_goals simp [hrest, Screen.csiPrivate]

/-- The calls for an OSC. -/
def OscCall (params : List (List UInt8)) (bel : Bool) (cb : Callback) : Prop :=
  cb = .unhandledOsc params bel ∨ ∀ (colors : Colors) (s : Screen), respond colors s cb = []

theorem calls_oscDispatch (s : Screen) (params : List (List UInt8)) (bel : Bool) :
    Calls (OscCall params bel) (s.oscDispatch params bel) := by
  have hunhandled : Calls (OscCall params bel) (some (s, [.unhandledOsc params bel])) :=
    calls_some s fun _ hcb => Or.inl (List.mem_singleton.mp hcb)
  have hclipboard : ∀ ty data, Calls (OscCall params bel)
      (some (s, [Screen.clipboard ty data params bel])) := by
    intro ty data
    apply calls_some
    intro cb hcb
    rw [List.mem_singleton.mp hcb]
    unfold Screen.clipboard
    split_ifs
    · exact Or.inr fun _ _ => rfl
    · exact Or.inr fun _ _ => rfl
    · exact Or.inl rfl
    · exact Or.inl rfl
  cases params with
  | nil => exact hunhandled
  | cons first rest =>
      unfold Screen.oscDispatch
      dsimp only
      split_ifs
      · apply calls_some
        intro cb hcb
        right
        intro _ _
        rcases List.mem_cons.mp hcb with rfl | hcb
        · rfl
        · rw [List.mem_singleton.mp hcb]
          rfl
      · apply calls_some
        intro cb hcb
        rw [List.mem_singleton.mp hcb]
        exact Or.inr fun _ _ => rfl
      · apply calls_some
        intro cb hcb
        rw [List.mem_singleton.mp hcb]
        exact Or.inr fun _ _ => rfl
      · exact calls_quiet _ _
      · split
        · exact calls_quiet _ _
        · exact calls_quiet _ _
      · split
        · exact hclipboard _ _
        · exact hunhandled
      · exact hunhandled

/-- INTERNAL: A colour query is not one of the OSCs that the emulator knows.
SRC: perform.rs:221-261 -/
theorem oscDispatch_of_query (s : Screen) {params : List (List UInt8)} (bel : Bool)
    (h : (oscQuery params).isSome) :
    s.oscDispatch params bel = some (s, [.unhandledOsc params bel]) := by
  cases params with
  | nil => cases h
  | cons first rest =>
      have hfirst : first = [0x31, 0x30] ∨ first = [0x31, 0x31] ∨ first = [0x31, 0x32] ∨
          first = [0x34] := by
        by_contra hnot
        simp only [not_or] at hnot
        unfold oscQuery at h
        dsimp only at h
        rw [if_neg hnot.1, if_neg hnot.2.1, if_neg hnot.2.2.1, if_neg hnot.2.2.2] at h
        cases h
      rcases hfirst with rfl | rfl | rfl | rfl
      all_goals simp [Screen.oscDispatch]

/-- The calls for every other action. -/
theorem calls_silent (s : Screen) {a : Action} (h : ¬ Dispatches a) :
    Calls (fun cb => ∀ (colors : Colors) (s : Screen), respond colors s cb = [])
      (s.perform width a) := by
  have hnone : ∀ t : Screen,
      Calls (fun cb => ∀ (colors : Colors) (s : Screen), respond colors s cb = []) (some (t, [])) :=
    fun t => calls_some t fun cb hcb => absurd hcb List.not_mem_nil
  have hone : ∀ (t : Screen) (cb : Callback),
      (∀ (colors : Colors) (s : Screen), respond colors s cb = []) →
      Calls (fun cb => ∀ (colors : Colors) (s : Screen), respond colors s cb = [])
        (some (t, [cb])) := by
    intro t cb hcb
    apply calls_some
    intro cb' hcb'
    rw [List.mem_singleton.mp hcb']
    exact hcb
  cases a with
  | csiDispatch params inter c => exact absurd trivial h
  | oscDispatch params bel => exact absurd trivial h
  | hook => exact hnone s
  | put b => exact hnone s
  | unhook => exact hnone s
  | print c =>
      show Calls _ (s.print width c)
      unfold Screen.print
      split
      · exact hone s _ fun _ _ => rfl
      · exact calls_quiet _ _
  | execute b =>
      show Calls _ (s.execute b)
      unfold Screen.execute
      dsimp only
      split
      all_goals first
        | exact calls_quiet _ _
        | exact hnone _
        | exact hone _ _ fun _ _ => rfl
  | escDispatch inter b =>
      show Calls _ (s.escDispatch width inter b)
      unfold Screen.escDispatch
      dsimp only
      split
      · unfold Screen.escFinal
        split
        all_goals first
          | exact calls_quiet _ _
          | exact hnone _
          | exact hone _ _ fun _ _ => rfl
      · split_ifs
        · exact hnone _
        · exact calls_quiet _ _
        · exact hone _ _ fun _ _ => rfl
      · exact hone _ _ fun _ _ => rfl

/-- INTERNAL: The responder replies to an action of the tokenizer if and only if it is a query.
SRC: perform.rs:26-262, terminal_query.rs:413-432 -/
theorem replies_eq_nil_iff {s s' : Screen} {cbs : List Callback} {a : Action}
    (h : s.perform width a = some (s', cbs)) :
    cbs.flatMap (respond colors s') = [] ↔ isQuery a = false := by
  by_cases hdispatch : Dispatches a
  · cases a with
    | csiDispatch params inter c =>
        cases hfin : byteOfChar c with
        | none =>
            simp only [isQuery, hfin, iff_true]
            apply List.flatMap_eq_nil_iff.mpr
            intro cb hcb
            rcases calls_csiDispatch s params inter c s' cbs h cb hcb with rfl | ⟨_, _, rfl⟩
            · simp [respond, csiReply, hfin]
            · rfl
        | some fin =>
            cases hclassify : classifyCsi inter[0]? inter[1]? (paramAt params 0) fin with
            | none =>
                simp only [isQuery, hfin, hclassify, Option.isSome_none, iff_true]
                apply List.flatMap_eq_nil_iff.mpr
                intro cb hcb
                rcases calls_csiDispatch s params inter c s' cbs h cb hcb with rfl | ⟨_, _, rfl⟩
                · simp [respond, csiReply, hfin, hclassify]
                · rfl
            | some query =>
                obtain ⟨t, ht⟩ := csiDispatch_of_classify s hfin (by rw [hclassify]; rfl)
                have hcbs : cbs = [.unhandledCsi inter[0]? inter[1]? params c] := by
                  have heq := h.symm.trans ht
                  cases heq
                  rfl
                simp [hcbs, isQuery, hfin, hclassify, respond, csiReply]
    | oscDispatch params bel =>
        cases hquery : (oscQuery params).isSome with
        | false =>
            simp only [isQuery, hquery, iff_true]
            apply List.flatMap_eq_nil_iff.mpr
            intro cb hcb
            rcases calls_oscDispatch s params bel s' cbs h cb hcb with rfl | hsilent
            · exact (oscReplies_eq_nil params bel).mpr hquery
            · exact hsilent _ _
        | true =>
            have hcbs : cbs = [.unhandledOsc params bel] := by
              have heq := h.symm.trans (oscDispatch_of_query s bel hquery)
              cases heq
              rfl
            have hne : oscReplies params bel colors ≠ [] := by
              intro hnil
              rw [oscReplies_eq_nil, hquery] at hnil
              cases hnil
            simp [hcbs, isQuery, hquery, respond, hne]
    | print c => exact hdispatch.elim
    | execute b => exact hdispatch.elim
    | escDispatch inter b => exact hdispatch.elim
    | hook => exact hdispatch.elim
    | put b => exact hdispatch.elim
    | unhook => exact hdispatch.elim
  · simp only [not_isQuery_of_not_dispatches hdispatch, iff_true]
    apply List.flatMap_eq_nil_iff.mpr
    intro cb hcb
    exact calls_silent s hdispatch s' cbs h cb hcb _ _

/-- INTERNAL: The emulator gets through any actions, and replies if and only if one of them is a
query. The induction is on the actions, with the replies so far. -/
theorem yields_performReplying (hwidth : WidthLaw width) {size : Size} {cap : ℕ} {s : Screen}
    (h : ScreenFits False size cap s) (acts : List Action) :
    Yields (performReplying width colors s acts) fun r =>
      ScreenFits False size cap r.1 ∧ (r.2 = [] ↔ ∀ a ∈ acts, isQuery a = false) := by
  have hfold : ∀ (acts : List Action) (s : Screen) (out : List (List UInt8)),
      ScreenFits False size cap s →
      Yields (acts.foldlM (fun r a => do
        let next ← r.1.perform width a
        return (next.1, r.2 ++ next.2.flatMap (respond colors next.1))) (s, out)) fun r =>
          ScreenFits False size cap r.1 ∧
            (r.2 = [] ↔ out = [] ∧ ∀ a ∈ acts, isQuery a = false) := by
    intro acts
    induction acts with
    | nil =>
        intro s out h
        refine yields_some ⟨h, ?_⟩
        simp
    | cons a acts ih =>
        intro s out h
        obtain ⟨⟨s', cbs⟩, hperform, hfits⟩ := yields_perform hwidth h a fun hv => hv.elim
        rw [List.foldlM_cons]
        obtain ⟨r, hr, hrfits, hrnil⟩ := ih s' (out ++ cbs.flatMap (respond colors s')) hfits
        refine ⟨r, ?_, hrfits, ?_⟩
        · simp only [hperform, Option.bind_eq_bind, Option.bind_some, Option.pure_def]
          exact hr
        · rw [hrnil, List.append_eq_nil_iff, replies_eq_nil_iff hperform, List.forall_mem_cons,
            and_assoc]
  obtain ⟨r, hr, hfits, hnil⟩ := hfold acts s [] h
  refine ⟨r, hr, hfits, ?_⟩
  rw [hnil]
  simp

end Tymux.Analysis
