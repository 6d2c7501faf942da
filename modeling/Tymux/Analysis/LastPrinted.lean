import Tymux.Analysis.HandoffOperations
import Tymux.Analysis.Vt.Screens

/-!
# What a print leaves behind besides the cells

The screen remembers the last character that was printed, for `REP`. A print overwrites this, and
most other actions leave it alone: so two outputs whose last prints differ leave different screens,
whatever the screen was before.
-/

set_option autoImplicit false

namespace Tymux.Analysis

open Tymux.Model.Vt
open Tymux.Analysis.Vt (mappedChar)

section

variable {width : Char → Option ℕ}

/-- The last character, the marks on it, and whether it may be repeated. -/
def lastCluster (s : Screen) : Char × List Char × Bool := (s.lastBase, s.lastMarks, s.lastClusterLive)

/-! ## Character sets -/

theorem decSpecialGraphics_of_high {c : Char} (h : 0x80 ≤ c.toNat) : decSpecialGraphics c = c := by
  unfold decSpecialGraphics
  split
  all_goals first
    | rfl
    | exact absurd h (by decide)

theorem map_of_high (set : Charset) {c : Char} (h : 0x80 ≤ c.toNat) : set.map c = c := by
  cases set with
  | ascii => rfl
  | decSpecial => exact decSpecialGraphics_of_high h
  | uk =>
      show (if c = '#' then _ else c) = c
      rw [if_neg]
      rintro rfl
      exact absurd h (by decide)

/-- The two letters that no escape sequence and no CSI ends with. -/
def Letter (b : UInt8) : Prop := b = 0x51 ∨ b = 0x56

theorem map_letter (set : Charset) {b : UInt8} (h : Letter b) :
    set.map (Char.ofNat b.toNat) = Char.ofNat b.toNat := by
  obtain rfl | rfl := h
  · cases set <;> rfl
  · cases set <;> rfl

/-! ## Prints -/

theorem lastCluster_putGrid (s : Screen) (g : Grid) : lastCluster (s.putGrid g) = lastCluster s := by
  unfold Screen.putGrid
  split
  · rfl
  · rfl

theorem lastCluster_withGrid {s t : Screen} {f : Grid → Option Grid} (h : s.withGrid f = some t) :
    lastCluster t = lastCluster s := by
  obtain ⟨g, -, rfl⟩ := Option.map_eq_some_iff.mp h
  exact lastCluster_putGrid s g

theorem lastCluster_draw {s t : Screen} {c : Char} (h : s.draw width c = some t) :
    lastCluster t = lastCluster s := by
  unfold Screen.draw at h
  dsimp only at h
  split_ifs at h
  · cases h
    rfl
  · cases h
    rfl
  · cases h
    rfl
  · exact lastCluster_withGrid h
  · exact lastCluster_withGrid h

/-- A character that takes up columns is the last one, one that takes none joins it, and one that
is not drawn is none. -/
theorem lastCluster_text {s t : Screen} {c : Char} (h : s.text width c = some t) :
    lastCluster t = match charWidth width (mappedChar s c) with
      | none => lastCluster s
      | some 0 => (s.lastBase,
          if s.lastClusterLive then s.lastMarks ++ [mappedChar s c] else s.lastMarks,
          s.lastClusterLive)
      | some _ => (mappedChar s c, [], true) := by
  obtain ⟨u, hu, hmatch⟩ := Option.bind_eq_some_iff.mp h
  have hsame : lastCluster u = lastCluster s := (lastCluster_draw hu).trans rfl
  change (match charWidth width (mappedChar s c) with
    | none => some u
    | some 0 => some (if u.lastClusterLive then
        { u with lastMarks := u.lastMarks ++ [mappedChar s c] } else u)
    | some _ => some { u with
        lastBase := mappedChar s c, lastMarks := [], lastClusterLive := true }) = some t at hmatch
  unfold lastCluster at hsame ⊢
  simp only [Prod.mk.injEq] at hsame
  obtain ⟨hbase, hmarks, hlive⟩ := hsame
  split
  · rename_i hnone
    rw [hnone] at hmatch
    cases hmatch
    rw [hbase, hmarks, hlive]
  · rename_i hzero
    rw [hzero] at hmatch
    cases hmatch
    rw [← hbase, ← hmarks, ← hlive]
    split
    · rfl
    · rfl
  · rename_i n hpos hsome
    rw [hsome] at hmatch
    cases n with
    | zero => exact (hpos rfl).elim
    | succ n =>
        cases hmatch
        rfl

/-- The behaviour of `unicode-width` on what is not ASCII: the replacement character takes up a
column, and only controls have no width. -/
structure WidthTells (width : Char → Option ℕ) : Prop where
  replacement : width (Char.ofNat 0xfffd) = some 1
  isSome : ∀ c : Char, 0xa0 ≤ c.toNat → (width c).isSome

theorem charWidth_isSome (hwidth : WidthTells width) {c : Char} (h : 0xa0 ≤ c.toNat) :
    (charWidth width c).isSome := by
  unfold charWidth
  split_ifs
  · rfl
  · rfl
  · exact hwidth.isSome c h

/-- What a replacement character leaves. -/
def replaced : Char × List Char × Bool := (Char.ofNat 0xfffd, [], true)

theorem print_eq_text {s : Screen} {c : Char} (h : 0xa0 ≤ c.toNat) :
    s.print width c = Screen.quiet (s.text width c) := by
  unfold Screen.print
  rw [if_neg (by omega)]

theorem lastCluster_print {s : Screen} {r : Screen × List Callback} {c : Char} (h : 0xa0 ≤ c.toNat)
    (hprint : s.print width c = some r) :
    lastCluster r.1 = match charWidth width c with
      | none => lastCluster s
      | some 0 => (s.lastBase, if s.lastClusterLive then s.lastMarks ++ [c] else s.lastMarks,
          s.lastClusterLive)
      | some _ => (c, [], true) := by
  rw [print_eq_text h] at hprint
  obtain ⟨t, ht, rfl⟩ := Option.map_eq_some_iff.mp hprint
  have hmapped : mappedChar s c = c := map_of_high _ (by omega)
  have hlast := lastCluster_text ht
  rw [hmapped] at hlast
  exact hlast

theorem lastCluster_replacement (hwidth : WidthTells width) {s : Screen} {r : Screen × List Callback}
    (hprint : s.print width (Char.ofNat 0xfffd) = some r) : lastCluster r.1 = replaced := by
  have hone : charWidth width (Char.ofNat 0xfffd) = some 1 := by
    unfold charWidth
    rw [if_neg (by decide), if_neg (by decide)]
    exact hwidth.replacement
  rw [lastCluster_print (by decide) hprint, hone]
  rfl

/-- Another character leaves something else, whatever was printed before it. -/
theorem lastCluster_ne_replaced (hwidth : WidthTells width) {s : Screen} {r : Screen × List Callback}
    {c : Char} (h : 0xa0 ≤ c.toNat) (hother : c ≠ Char.ofNat 0xfffd)
    (hprint : s.print width c = some r) : lastCluster r.1 ≠ replaced := by
  rw [lastCluster_print h hprint]
  obtain ⟨n, hn⟩ := Option.isSome_iff_exists.mp (charWidth_isSome hwidth h)
  rw [hn]
  unfold replaced
  intro heq
  cases n with
  | zero =>
      -- a mark joins the last character, or there is none that it could join
      obtain ⟨-, hmarks, hlive⟩ : s.lastBase = _ ∧
          (if s.lastClusterLive then s.lastMarks ++ [c] else s.lastMarks) = [] ∧
          s.lastClusterLive = true := by simpa only [Prod.mk.injEq] using heq
      rw [hlive, if_pos rfl] at hmarks
      exact absurd hmarks (List.append_ne_nil_of_right_ne_nil _ (List.cons_ne_nil _ _))
  | succ n => exact hother (Prod.mk.inj heq).1

theorem lastBase_letter {s : Screen} {r : Screen × List Callback} {b : UInt8} (hb : Letter b)
    (hprint : s.print width (Char.ofNat b.toNat) = some r) : r.1.lastBase = Char.ofNat b.toNat := by
  have hone : charWidth width (Char.ofNat b.toNat) = some 1 := by
    obtain rfl | rfl := hb
    · rfl
    · rfl
  have htext : s.print width (Char.ofNat b.toNat) =
      Screen.quiet (s.text width (Char.ofNat b.toNat)) := by
    unfold Screen.print
    rw [if_neg]
    obtain rfl | rfl := hb
    · decide
    · decide
  rw [htext] at hprint
  obtain ⟨t, ht, rfl⟩ := Option.map_eq_some_iff.mp hprint
  have hmapped : mappedChar s (Char.ofNat b.toNat) = Char.ofNat b.toNat := map_letter _ hb
  have hlast := lastCluster_text ht
  rw [hmapped, hone] at hlast
  exact (Prod.mk.inj hlast).1

/-! ## Actions that print nothing -/

/-- What a letter can be but a print. -/
def Unprinted : Action → Prop
  | .hook | .put _ | .unhook => True
  | .escDispatch _ b => Letter b
  | .csiDispatch _ _ c => ∃ b, Letter b ∧ c = Char.ofNat b.toNat
  | _ => False

theorem lastBase_scs (s : Screen) (slot b : UInt8) : (s.scs slot b).lastBase = s.lastBase := by
  unfold Screen.scs
  dsimp only
  split
  · rfl
  · rfl

theorem lastBase_unprinted {s : Screen} {a : Action} {r : Screen × List Callback}
    (ha : Unprinted a) (h : s.perform width a = some r) : r.1.lastBase = s.lastBase := by
  cases a with
  | print c => exact ha.elim
  | execute b => exact ha.elim
  | oscDispatch params bel => exact ha.elim
  | hook =>
      cases h
      rfl
  | put b =>
      cases h
      rfl
  | unhook =>
      cases h
      rfl
  | escDispatch intermediates b =>
      change s.escDispatch width intermediates b = some r at h
      unfold Screen.escDispatch at h
      dsimp only at h
      split at h
      · obtain rfl | rfl := ha
        · cases h
          rfl
        · cases h
          rfl
      · split_ifs at h with hset halign
        · cases h
          exact lastBase_scs _ _ _
        · obtain rfl | rfl := ha
          · exact absurd halign.2 (by decide)
          · exact absurd halign.2 (by decide)
        · cases h
          rfl
      · cases h
        rfl
  | csiDispatch params intermediates c =>
      change s.csiDispatch width params intermediates c = some r at h
      unfold Screen.csiDispatch at h
      dsimp only at h
      obtain ⟨b, rfl | rfl, rfl⟩ := ha
      all_goals
        rw [if_neg (by decide)] at h
        split at h
        · cases h
          rfl
        · split_ifs at h with hprivate hreset hstyle
          · cases h
            rfl
          · exact absurd hreset.2 (by decide)
          · exact absurd hstyle.2.1 (by decide)
          · cases h
            rfl

/-! ## The screen after some actions -/

/-- What is left of `performAll` without the calls. -/
def screenAfter (width : Char → Option ℕ) (s : Screen) (acts : List Action) : Option Screen :=
  acts.foldlM (fun s a => (s.perform width a).map Prod.fst) s

theorem screenAfter_append (s : Screen) (acts acts' : List Action) :
    screenAfter width s (acts ++ acts') =
      (screenAfter width s acts).bind fun t => screenAfter width t acts' := by
  unfold screenAfter
  rw [List.foldlM_append]
  rfl

theorem screenAfter_singleton (s : Screen) (a : Action) :
    screenAfter width s [a] = (s.perform width a).map Prod.fst := by
  unfold screenAfter
  rw [List.foldlM_cons]
  cases s.perform width a with
  | none => rfl
  | some r => rfl

/-- Only the last of these prints matters. -/
theorem exists_print_of_screenAfter {s t : Screen} {before : List Action} {c : Char}
    (h : screenAfter width s (before ++ [.print c]) = some t) :
    ∃ u calls, Screen.print width u c = some (t, calls) := by
  rw [screenAfter_append, Option.bind_eq_some_iff] at h
  obtain ⟨u, -, hlast⟩ := h
  rw [screenAfter_singleton] at hlast
  obtain ⟨⟨t', calls⟩, hprint, rfl⟩ := Option.map_eq_some_iff.mp hlast
  exact ⟨u, calls, hprint⟩

theorem lastBase_screenAfter {s t : Screen} {acts : List Action} (hacts : ∀ a ∈ acts, Unprinted a)
    (h : screenAfter width s acts = some t) : t.lastBase = s.lastBase := by
  induction acts generalizing s with
  | nil =>
      cases h
      rfl
  | cons a acts ih =>
      rw [List.forall_mem_cons] at hacts
      change ((s.perform width a).map Prod.fst).bind (fun s => screenAfter width s acts) = some t at h
      obtain ⟨u, hu, hrest⟩ := Option.bind_eq_some_iff.mp h
      obtain ⟨r, hr, rfl⟩ := Option.map_eq_some_iff.mp hu
      rw [ih hacts.2 hrest]
      exact lastBase_unprinted hacts.1 hr

end

end Tymux.Analysis
