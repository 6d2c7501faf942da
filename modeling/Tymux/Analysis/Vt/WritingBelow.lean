import Tymux.Analysis.Chunks
import Tymux.Analysis.Vt.Controls
import Tymux.Analysis.Vt.RowsAbove

/-!
# A line written below the old rows

Each character of one column takes the cursor on by a column, and at the right margin down by a
row first. So the number of rows that a line takes is known beforehand, and the old rows stay above
it when the cursor has the room.
-/

set_option autoImplicit false

namespace Tymux.Analysis.Vt

open Tymux.Lib Tymux.Model Tymux.Model.Vt

/-! ## The rows of a line -/

/-- How often the cursor goes down while `n` characters of one column are written. -/
def wraps (noAutowrap : Bool) (cols col n : ℕ) : ℕ :=
  if noAutowrap ∨ n = 0 then 0 else (col + n - 1) / cols

theorem wraps_zero (noAutowrap : Bool) (cols col : ℕ) : wraps noAutowrap cols col 0 = 0 :=
  if_pos (Or.inr rfl)

theorem wraps_mono (noAutowrap : Bool) (cols n : ℕ) {col col' : ℕ} (hcol : col' ≤ col) :
    wraps noAutowrap cols col' n ≤ wraps noAutowrap cols col n := by
  unfold wraps
  split_ifs
  · exact le_refl 0
  · exact Nat.div_le_div_right (by omega)

theorem wraps_true (cols col n : ℕ) : wraps true cols col n = 0 := if_pos (Or.inl rfl)

theorem wraps_false (cols col n : ℕ) : wraps false cols col (n + 1) = (col + n) / cols :=
  if_neg (by simp)

theorem wraps_le_succ (noAutowrap : Bool) (cols col n : ℕ) :
    wraps noAutowrap cols col n ≤ wraps noAutowrap cols col (n + 1) := by
  cases noAutowrap with
  | true =>
      rw [wraps_true]
      exact Nat.zero_le _
  | false =>
      cases n with
      | zero =>
          rw [wraps_zero]
          exact Nat.zero_le _
      | succ n =>
          rw [wraps_false, wraps_false]
          exact Nat.div_le_div_right (by omega)

/-- The first of the characters is written. -/
theorem wraps_succ {cols col col' : ℕ} (n : ℕ) (hcols : 1 ≤ cols)
    (hcol' : col' ≤ (if col = cols then 0 else col) + 1) :
    wraps false cols col' n + (if col = cols then 1 else 0) ≤ wraps false cols col (n + 1) := by
  rw [wraps_false]
  cases n with
  | zero =>
      rw [wraps_zero]
      split_ifs with hpending
      · rw [hpending]
        exact (Nat.div_self hcols).ge
      · exact Nat.zero_le _
  | succ n =>
      rw [wraps_false]
      split_ifs at hcol' ⊢ with hpending
      · rw [hpending, Nat.add_comm cols (n + 1), Nat.add_div_right (n + 1) hcols]
        exact Nat.succ_le_succ (Nat.div_le_div_right (by omega))
      · exact Nat.div_le_div_right (by omega)

/-! ## Screens -/

/-- The primary screen is shown, the old rows are above its cursor, and it can write `n` characters
of one column and then go down `k` times. -/
structure Standing (size : Size) (cap : ℕ) (old : List (List Cell)) (most k n : ℕ) (s : Screen) :
    Prop where
  fits : ScreenFits False size cap s
  rows_le : size.rows ≤ u16Max
  primary : s.modes.alternateScreen = false
  clear : ∃ gone, Clear old most (k + wraps s.modes.noAutowrap size.cols s.grid.pos.col n) gone s.grid

section

variable {width : Char → Option ℕ} {size : Size} {cap : ℕ} {old : List (List Cell)} {s : Screen}
  {most k n : ℕ}

theorem currentGrid_primary (hprimary : s.modes.alternateScreen = false) : s.currentGrid = s.grid := by
  unfold Screen.currentGrid
  rw [hprimary]
  rfl

theorem putGrid_primary (hprimary : s.modes.alternateScreen = false) (g : Grid) :
    s.putGrid g = { s with grid := g } := by
  unfold Screen.putGrid
  rw [hprimary]
  rfl

/-- An operation on the grid that is shown. -/
theorem ensures_withGrid (hprimary : s.modes.alternateScreen = false) {f : Grid → Option Grid}
    {Q : Grid → Prop} (h : Ensures (f s.grid) Q) :
    Ensures (s.withGrid f) fun s' => s'.modes = s.modes ∧ Q s'.grid := by
  unfold Screen.withGrid
  rw [currentGrid_primary hprimary]
  refine h.map fun g hg => ?_
  rw [putGrid_primary hprimary]
  exact ⟨rfl, hg⟩

namespace Standing

/-- What the next step leaves of the room. -/
theorem step (h : Standing size cap old most k n s) {j m : ℕ} {s' : Screen}
    (hfits : ScreenFits False size cap s') (hmodes : s'.modes = s.modes)
    (hclear : ∃ gone, Clear old most (j + wraps s.modes.noAutowrap size.cols s'.grid.pos.col m) gone
      s'.grid) : Standing size cap old most j m s' :=
  ⟨hfits, h.rows_le, by rw [hmodes]; exact h.primary, by rw [hmodes]; exact hclear⟩

/-- INTERNAL: The character goes to the cursor, or to the line below.
SRC: screen.rs:1165-1192 -/
theorem drawWrap (h : Standing size cap old most k (n + 1) s) (attrs : Attrs) :
    Ensures (Screen.drawWrap attrs s.modes.noAutowrap s.grid 1) fun r => ∃ gone, ∀ col,
      col ≤ r.1.pos.col + 1 →
        Clear old most (k + wraps s.modes.noAutowrap size.cols col n) gone r.1 := by
  have hmain := h.fits.main
  have hcols : s.grid.size.cols = size.cols := hmain.cols_eq
  obtain ⟨gone, hclear⟩ := h.clear
  unfold Screen.drawWrap
  cases hwrap : s.modes.noAutowrap with
  | true =>
      rw [hwrap] at hclear
      rw [if_pos rfl]
      refine ensures_bind fun last => ?_
      refine Ensures.ite (ensures_bind fun lastCol => ?_) ?_
      · refine (inRow_colSet lastCol).bind fun g hg => ensures_some ⟨gone, fun col _ => ?_⟩
        rw [wraps_true] at hclear ⊢
        exact hclear.inRow hg.1
      · refine ensures_some ⟨gone, fun col _ => ?_⟩
        rw [wraps_true] at hclear ⊢
        exact hclear
  | false =>
      rw [hwrap] at hclear
      rw [if_neg Bool.false_ne_true]
      have hblank : Screen.blankLast attrs s.grid 1 = some s.grid := if_neg (lt_irrefl 1)
      rw [hblank, Option.bind_eq_bind, Option.bind_some]
      have hstart : Clear old most (k + wraps false size.cols ((if s.grid.pos.col = s.grid.size.cols
          then 0 else s.grid.pos.col) + 1) n + if s.grid.pos.col = s.grid.size.cols then 1 else 0)
          gone s.grid := by
        apply hclear.mono
        have hle : _ ≤ wraps false size.cols s.grid.pos.col (n + 1) := wraps_succ n hmain.cols_pos
          (le_refl ((if s.grid.pos.col = size.cols then 0 else s.grid.pos.col) + 1))
        rw [hcols]
        omega
      refine (Clear.colWrap hmain h.rows_le hstart).bind fun g ⟨⟨gone', hg⟩, hcol⟩ => ?_
      refine ensures_some ⟨gone', fun col hle => ?_⟩
      rw [← hcol] at hg
      exact hg.mono (Nat.add_le_add_left (wraps_mono _ _ _ hle) k)

/-- INTERNAL: A character of one column.
SRC: screen.rs:1124-1358 -/
theorem draw (h : Standing size cap old most k (n + 1) s) {c : Char} (hc : charWidth width c = some 1) :
    Ensures (s.draw width c) fun s' => s'.modes = s.modes ∧
      ∃ gone, Clear old most (k + wraps s.modes.noAutowrap size.cols s'.grid.pos.col n) gone s'.grid := by
  have hmain := h.fits.main
  have hcols : s.grid.size.cols = size.cols := hmain.cols_eq
  unfold Screen.draw
  split_ifs with hbom hcontrol
  · refine ensures_some ⟨rfl, h.clear.imp fun gone hclear => hclear.mono ?_⟩
    exact Nat.add_le_add_left (wraps_le_succ _ _ _ _) k
  · rw [hc] at hcontrol
    cases hcontrol.1
  · rw [hc, Option.getD_some, currentGrid_primary h.primary]
    dsimp only
    split_ifs with hnarrow hfast
    · have hpos := hmain.cols_pos
      dsimp only at hpos
      omega
    · refine ensures_withGrid h.primary (Q := fun g => ∃ gone,
        Clear old most (k + wraps s.modes.noAutowrap size.cols g.pos.col n) gone g) ?_
      obtain ⟨gone, hclear⟩ := h.clear
      refine (inRow_modifyCell s.grid.pos rfl _).bind fun g ⟨hrow, hpos⟩ => ensures_some ⟨gone, ?_⟩
      have hcol : (g.colInc 1).pos.col ≤ s.grid.pos.col + 1 := by
        show saturatingAdd u16Max g.pos.col 1 ≤ s.grid.pos.col + 1
        rw [hpos]
        exact Nat.min_le_left _ _
      refine (hclear.mono (Nat.add_le_add_left ?_ k)).inRow (hrow.trans (InRow.col g _))
      refine (wraps_mono _ _ _ hcol).trans ?_
      cases s.modes.noAutowrap with
      | true =>
          rw [wraps_true]
          exact Nat.zero_le _
      | false =>
          refine (Nat.le_add_right _ _).trans (wraps_succ n hmain.cols_pos ?_)
          rw [if_neg (by omega)]
    · refine ensures_withGrid h.primary (Q := fun g => ∃ gone,
        Clear old most (k + wraps s.modes.noAutowrap size.cols g.pos.col n) gone g) ?_
      refine (h.drawWrap s.attrs).bind fun r ⟨gone, hclear⟩ => ?_
      split_ifs with hdrawn
      · intro g hg
        obtain ⟨hrow, hcol⟩ := inRow_drawAt width s.attrs s.modes.insert c g hg
        exact ⟨gone, (hclear _ hcol).inRow hrow⟩
      · exact ensures_some ⟨gone, hclear _ (Nat.le_succ _)⟩

/-- INTERNAL: What is drawn is the character of the character set in use.
SRC: screen.rs:1093-1115 -/
theorem text (h : Standing size cap old most k (n + 1) s) {c : Char}
    (hc : charWidth width (mappedChar s c) = some 1) :
    Ensures (s.text width c) fun s' => s'.modes = s.modes ∧
      ∃ gone, Clear old most (k + wraps s.modes.noAutowrap size.cols s'.grid.pos.col n) gone s'.grid := by
  have h' : Standing size cap old most k (n + 1) { s with charsets.singleShift := none } :=
    h.step { h.fits with } rfl h.clear
  unfold Screen.text
  refine (h'.draw hc).bind fun s' hs' => ?_
  split
  · exact ensures_some hs'
  · split_ifs
    · exact ensures_some hs'
    · exact ensures_some hs'
  · exact ensures_some hs'

end Standing

/-! ## Actions -/

/-- Every character set shows a letter in one column. -/
def Narrow (width : Char → Option ℕ) : Prop :=
  ∀ (set : Charset) (c : Char), ' ' ≤ c → c ≤ '~' → charWidth width (set.map c) = some 1

theorem yields_print (hwidth : WidthLaw width) (hnarrow : Narrow width)
    (h : Standing size cap old most k (n + 1) s) {c : Char} (hlow : ' ' ≤ c) (hhigh : c ≤ '~') :
    Yields (s.perform width (.print c)) fun r => Standing size cap old most k n r.1 ∧
      r.1.modes = s.modes := by
  obtain ⟨r, hr, hfits⟩ := yields_perform hwidth h.fits (.print c) False.elim
  have hascii : ¬(0x80 ≤ c.toNat ∧ c.toNat < 0xa0) := by
    intro hc1
    have hle : c.toNat ≤ '~'.toNat := hhigh
    exact absurd (hc1.1.trans hle) (by decide)
  have hprint : Ensures (s.perform width (.print c)) fun r => r.1.modes = s.modes ∧
      ∃ gone, Clear old most (k + wraps s.modes.noAutowrap size.cols r.1.grid.pos.col n) gone
        r.1.grid := by
    show Ensures (s.print width c) _
    unfold Screen.print
    rw [if_neg hascii]
    exact (h.text (hnarrow _ c hlow hhigh)).map fun s' hs' => hs'
  obtain ⟨hmodes, hclear⟩ := hprint r hr
  exact ⟨r, hr, h.step hfits hmodes hclear, hmodes⟩

/-- INTERNAL: The cursor goes to the first column.
SRC: screen.rs:1470-1472 -/
theorem ensures_cr (hprimary : s.modes.alternateScreen = false) :
    Ensures s.cr fun s' => s'.modes = s.modes ∧ InRow s.grid s'.grid ∧ s'.grid.pos.col = 0 := by
  have hgrid : Ensures (s.grid.colSet 0) fun g => InRow s.grid g ∧ g.pos.col = 0 := fun g hg =>
    ⟨(inRow_colSet 0 g hg).1, Nat.le_zero.mp (inRow_colSet 0 g hg).2⟩
  exact ensures_withGrid (f := fun g => g.colSet 0) hprimary hgrid

theorem yields_execute_cr (hwidth : WidthLaw width) (h : Standing size cap old most k 0 s) :
    Yields (s.perform width (.execute 13)) fun r => Standing size cap old most k 0 r.1 ∧
      r.1.modes = s.modes := by
  obtain ⟨r, hr, hfits⟩ := yields_perform hwidth h.fits (.execute 13) False.elim
  have hcr : Ensures (Screen.quiet s.breakRep.cr) fun r => r.1.modes = s.modes ∧
      InRow s.grid r.1.grid ∧ r.1.grid.pos.col = 0 :=
    (ensures_cr (s := s.breakRep) h.primary).map fun s' hs' => hs'
  obtain ⟨hmodes, hrow, -⟩ := hcr r hr
  refine ⟨r, hr, h.step hfits hmodes (h.clear.imp fun gone hclear => ?_), hmodes⟩
  rw [wraps_zero] at hclear ⊢
  exact hclear.inRow hrow

/-- INTERNAL: A line feed, with the carriage return of the newline mode.
SRC: screen.rs:1370-1375 -/
theorem yields_execute_lf (hwidth : WidthLaw width) (h : Standing size cap old most (k + 1) 0 s) :
    Yields (s.perform width (.execute 10)) fun r => Standing size cap old most k 0 r.1 ∧
      r.1.modes = s.modes := by
  obtain ⟨r, hr, hfits⟩ := yields_perform hwidth h.fits (.execute 10) False.elim
  have hlf : Ensures (Screen.quiet s.breakRep.lf) fun r => r.1.modes = s.modes ∧
      ∃ gone, Clear old most k gone r.1.grid := by
    obtain ⟨gone, hclear⟩ := h.clear
    rw [wraps_zero] at hclear
    unfold Screen.quiet Screen.lf
    refine Ensures.map (Q := fun s' => s'.modes = s.modes ∧ ∃ gone, Clear old most k gone s'.grid) ?_
      fun s' hs' => hs'
    refine Ensures.bind (Q := fun s' => s'.modes = s.modes ∧ InRow s.grid s'.grid ∧
      ScreenFits False size cap s') ?_ fun s' ⟨hmodes, hrow, hfits'⟩ => ?_
    · refine Ensures.ite (fun s' hs' => ?_) (ensures_some ⟨rfl, InRow.refl _, h.fits.breakRep⟩)
      obtain ⟨hmodes, hrow, -⟩ := ensures_cr (s := s.breakRep) h.primary s' hs'
      exact ⟨hmodes, hrow, (yields_cr h.fits.breakRep).of_eq hs'⟩
    · have hprimary : s'.modes.alternateScreen = false := by
        rw [hmodes]
        exact h.primary
      intro t ht
      obtain ⟨hkeep, hclear'⟩ := ensures_withGrid hprimary
        ((hclear.inRow hrow).lineFeed hfits'.main h.rows_le) t ht
      exact ⟨hkeep.trans hmodes, hclear'.1⟩
  obtain ⟨hmodes, hclear⟩ := hlf r hr
  refine ⟨r, hr, h.step hfits hmodes ?_, hmodes⟩
  rw [wraps_zero]
  exact hclear

/-- INTERNAL: SGR is about what is written next.
SRC: screen.rs:1722-1727 -/
theorem yields_sgr (h : Standing size cap old most k n s) (params : List (List ℕ)) :
    Yields (s.perform width (.csiDispatch params [] 'm')) fun r =>
      Standing size cap old most k n r.1 ∧ r.1.modes = s.modes := by
  refine ⟨_, rfl, ?_, rfl⟩
  exact h.step (h.fits.breakRep.sgr params) rfl
    (h.clear.imp fun gone hclear => hclear.congr rfl rfl rfl rfl)

/-! ## A line -/

/-- One action, and the others after it. -/
theorem yields_collecting_cons {a : Vt.Action} {acts : List Vt.Action}
    {Q : Screen × List Callback → Prop} {R : Screen → Prop} (h : Yields (s.perform width a) Q)
    (hrest : ∀ r, Q r → Yields (collecting (Screen.perform width) r.1 acts) fun r => R r.1) :
    Yields (collecting (Screen.perform width) s (a :: acts)) fun r => R r.1 := by
  obtain ⟨r, hr, hQ⟩ := h
  obtain ⟨r', hr', hR⟩ := hrest r hQ
  refine ⟨(r'.1, r.2 ++ r'.2), ?_, hR⟩
  have hone : collecting (Screen.perform width) s [a] = some r := by
    show (Option.map _ (s.perform width a) >>= fun r => some r) = some r
    rw [hr]
    rfl
  rw [← List.singleton_append, collecting_append, hone, Option.bind_some, hr']
  rfl

/-- A line in a dim colour. -/
def lineActions (letters : List Char) : List Vt.Action :=
  .csiDispatch [[2]] [] 'm' ::
    (letters.map .print ++ [.csiDispatch [[0]] [] 'm', .execute 13, .execute 10])

/-- INTERNAL: The line is written, one letter after the other, and the cursor goes below it. -/
theorem yields_line (hwidth : WidthLaw width) (hnarrow : Narrow width) {letters : List Char}
    (hletters : ∀ c ∈ letters, ' ' ≤ c ∧ c ≤ '~')
    (h : Standing size cap old most 1 letters.length s) :
    Yields (collecting (Screen.perform width) s (lineActions letters)) fun r =>
      Standing size cap old most 0 0 r.1 ∧ r.1.modes = s.modes := by
  have hend : ∀ {s : Screen}, Standing size cap old most 1 0 s →
      Yields (collecting (Screen.perform width) s
        [.csiDispatch [[0]] [] 'm', .execute 13, .execute 10]) fun r =>
          Standing size cap old most 0 0 r.1 ∧ r.1.modes = s.modes := by
    intro s h
    refine yields_collecting_cons (R := fun s' => Standing size cap old most 0 0 s' ∧ s'.modes = s.modes)
      (yields_sgr h [[0]]) fun r₁ ⟨h₁, hmodes₁⟩ => ?_
    refine yields_collecting_cons (R := fun s' => Standing size cap old most 0 0 s' ∧ s'.modes = s.modes)
      (yields_execute_cr hwidth h₁) fun r₂ ⟨h₂, hmodes₂⟩ => ?_
    refine yields_collecting_cons (R := fun s' => Standing size cap old most 0 0 s' ∧ s'.modes = s.modes)
      (yields_execute_lf hwidth h₂) fun r₃ ⟨h₃, hmodes₃⟩ => ?_
    exact yields_some ⟨h₃, hmodes₃.trans (hmodes₂.trans hmodes₁)⟩
  refine yields_collecting_cons (R := fun s' => Standing size cap old most 0 0 s' ∧ s'.modes = s.modes)
    (yields_sgr h [[2]]) fun r₁ hr₁ => ?_
  obtain ⟨h₁, hmodes₁⟩ := hr₁
  clear h
  generalize r₁.1 = s₁ at h₁ hmodes₁ ⊢
  induction letters generalizing s₁ with
  | nil => exact (hend h₁).mono fun r hr => ⟨hr.1, hr.2.trans hmodes₁⟩
  | cons c letters ih =>
      rw [List.forall_mem_cons] at hletters
      refine yields_collecting_cons
        (R := fun s' => Standing size cap old most 0 0 s' ∧ s'.modes = s.modes)
        (yields_print hwidth hnarrow h₁ hletters.1.1 hletters.1.2) fun r₂ ⟨h₂, hmodes₂⟩ => ?_
      exact ih hletters.2 r₂.1 h₂ (hmodes₂.trans hmodes₁)

end

end Tymux.Analysis.Vt
