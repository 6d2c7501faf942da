import Tymux.Analysis.Vt.Resize
import Tymux.Analysis.Vt.Controls
import Tymux.Model.Window

/-!
# The representation invariant of the emulator

Runs of `process`, `set_size` and `set_scrollback` calls, from `Parser::new` on. Every run returns,
so no index, `unwrap` or subtraction fails, and both grids are as the operations expect them.

The rows in view are as wide as the screen only where the output does not pull a narrow row into
view. Rows of the scrollback keep their width when the screen becomes wider, until they are shown. A
row fed to a full scrollback moves a view at its far end on by one row, and this row is not padded
(`Narrows`): `set_size` and `set_scrollback` pad the view, the line feed does not.
-/

set_option autoImplicit false

namespace Tymux.Analysis.Vt

open Tymux.Lib Tymux.Model Tymux.Model.Vt

/-! ## The property -/

/-- Both halves of every wide character stand next to each other. -/
def WidePaired (row : Row) : Prop :=
  ∀ (i : ℕ) (c : Cell), row.cells[i]? = some c →
    (c.wide = true → ∃ d, row.cells[i + 1]? = some d ∧ d.wideContinuation = true) ∧
    (c.wideContinuation = true → 0 < i ∧ ∃ d, row.cells[i - 1]? = some d ∧ d.wide = true)

/-- The representation of a grid with a scrollback of at most `cap` rows. -/
structure Represented (cap : ℕ) (g : Grid) : Prop where
  rows_len : g.rows ≠ [] → g.rows.length = g.size.rows
  rows_wide : ∀ row ∈ g.rows, row.cells.length = g.size.cols
  pos_row : g.pos.row < g.size.rows
  pos_col : g.pos.col ≤ g.size.cols
  saved_row : g.savedPos.row < g.size.rows
  region_le : g.scrollTop ≤ g.scrollBottom
  region_lt : g.scrollBottom < g.size.rows
  history_len : g.scrollback.length ≤ cap
  offset_le : g.scrollbackOffset ≤ g.scrollback.length
  paired : ∀ row ∈ g.scrollback ++ g.rows, WidePaired row

/-- Every row in view is as wide as the screen. -/
def ViewFull (g : Grid) : Prop :=
  ∃ rows, g.visibleRows = some rows ∧ ∀ row ∈ rows, row.cells.length = g.size.cols

theorem widePaired_of_paired {row : Row} (h : PairedCells row.cells) : WidePaired row := by
  intro i c hc
  rcases h.trichotomy hc with ⟨hS, -⟩ | ⟨hF, d, hd, hC, -⟩ | ⟨hC, j, d, rfl, hd, hF, -⟩
  · rw [hS.1, hS.2]
    exact ⟨fun hfalse => absurd hfalse Bool.false_ne_true, fun hfalse => absurd hfalse Bool.false_ne_true⟩
  · rw [hF.2.1]
    exact ⟨fun _ => ⟨d, hd, hC.2⟩, fun hfalse => absurd hfalse Bool.false_ne_true⟩
  · rw [hC.1]
    exact ⟨fun hfalse => absurd hfalse Bool.false_ne_true, fun _ => ⟨Nat.succ_pos j, d, hd, hF.1⟩⟩

section

variable {b : Frame} {g : Grid}

theorem Fits.represented (h : Fits b g) (hdrawn : b.drawn = 0 ∨ b.drawn = b.size.rows) :
    Represented b.cap g := by
  constructor
  case rows_len =>
    intro hne
    have hpos := List.length_pos_iff.mpr hne
    have hlen := h.rows_len
    rw [h.rows_eq]
    omega
  case rows_wide =>
    intro row hrow
    rw [h.cols_eq]
    exact (h.rows_fit row hrow).1
  case pos_row =>
    rw [h.rows_eq]
    exact h.pos_row
  case pos_col =>
    rw [h.cols_eq]
    exact h.pos_col
  case saved_row =>
    rw [h.rows_eq]
    exact h.saved_row
  case region_le => exact h.region_le
  case region_lt =>
    rw [h.rows_eq]
    exact h.region_lt
  case history_len => exact h.history_len
  case offset_le => exact h.offset_le
  case paired =>
    rw [List.forall_mem_append]
    constructor
    · exact fun row hrow => widePaired_of_paired (h.history_fit row hrow).2
    · exact fun row hrow => widePaired_of_paired (h.rows_fit row hrow).2

theorem Fits.viewFull (h : Fits b g) (hview : b.view) : ViewFull g := by
  have hoff := h.offset_le
  unfold ViewFull Grid.visibleRows
  rw [checkedSub_of_le hoff]
  refine ⟨_, rfl, ?_⟩
  rw [List.forall_mem_append]
  constructor
  · intro row hrow
    obtain ⟨i, hi⟩ := List.getElem?_of_mem hrow
    have hlt := (List.getElem?_eq_some_iff.mp hi).1
    rw [List.length_take, h.rows_len] at hlt
    rw [List.getElem?_take, if_pos (by rw [h.rows_len]; omega), List.getElem?_drop] at hi
    rw [h.cols_eq]
    exact h.view_full hview _ row hi (by omega) (by omega)
  · intro row hrow
    rw [h.cols_eq]
    exact (h.rows_fit row (List.mem_of_mem_take hrow)).1

end

/-! ## Runs -/

/-- A call on the emulator. -/
inductive Call where
  | process (bytes : List UInt8)
  | setSize (rows cols : ℕ)
  | setScrollback (rows : ℕ)

section

variable {σ : Type} (tok : Tokenizer σ) (width : Char → Option ℕ)

/-- SRC: parser.rs:50-76, screen.rs:220-224, screen.rs:245-247 -/
def Call.run (p : Parser σ) : Call → Option (Parser σ)
  | .process bytes => (p.process tok width bytes).map Prod.fst
  | .setSize rows cols => (p.screen.setSize rows cols).map fun screen => { p with screen }
  | .setScrollback rows => (p.screen.setScrollback rows).map fun screen => { p with screen }

/-- A resize is to a size that a pane can have. -/
def Call.Admissible : Call → Prop
  | .setSize rows cols => 1 ≤ rows ∧ rows ≤ maxPaneRows ∧ 1 ≤ cols ∧ cols ≤ maxPaneCols
  | _ => True

/-- The actions that a chunk of the output is cut into. -/
def actionsOf (p : Parser σ) (bytes : List UInt8) : List Vt.Action :=
  (tok.advanceAll p.parser (if !p.pendingC2 && !bytes.contains 0xc2 then (bytes, false)
    else Parser.rewrite p.pendingC2 bytes).1).2

/-- No action of the call feeds a row to a full scrollback that brings a narrow row into view. -/
def CallOk (p : Parser σ) : Call → Prop
  | .process bytes => Along (fun s a => (s.perform width a).map Prod.fst) (ActionOk width) p.screen
      (actionsOf tok p bytes)
  | _ => True

variable {tok width} {V : Prop} {size : Size} {cap : ℕ}

/-- INTERNAL: The actions of a chunk, one after the other.
SRC: perform.rs:26-262 -/
theorem yields_performAll (hwidth : WidthLaw width) {s : Screen} (h : ScreenFits V size cap s)
    (actions : List Vt.Action)
    (hview : V → Along (fun s a => (s.perform width a).map Prod.fst) (ActionOk width) s actions) :
    Yields (s.performAll width actions) fun r => ScreenFits V size cap r.1 := by
  unfold Screen.performAll
  generalize ([] : List Callback) = calls
  induction actions generalizing s calls with
  | nil => exact yields_some h
  | cons a actions ih =>
      rw [List.foldlM_cons]
      obtain ⟨r, hr, hkept⟩ := yields_perform hwidth h a fun hv => (hview hv).1
      refine yields_bind_of_eq (a := (r.1, calls ++ r.2)) ?_ ?_
      · show (s.perform width a >>= fun next => pure (next.1, calls ++ next.2)) = _
        rw [hr]
        rfl
      · apply ih hkept
        intro hv
        refine (hview hv).2 r.1 ?_
        show (s.perform width a).map Prod.fst = some r.1
        rw [hr, Option.map_some]

/-- INTERNAL: One call.
SRC: parser.rs:50-76, screen.rs:220-224, screen.rs:245-247 -/
theorem yields_call (hwidth : WidthLaw width) (hcap : 1 ≤ cap) {p : Parser σ}
    (h : ∃ size, ScreenFits V size cap p.screen) (call : Call) (hcall : call.Admissible)
    (hview : V → CallOk tok width p call) :
    Yields (call.run tok width p) fun p' => ∃ size, ScreenFits V size cap p'.screen := by
  obtain ⟨size, h⟩ := h
  cases call with
  | process bytes =>
      refine Yields.map (Q := fun r => ScreenFits V size cap r.1.screen) ?_ fun r hr => ⟨size, hr⟩
      unfold Parser.process
      refine (yields_performAll hwidth h _ hview).bind fun r hr => ?_
      exact yields_some hr
  | setSize rows cols =>
      have hmax : cols ≤ u16Max := hcall.2.2.2.trans (by decide)
      exact (yields_screenSetSize h hcap hcall.1 hcall.2.2.1 hmax).map fun screen hscreen =>
        ⟨_, hscreen⟩
  | setScrollback rows =>
      exact (yields_setScrollbackScreen h rows).map fun screen hscreen => ⟨size, hscreen⟩

variable (tok) in
/-- INTERNAL: Every run returns a screen in shape. -/
theorem runs_fit (hwidth : WidthLaw width) {rows cols : ℕ}
    (hsize : (Call.setSize rows cols).Admissible) (hcap : 1 ≤ cap) (calls : List Call)
    (hcalls : ∀ call ∈ calls, call.Admissible) :
    ∃ p₀ p, Parser.new tok rows cols cap = some p₀ ∧ calls.foldlM (Call.run tok width) p₀ = some p ∧
      ∃ size, ScreenFits False size cap p.screen := by
  have hmax : cols ≤ u16Max := hsize.2.2.2.trans (by decide)
  have hnew : Yields (Parser.new tok rows cols cap) fun p =>
      ∃ size, ScreenFits False size cap p.screen := by
    unfold Parser.new
    have hscreen : Yields (Screen.new ⟨rows, cols⟩ cap) (ScreenFits False ⟨rows, cols⟩ cap) :=
      yields_screenNew hsize.1 hsize.2.2.1 hmax cap
    exact hscreen.bind fun screen hfits => yields_some ⟨_, hfits⟩
  obtain ⟨p₀, hp₀, hstart⟩ := hnew
  obtain ⟨p, hp, hfits⟩ := yields_foldlM_along _
    (fun p call hI hcall => yields_call hwidth hcap hI call hcall False.elim) calls hstart
    (along_of_forall (Call.run tok width) hcalls)
  exact ⟨p₀, p, hp₀, hp, hfits⟩

end

/-! ## A view that is not padded -/

/-- `vte` on ASCII without escape sequences. -/
def asciiTokenizer : Tokenizer Unit where
  start := ()
  advance _ b := ((), [if b < 0x20 then .execute b else .print (Char.ofNat b.toNat)])

/-- `unicode-width` on ASCII. -/
def asciiWidth (c : Char) : Option ℕ := if c.toNat < 0x20 then none else some 1

theorem widthLaw_ascii : WidthLaw asciiWidth := by
  have hle : ∀ c, (asciiWidth c).getD 1 ≤ 1 := by
    intro c
    unfold asciiWidth
    split <;> exact le_refl 1
  exact ⟨fun c => (hle c).trans one_le_two, fun c _ => hle c, fun c _ => hle c⟩

end Tymux.Analysis.Vt
