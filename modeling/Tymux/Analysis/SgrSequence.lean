import Tymux.Analysis.Vte
import Tymux.Lib.Intercalate
import Tymux.Model.Vt.Term

/-!
# Sequences of numbers, as bytes

The bytes of an SGR sequence with the given parameters, each a list of numbers with colons between
them, and what a tokenizer does with these bytes. `vte` is not part of the repository: that it hands
such a sequence on with its numbers is an assumption, and the state machine of `Vte` meets it.
-/

set_option autoImplicit false

namespace Tymux.Analysis

open Tymux.Lib Tymux.Model Tymux.Model.Vt

/-! ## Bytes -/

/-- A parameter: its numbers, with colons between them. -/
def paramBytes (param : List ℕ) : List UInt8 := [0x3a].intercalate (param.map itoa)

/-- The sequence with these parameters. -/
def sgrBytes (params : List (List ℕ)) : List UInt8 :=
  [0x1b, 0x5b] ++ [0x3b].intercalate (params.map paramBytes) ++ [0x6d]

/-- What a tokenizer does with an SGR sequence of at most 32 numbers, the most that `vte` keeps: it
hands the parameters on, and a missing one as 0. -/
structure ReadsSgr {σ : Type} (tok : Tokenizer σ) (t : σ) : Prop where
  params : ∀ params : List (List ℕ), params ≠ [] → (∀ param ∈ params, param ≠ []) →
    (∀ n ∈ params.flatten, n ≤ 65535) → params.flatten.length ≤ 32 →
    (tok.advanceAll t (sgrBytes params)).2 = [.csiDispatch params [] 'm']
  missing : (tok.advanceAll t Term.clearAttrs).2 = [.csiDispatch [[0]] [] 'm']

/-- The last digit comes off the end. -/
theorem itoa_eq (n : ℕ) :
    itoa n = (if n < 10 then [] else itoa (n / 10)) ++ [UInt8.ofNat (48 + n % 10)] := by
  have hdigit : ∀ d < 10, UInt8.ofNat (Nat.digitChar d).toNat = UInt8.ofNat (48 + d) := by decide
  unfold itoa
  rw [Nat.toDigits_eq_if (by decide)]
  split_ifs with hlt
  · rw [List.map_singleton, List.nil_append, hdigit n hlt, Nat.mod_eq_of_lt hlt]
  · rw [List.map_append, List.map_singleton, hdigit _ (Nat.mod_lt n (by decide))]

/-- The bytes of a number are digits. -/
theorem digits_itoa (n : ℕ) : ∀ b ∈ itoa n, 0x30 ≤ b ∧ b < 0x3a := by
  have hdigit : ∀ d < 10, 0x30 ≤ UInt8.ofNat (48 + d) ∧ UInt8.ofNat (48 + d) < 0x3a := by decide
  induction n using Nat.strong_induction_on with
  | _ n ih =>
      rw [itoa_eq, List.forall_mem_append, List.forall_mem_singleton]
      refine ⟨?_, hdigit _ (Nat.mod_lt n (by decide))⟩
      split_ifs with hlt
      · exact List.forall_mem_nil _
      · exact ih _ (by omega)

/-! ## What is made of them -/

namespace Vte

/-- A CSI in the middle of its parameters. -/
def reading (params : List (List ℕ)) (values : List ℕ) (value : ℕ) : Csi :=
  { stage := .param, params, values, value }

section

variable {params : List (List ℕ)} {values : List ℕ}

theorem digit_byte {d : ℕ} (hd : d < 10) : ¬ UInt8.ofNat (48 + d) < 0x30 ∧
    UInt8.ofNat (48 + d) < 0x3a ∧ (UInt8.ofNat (48 + d)).toNat - 0x30 = d := by
  have hall : ∀ d < 10, ¬ UInt8.ofNat (48 + d) < 0x30 ∧ UInt8.ofNat (48 + d) < 0x3a ∧
      (UInt8.ofNat (48 + d)).toNat - 0x30 = d := by decide
  exact hall d hd

theorem collect_digit {value d : ℕ} (hd : d < 10)
    (hroom : params.flatten.length + values.length < 32) :
    (reading params values value).collect (UInt8.ofNat (48 + d)) =
      reading params values (min (value * 10 + d) 65535) := by
  obtain ⟨hlow, hhigh, hvalue⟩ := digit_byte hd
  unfold Csi.collect reading
  dsimp only
  rw [if_neg hlow, if_pos hhigh, if_neg (Nat.not_le_of_lt hroom), hvalue]

theorem collect_colon {value : ℕ} (hroom : params.flatten.length + values.length < 32) :
    (reading params values value).collect 0x3a = reading params (values ++ [value]) 0 := by
  unfold Csi.collect reading
  dsimp only
  rw [if_neg (by decide), if_neg (by decide), if_pos rfl, if_neg (Nat.not_le_of_lt hroom)]

theorem collect_semicolon {value : ℕ} (hroom : params.flatten.length + values.length < 32) :
    (reading params values value).collect 0x3b = reading (params ++ [values ++ [value]]) [] 0 := by
  unfold Csi.collect reading
  dsimp only
  rw [if_neg (by decide), if_neg (by decide), if_neg (by decide), if_pos rfl,
    if_neg (Nat.not_le_of_lt hroom)]

/-- The first digit leaves the entry of the sequence, which is the middle of no parameters. -/
theorem collect_entry {b : UInt8} (hlow : 0x30 ≤ b) (hhigh : b < 0x3a) :
    Csi.collect {} b = (reading [] [] 0).collect b := by
  have hnot : ¬ b < 0x30 := UInt8.not_lt.mpr hlow
  unfold Csi.collect reading
  dsimp only
  rw [if_neg hnot, if_pos hhigh, if_neg hnot, if_pos hhigh]

theorem collect_itoa {n : ℕ} (hn : n ≤ 65535)
    (hroom : params.flatten.length + values.length < 32) :
    (itoa n).foldl Csi.collect (reading params values 0) = reading params values n := by
  induction n using Nat.strong_induction_on with
  | _ n ih =>
      rw [itoa_eq, List.foldl_append]
      split_ifs with hlt
      · rw [List.foldl_nil, List.foldl_cons, List.foldl_nil, collect_digit (Nat.mod_lt n (by decide))
          hroom, Nat.mod_eq_of_lt hlt]
        congr 1
        omega
      · rw [ih (n / 10) (by omega) (by omega), List.foldl_cons, List.foldl_nil,
          collect_digit (Nat.mod_lt n (by decide)) hroom]
        congr 1
        omega

theorem collect_param {param : List ℕ} (hne : param ≠ []) (hbound : ∀ n ∈ param, n ≤ 65535)
    (hroom : params.flatten.length + values.length + param.length ≤ 32) :
    (paramBytes param).foldl Csi.collect (reading params values 0) =
      reading params (values ++ param.dropLast) (param.getLast hne) := by
  induction param generalizing values with
  | nil => exact absurd rfl hne
  | cons n param ih =>
      rw [List.forall_mem_cons] at hbound
      rw [List.length_cons] at hroom
      have hfirst := @collect_itoa params values n hbound.1 (by omega)
      unfold paramBytes at ih ⊢
      cases param with
      | nil =>
          rw [List.map_singleton, List.intercalate_singleton, hfirst]
          simp
      | cons m param =>
          rw [List.map_cons, List.map_cons, List.intercalate_cons_cons, List.foldl_append,
            List.foldl_append, hfirst, List.foldl_cons, List.foldl_nil, collect_colon (by omega)]
          rw [← List.map_cons, ih (List.cons_ne_nil _ _) hbound.2]
          · simp
          · rw [List.length_append, List.length_singleton]
            omega

/-- INTERNAL: The parameters, of which the last one is still open. -/
theorem collect_params {rest : List (List ℕ)} (hne : rest ≠ []) (hfull : ∀ param ∈ rest, param ≠ [])
    (hbound : ∀ n ∈ rest.flatten, n ≤ 65535)
    (hroom : params.flatten.length + rest.flatten.length ≤ 32) :
    ∃ values value, ([0x3b].intercalate (rest.map paramBytes)).foldl Csi.collect
        (reading params [] 0) = reading (params ++ rest.dropLast) values value ∧
      values ++ [value] = rest.getLast hne := by
  induction rest generalizing params with
  | nil => exact absurd rfl hne
  | cons param rest ih =>
      rw [List.forall_mem_cons] at hfull
      rw [List.flatten_cons, List.forall_mem_append] at hbound
      rw [List.flatten_cons, List.length_append] at hroom
      have hfirst := @collect_param params [] param hfull.1 hbound.1
        (by rw [List.length_nil]; omega)
      rw [List.nil_append] at hfirst
      have hpos := List.length_pos_iff.mpr hfull.1
      cases rest with
      | nil =>
          refine ⟨param.dropLast, param.getLast hfull.1, ?_, List.dropLast_append_getLast _⟩
          rw [List.map_singleton, List.intercalate_singleton, hfirst]
          simp
      | cons next rest =>
          rw [List.map_cons, List.map_cons, List.intercalate_cons_cons, List.foldl_append,
            List.foldl_append, hfirst, List.foldl_cons, List.foldl_nil, collect_semicolon ?_,
            List.dropLast_append_getLast, ← List.map_cons]
          · obtain ⟨values, value, hread, hlast⟩ := @ih (params ++ [param]) (List.cons_ne_nil _ _)
              hfull.2 hbound.2 (by simp at hroom ⊢; omega)
            refine ⟨values, value, ?_, hlast⟩
            rw [hread]
            simp
          · rw [List.length_dropLast]
            omega

end

/-- INTERNAL: Digits, colons and semicolons are collected one after another. -/
theorem advanceAll_csi (h : Csi) {bytes : List UInt8} (hbytes : ∀ b ∈ bytes, 0x30 ≤ b ∧ b < 0x40) :
    vte.advanceAll (.csi h) bytes = (.csi (bytes.foldl Csi.collect h), []) := by
  induction bytes generalizing h with
  | nil => rfl
  | cons b bytes ih =>
      rw [List.forall_mem_cons] at hbytes
      obtain ⟨⟨hlow, hhigh⟩, hbytes⟩ := hbytes
      have hstep : vte.advance (.csi h) b = (.csi (h.collect b), []) := by
        show advance (.csi h) b = _
        unfold advance
        rw [if_neg (by grind)]
        show advanceCsi h b = _
        unfold advanceCsi
        rw [if_neg (by grind), if_pos hhigh]
      rw [Tokenizer.advanceAll_cons, hstep, ih _ hbytes]
      rfl

theorem numerals_body (params : List (List ℕ)) :
    ∀ b ∈ [0x3b].intercalate (params.map paramBytes), 0x30 ≤ b ∧ b < 0x40 := by
  have hdigits : ∀ n, ∀ b ∈ itoa n, 0x30 ≤ b ∧ b < 0x40 := fun n b hb =>
    ⟨(digits_itoa n b hb).1, UInt8.lt_trans (digits_itoa n b hb).2 (by decide)⟩
  apply forall_mem_intercalate
  · exact List.forall_mem_singleton.mpr (by decide)
  · rw [List.forall_mem_map]
    intro param _
    apply forall_mem_intercalate
    · exact List.forall_mem_singleton.mpr (by decide)
    · rw [List.forall_mem_map]
      exact fun n _ => hdigits n

theorem collect_body {params : List (List ℕ)} (hne : params ≠ [])
    (hfull : ∀ param ∈ params, param ≠ []) :
    ([0x3b].intercalate (params.map paramBytes)).foldl Csi.collect {} =
      ([0x3b].intercalate (params.map paramBytes)).foldl Csi.collect (reading [] [] 0) := by
  obtain ⟨param, params, rfl⟩ := List.exists_cons_of_ne_nil hne
  obtain ⟨n, ns, hparam⟩ := List.exists_cons_of_ne_nil (hfull param List.mem_cons_self)
  obtain ⟨b, digits, hdigits⟩ : ∃ b digits, itoa n = b :: digits := by
    apply List.exists_cons_of_ne_nil
    rw [itoa_eq]
    exact List.append_ne_nil_of_right_ne_nil _ (List.cons_ne_nil _ _)
  obtain ⟨hlow, hhigh⟩ := digits_itoa n b (by rw [hdigits]; exact List.mem_cons_self)
  obtain ⟨more, hmore⟩ := intercalate_cons [0x3a] (itoa n) (ns.map itoa)
  obtain ⟨others, hothers⟩ := intercalate_cons [0x3b] (paramBytes param) (params.map paramBytes)
  have hbytes : paramBytes param = b :: (digits ++ more) := by
    unfold paramBytes
    rw [hparam, List.map_cons, hmore, hdigits, List.cons_append]
  rw [List.map_cons, hothers, hbytes, List.cons_append, List.foldl_cons, List.foldl_cons,
    collect_entry hlow hhigh]

/-- INTERNAL: `vte` between two characters reads every sequence. -/
theorem readsSgr (bytes : List UInt8) : ReadsSgr vte (.ground bytes) := by
  constructor
  case missing => rfl
  case params =>
    intro params hne hfull hbound hroom
    obtain ⟨values, value, hread, hlast⟩ := @collect_params [] params hne hfull hbound
      (by rw [List.flatten_nil, List.length_nil]; omega)
    rw [List.nil_append, ← collect_body hne hfull] at hread
    have hopen : vte.advanceAll (.ground bytes) [0x1b, 0x5b] = (.csi {}, []) := rfl
    unfold sgrBytes
    rw [Tokenizer.advanceAll_append, Tokenizer.advanceAll_append, hopen,
      advanceAll_csi {} (numerals_body params), hread, Tokenizer.advanceAll_singleton]
    have hparams : params.dropLast ++ [values ++ [value]] = params := by
      rw [hlast, List.dropLast_append_getLast]
    have hlen := congrArg (fun ps : List (List ℕ) => ps.flatten.length) hparams
    simp only [List.flatten_append, List.flatten_cons, List.flatten_nil, List.append_nil,
      List.length_append, List.length_singleton] at hlen
    have hdispatch : (vte.advance (.csi (reading params.dropLast values value)) 0x6d).2 =
        [.csiDispatch (params.dropLast ++ [values ++ [value]]) [] 'm'] := by
      show (reading params.dropLast values value).dispatch 0x6d = _
      unfold Csi.dispatch reading
      dsimp only
      rw [if_neg (by decide), if_neg (by omega)]
      rfl
    dsimp only
    rw [hdispatch, hparams]
    rfl

end Vte

end Tymux.Analysis
