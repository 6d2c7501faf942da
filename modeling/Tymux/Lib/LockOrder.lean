import Tymux.Lib.LockProgram
import Tymux.Lib.Run
import Mathlib.Logic.Relation
import Mathlib.Order.WithBot

/-!
# Lock order

Every lock has a rank, and a thread takes a lock only while all the locks that it holds rank below.
A thread joins the worker of an object only where the worker can have nothing left to wait for: the
object was found done, by a thread that keeps it so by holding the object's guard, or the last
reference to it is gone. Threads that keep these two rules never wait for each other in a circle.

`wp` is the weakest precondition of a program for the rules, over what a thread knows of itself.
`Safe n c` says that every thread whose locks rank below `n` may run `c`, which takes it back to
where it was.
-/

set_option autoImplicit false

namespace Tymux.Lib.Locks

variable {L : Type}

/-- What a thread knows of an object. -/
inductive Mode where
  | plain
  /-- The thread is the worker, and the object is not done. -/
  | worker (o : ℕ)
  /-- The thread is the worker, and the object is done. -/
  | ended (o : ℕ)
  /-- The thread is a worker that has dropped its reference. -/
  | released
  /-- The thread has found the object done, under its guard. -/
  | seen (o : ℕ)
  /-- The object is not done, and no worker is going to mark it as done. -/
  | reopened (o : ℕ)
  /-- The thread has dropped the last reference. -/
  | freeing (o : ℕ) (worker : Bool)
  deriving DecidableEq

structure Ctx (L : Type) where
  held : List L := []
  refs : List ℕ := []
  /-- The object whose worker's handle the thread may hold. -/
  hand : Option ℕ := none
  mode : Mode := .plain

structure Ranking (L : Type) where
  rank : L → ℕ
  /-- The lock under which a done object gets its next worker. -/
  guard : ℕ → L
  /-- The finalizer takes no lock of a lower rank. -/
  floor : ℕ

namespace Mode

/-- The thread may wait. -/
def Active : Mode → Prop
  | ended _ | released => False
  | _ => True

def WorksFor (o : ℕ) : Mode → Prop
  | worker o' | ended o' => o' = o
  | freeing o' b => o' = o ∧ b = true
  | released => True
  | _ => False

/-- What at most one thread can say. -/
def claim : Mode → Option (Bool × ℕ)
  | worker o | reopened o => some (false, o)
  | freeing o _ => some (true, o)
  | _ => none

/-- The thread knows whether the object is done. -/
def Reads (o : ℕ) : Mode → Prop
  | worker o' | seen o' | reopened o' => o' = o
  | _ => False

end Mode

namespace Ctx

def lock (Γ : Ctx L) (l : L) : Ctx L := { Γ with held := l :: Γ.held }

def ref (Γ : Ctx L) (o : ℕ) : Ctx L := { Γ with refs := o :: Γ.refs }

def unref (Γ : Ctx L) (o : ℕ) : Ctx L := { Γ with refs := Γ.refs.erase o }

/-- All locks that the thread holds rank below `n`. -/
def Below (Γ : Ctx L) (R : Ranking L) (n : ℕ) : Prop := ∀ l ∈ Γ.held, R.rank l < n

/-- Whether an object is done is known only as long as its guard is held. -/
def unlock [DecidableEq L] (Γ : Ctx L) (R : Ranking L) (l : L) : Ctx L :=
  { Γ with
    held := Γ.held.erase l
    mode := match Γ.mode with
      | .seen o => if l = R.guard o then .plain else .seen o
      | m => m }

def see [DecidableEq L] (Γ : Ctx L) (R : Ranking L) (o : ℕ) : Ctx L :=
  if Γ.mode = .plain ∧ R.guard o ∈ Γ.held ∧ o ∈ Γ.refs then { Γ with mode := .seen o } else Γ

end Ctx

section Rules

variable [DecidableEq L] (R : Ranking L)

/-- The thread may run the program, and gets to where `Q` holds. -/
def wp : Prog L → (Ctx L → Prop) → Ctx L → Prop
  | .skip, Q, Γ => Q Γ
  | .seq a b, Q, Γ => wp a (wp b Q) Γ
  | .lock l, Q, Γ => Γ.mode.Active ∧ Γ.Below R (R.rank l) ∧ Q (Γ.lock l)
  | .unlock l, Q, Γ => l ∈ Γ.held ∧ Q (Γ.unlock R l)
  | .choose k, Q, Γ => ∀ data, wp (k data) Q Γ
  | .loop body, Q, Γ => wp body (· = Γ) Γ ∧ Q Γ
  | .create k, Q, Γ => Γ.mode = .plain ∧
      ∀ o, wp (k o) Q { Γ with refs := o :: Γ.refs, mode := .reopened o }
  | .upgrade o held gone, Q, Γ => wp held Q (Γ.ref o) ∧ wp gone Q Γ
  | .store o, Q, Γ => o ∈ Γ.refs ∧ Q Γ
  | .unstore o found absent, Q, Γ => wp found Q (Γ.ref o) ∧ wp absent Q Γ
  | .drop o, Q, Γ => o ∈ Γ.refs ∧ Γ.hand = none ∧ Γ.Below R R.floor ∧
      (Γ.mode = .plain ∧ Q (Γ.unref o) ∨
        Γ.mode = .ended o ∧ Q { Γ.unref o with mode := .released })
  | .free o, Q, Γ => ∃ b, Γ.mode = .freeing o b ∧
      Q { Γ with mode := if b then .released else .plain }
  | .ifDone o yes no, Q, Γ => wp yes Q (Γ.see R o) ∧ wp no Q Γ
  | .reopen o, Q, Γ => Γ.mode = .seen o ∧ Q { Γ with mode := .reopened o }
  | .fork o body, Q, Γ => Γ.mode = .reopened o ∧
      wp body (fun Γ' => Γ'.held = []) { refs := [o], mode := .worker o } ∧
      Q { Γ with hand := some o, mode := .plain }
  | .publish o, Q, Γ => Γ.mode = .worker o ∧ Q { Γ with mode := .ended o }
  | .take o, Q, Γ => Q { Γ with hand := some o }
  | .put o, Q, Γ => Γ.hand = some o ∧ Q { Γ with hand := none }
  | .join own, Q, Γ => (∃ o, Γ.hand = some o ∧
      (Γ.mode = .seen o ∨ own = true ∧ ∃ b, Γ.mode = .freeing o b)) ∧ Q { Γ with hand := none }

variable {R}

theorem wp_mono {c : Prog L} {Q Q' : Ctx L → Prop} {Γ : Ctx L} (hQ : ∀ Γ, Q Γ → Q' Γ)
    (h : wp R c Q Γ) : wp R c Q' Γ := by
  induction c generalizing Q Q' Γ with
  | skip => exact hQ Γ h
  | seq a b iha ihb => exact iha (fun _ => ihb hQ) h
  | lock l => exact ⟨h.1, h.2.1, hQ _ h.2.2⟩
  | unlock l => exact ⟨h.1, hQ _ h.2⟩
  | choose k ih => exact fun data => ih data hQ (h data)
  | loop body _ => exact ⟨h.1, hQ _ h.2⟩
  | create k ih => exact ⟨h.1, fun o => ih o hQ (h.2 o)⟩
  | upgrade o held gone ihh ihg => exact ⟨ihh hQ h.1, ihg hQ h.2⟩
  | store o => exact ⟨h.1, hQ _ h.2⟩
  | unstore o found absent ihf iha => exact ⟨ihf hQ h.1, iha hQ h.2⟩
  | drop o =>
      obtain ⟨hmem, hhand, hbelow, ⟨hmode, hq⟩ | ⟨hmode, hq⟩⟩ := h
      · exact ⟨hmem, hhand, hbelow, .inl ⟨hmode, hQ _ hq⟩⟩
      · exact ⟨hmem, hhand, hbelow, .inr ⟨hmode, hQ _ hq⟩⟩
  | free o =>
      obtain ⟨b, hmode, hq⟩ := h
      exact ⟨b, hmode, hQ _ hq⟩
  | ifDone o yes no ihy ihn => exact ⟨ihy hQ h.1, ihn hQ h.2⟩
  | reopen o => exact ⟨h.1, hQ _ h.2⟩
  | fork o body _ => exact ⟨h.1, h.2.1, hQ _ h.2.2⟩
  | publish o => exact ⟨h.1, hQ _ h.2⟩
  | take o => exact hQ _ h
  | put o => exact ⟨h.1, hQ _ h.2⟩
  | join own => exact ⟨h.1, hQ _ h.2⟩

end Rules

/-! ## Programs that any thread may run -/

section Safe

variable [DecidableEq L] {R : Ranking L}

/-- What a thread is asked to know, of its references, of its handle and of the objects. -/
abbrev Know := List ℕ → Option ℕ → Mode → Prop

def anyone : Know := fun _ _ _ => True

/-- The thread holds a reference to each of the objects, and nothing is under way. -/
def owns (os : List ℕ) : Know := fun refs hand mode => os ⊆ refs ∧ hand = none ∧ mode = .plain

variable (R) in
structure Ctx.Free (Γ : Ctx L) (n : ℕ) : Prop where
  active : Γ.mode.Active
  below : Γ.Below R n
  guarded : ∀ o, Γ.mode = .seen o → R.guard o ∈ Γ.held

variable (R) in
/-- Every thread that knows `K`, and whose locks rank below `n`, may run the program and is then
back where it was. -/
def Safe (K : Know) (n : ℕ) (c : Prog L) : Prop :=
  ∀ (Γ : Ctx L) (Q : Ctx L → Prop), K Γ.refs Γ.hand Γ.mode → Γ.Free R n → Q Γ → wp R c Q Γ

variable {K : Know} {n : ℕ}

omit [DecidableEq L] in
theorem Ctx.Free.mono {Γ : Ctx L} {m : ℕ} (h : Γ.Free R n) (hnm : n ≤ m) : Γ.Free R m :=
  ⟨h.active, fun l hl => (h.below l hl).trans_le hnm, h.guarded⟩

omit [DecidableEq L] in
theorem Ctx.Free.lock {Γ : Ctx L} (h : Γ.Free R n) {l : L} (hl : n ≤ R.rank l) :
    (Γ.lock l).Free R (R.rank l + 1) := by
  refine ⟨h.active, fun l' hl' => ?_, fun o ho => List.mem_cons_of_mem _ (h.guarded o ho)⟩
  obtain rfl | hl' := List.mem_cons.mp hl'
  · exact Nat.lt_succ_self _
  · exact ((h.below l' hl').trans_le hl).trans (Nat.lt_succ_self _)

/-- Releasing a lock that ranks above the others forgets nothing. -/
theorem Ctx.Free.unlock_lock {Γ : Ctx L} (h : Γ.Free R n) {l : L} (hl : n ≤ R.rank l) :
    (Γ.lock l).unlock R l = Γ := by
  have hmode : (match Γ.mode with
      | .seen o => if l = R.guard o then Mode.plain else .seen o
      | m => m) = Γ.mode := by
    cases hm : Γ.mode with
    | seen o =>
        refine if_neg ?_
        rintro rfl
        exact absurd (h.below _ (h.guarded o hm)) (Nat.not_lt.mpr hl)
    | plain | released | worker o | reopened o | ended o | freeing o b => rfl
  unfold Ctx.unlock Ctx.lock
  simp only [List.erase_cons_head, hmode]

theorem Ctx.Free.unlock_joined {Γ : Ctx L} (h : Γ.Free R n) (hhand : Γ.hand = none) {l : L}
    (hl : n ≤ R.rank l) : Ctx.unlock { Γ.lock l with hand := none } R l = Γ := by
  have hsame : ({ Γ.lock l with hand := none } : Ctx L) = Γ.lock l := by
    rw [← hhand]
    rfl
  rw [hsame]
  exact h.unlock_lock hl

namespace Safe

theorem mono {K' : Know} {m : ℕ} {c : Prog L} (h : Safe R K m c)
    (hK : ∀ refs hand mode, K' refs hand mode → K refs hand mode) (hnm : n ≤ m) : Safe R K' n c :=
  fun Γ Q hknow hfree hq => h Γ Q (hK _ _ _ hknow) (hfree.mono hnm) hq

theorem below {m : ℕ} {c : Prog L} (h : Safe R K m c) (hnm : n.ble m = true) : Safe R K n c :=
  h.mono (fun _ _ _ hknow => hknow) (Nat.le_of_ble_eq_true hnm)

theorem skip : Safe R K n .skip := fun _ _ _ _ hq => hq

theorem seq {a b : Prog L} (ha : Safe R K n a) (hb : Safe R K n b) : Safe R K n (.seq a b) :=
  fun Γ Q hknow hfree hq => ha Γ _ hknow hfree (hb Γ Q hknow hfree hq)

theorem block {cs : List (Prog L)} (h : ∀ c ∈ cs, Safe R K n c) : Safe R K n (.block cs) := by
  induction cs with
  | nil => exact skip
  | cons c cs ih =>
      exact seq (h c List.mem_cons_self) (ih fun c' hc' => h c' (List.mem_cons_of_mem _ hc'))

theorem nil : Safe R K n (.block []) := skip

theorem cons {c : Prog L} {cs : List (Prog L)} (hc : Safe R K n c) (hcs : Safe R K n (.block cs)) :
    Safe R K n (.block (c :: cs)) := seq hc hcs

theorem choose {k : List ℕ → Prog L} (h : ∀ data, Safe R K n (k data)) :
    Safe R K n (.choose k) :=
  fun Γ Q hknow hfree hq data => h data Γ Q hknow hfree hq

theorem either {a b : Prog L} (ha : Safe R K n a) (hb : Safe R K n b) :
    Safe R K n (.either a b) := by
  refine choose fun data => ?_
  cases data with
  | nil => exact ha
  | cons o os => exact hb

theorem optional {c : Prog L} (hc : Safe R K n c) : Safe R K n (.either .skip c) :=
  either skip hc

theorem some_ {k : ℕ → Prog L} (h : ∀ o, Safe R K n (k o)) : Safe R K n (.some_ k) :=
  choose fun os => h os.headI

theorem loop {c : Prog L} (h : Safe R K n c) : Safe R K n (.loop c) :=
  fun Γ _ hknow hfree hq => ⟨h Γ _ hknow hfree rfl, hq⟩

theorem forEach {os : List ℕ} {k : ℕ → Prog L} (h : ∀ o, Safe R K n (k o)) :
    Safe R K n (.forEach os k) := by
  refine block fun c hc => ?_
  obtain ⟨o, -, rfl⟩ := List.mem_map.mp hc
  exact h o

theorem locked {l : L} {c : Prog L} (hrank : n.ble (R.rank l) = true)
    (hc : Safe R K (R.rank l + 1) c) : Safe R K n (.locked l c) := by
  intro Γ Q hknow hfree hq
  have hl := Nat.le_of_ble_eq_true hrank
  refine ⟨hfree.active, (hfree.mono hl).below, ?_⟩
  refine hc (Γ.lock l) _ hknow (hfree.lock hl) ⟨List.mem_cons_self, ?_⟩
  rw [hfree.unlock_lock hl]
  exact hq

theorem ifDone {o : ℕ} {a b : Prog L} (hguard : n.ble (R.rank (R.guard o)) = true)
    (ha : Safe R K n a) (hb : Safe R K n b) : Safe R K n (.ifDone o a b) := by
  intro Γ Q hknow hfree hq
  have hsee : Γ.see R o = Γ := by
    refine if_neg fun hsees => ?_
    exact absurd (hfree.below _ hsees.2.1) (Nat.not_lt.mpr (Nat.le_of_ble_eq_true hguard))
  refine ⟨?_, hb Γ Q hknow hfree hq⟩
  rw [hsee]
  exact ha Γ Q hknow hfree hq

theorem store {os : List ℕ} {o : ℕ} (ho : o ∈ os) : Safe R (owns os) n (.store o) :=
  fun _ _ hknow _ hq => ⟨hknow.1 ho, hq⟩

/-- A program that runs with one more reference, and drops it in the end. -/
theorem borrowed {os : List ℕ} {o : ℕ} {c : Prog L} (hc : Safe R (owns (o :: os)) n c)
    (hfloor : n ≤ R.floor) {Γ : Ctx L} {Q : Ctx L → Prop}
    (hknow : owns os Γ.refs Γ.hand Γ.mode) (hfree : Γ.Free R n) (hq : Q Γ) :
    wp R (.seq c (.drop o)) Q (Γ.ref o) := by
  have hsub : o :: os ⊆ (Γ.ref o).refs := List.cons_subset_cons o hknow.1
  refine hc (Γ.ref o) _ ⟨hsub, hknow.2⟩ ⟨hfree.active, hfree.below, hfree.guarded⟩ ?_
  refine ⟨List.mem_cons_self, hknow.2.1, (hfree.mono hfloor).below, .inl ⟨hknow.2.2, ?_⟩⟩
  simp only [Ctx.unref, Ctx.ref, List.erase_cons_head]
  exact hq

theorem holding {os : List ℕ} {o : ℕ} {c : Prog L} (hfloor : n.ble R.floor = true)
    (hc : Safe R (owns (o :: os)) n c) : Safe R (owns os) n (.holding o c) :=
  fun _ _ hknow hfree hq =>
    ⟨hc.borrowed (Nat.le_of_ble_eq_true hfloor) hknow hfree hq, hq⟩

theorem taking {os : List ℕ} {o : ℕ} {c : Prog L} (hfloor : n.ble R.floor = true)
    (hc : Safe R (owns (o :: os)) n c) :
    Safe R (owns os) n (.unstore o (.seq c (.drop o)) .skip) :=
  fun _ _ hknow hfree hq =>
    ⟨hc.borrowed (Nat.le_of_ble_eq_true hfloor) hknow hfree hq, hq⟩

/-- The references that were gathered are dropped. -/
theorem wp_dropAll {got : List ℕ} {Γ : Ctx L} {Q : Ctx L → Prop} (hhand : Γ.hand = none)
    (hmode : Γ.mode = .plain) (hbelow : Γ.Below R R.floor) (hq : Q Γ) :
    wp R (.forEach got .drop) Q { Γ with refs := got ++ Γ.refs } := by
  induction got with
  | nil => exact hq
  | cons o got ih =>
      refine ⟨List.mem_cons_self, hhand, hbelow, .inl ⟨hmode, ?_⟩⟩
      simp only [Ctx.unref, List.cons_append, List.erase_cons_head]
      exact ih

theorem wp_gather {k : List ℕ → Prog L} {os held : List ℕ} {Γ : Ctx L} {Q : Ctx L → Prop}
    (hk : ∀ got, wp R (k (got ++ held)) Q { Γ with refs := got ++ Γ.refs }) :
    wp R (.gather k os held) Q Γ := by
  induction os generalizing held Γ with
  | nil => exact hk []
  | cons o os ih =>
      refine ⟨ih fun got => ?_, ih hk⟩
      have hgot := hk (got ++ [o])
      rw [List.append_assoc, List.append_assoc] at hgot
      exact hgot

theorem gathering {l : L} {os : List ℕ} {k : List ℕ → Prog L}
    (hrank : n.ble (R.rank l) = true) (hfloor : n.ble R.floor = true)
    (hk : ∀ held, Safe R (owns held) n (k held)) : Safe R (owns []) n (.gathering l os k) := by
  intro Γ Q hknow hfree hq
  have hl := Nat.le_of_ble_eq_true hrank
  have hbelow := (hfree.mono (Nat.le_of_ble_eq_true hfloor)).below
  refine ⟨hfree.active, (hfree.mono hl).below, wp_gather fun got => ⟨List.mem_cons_self, ?_⟩⟩
  have hrelease : Ctx.unlock { Γ.lock l with refs := got ++ Γ.refs } R l =
      { Γ with refs := got ++ Γ.refs } := by
    have hmode := congrArg Ctx.mode (hfree.unlock_lock hl)
    unfold Ctx.unlock Ctx.lock at hmode ⊢
    simp only [List.erase_cons_head, Ctx.mk.injEq, true_and]
    exact hmode
  rw [List.append_nil]
  exact hrelease ▸ hk got _ _ ⟨List.subset_append_left .., hknow.2⟩
    ⟨hfree.active, hfree.below, hfree.guarded⟩
    (wp_dropAll hknow.2.1 hknow.2.2 hbelow hq)

end Safe

end Safe

end Tymux.Lib.Locks
