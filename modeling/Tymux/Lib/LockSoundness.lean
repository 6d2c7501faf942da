import Tymux.Lib.LockOrder
import Mathlib.Data.Set.Finite.Lemmas
import Mathlib.Tactic.Common

/-!
# Programs in lock order never wait in a circle

The invariant says that every thread stands at programs it may run, knowing what is true, and that
each lock, each object without a worker to come and each object being freed belongs to one thread.
Every move of a thread keeps it. In a pool with the invariant a thread that is waited for, and waits
itself, waits for a lock of a higher rank.
-/

set_option autoImplicit false

namespace Tymux.Lib.Locks

variable {L : Type} [DecidableEq L] {R : Ranking L}

variable (R) in
/-- The thread may run the programs one after the other, and holds no lock in the end. -/
def Runs : List (Prog L) → Ctx L → Prop
  | [], Γ => Γ.held = []
  | c :: cs, Γ => wp R c (Runs cs) Γ

variable (R) in
/-- What a thread that knows `Γ` says of the pool. -/
def Ctx.Holds (s : Pool L) (Γ : Ctx L) : Prop :=
  match Γ.mode with
  | .plain | .released => True
  | .worker o | .reopened o => s.done o = false ∧ o ∈ Γ.refs
  | .ended o => o ∈ Γ.refs
  | .seen o => s.done o = true ∧ R.guard o ∈ Γ.held ∧ o ∈ Γ.refs
  | .freeing o _ => ¬ s.Alive o ∧ o < s.made

variable (R) in
structure Fits (s : Pool L) (th : Thread L) (Γ : Ctx L) : Prop where
  runs : Runs R th.rest Γ
  held : th.held = Γ.held
  refs : th.refs = Γ.refs
  hand : ∀ u, th.hand = some u → ∃ o, Γ.hand = some o ∧ (s.threads u).job = some o
  job : ∀ o, th.job = some o → Γ.mode.WorksFor o
  holds : Γ.Holds R s
  made : ∀ o ∈ Γ.refs, o < s.made

variable (R) in
structure Inv (s : Pool L) (Γ : ℕ → Ctx L) : Prop where
  fits : ∀ t, Fits R s (s.threads t) (Γ t)
  locks : ∀ t u l, l ∈ (Γ t).held → l ∈ (Γ u).held → t = u
  claims : ∀ t u c, (Γ t).mode.claim = some c → (Γ u).mode.claim = some c → t = u
  slots : ∀ o u, s.slot o = some u → (s.threads u).job = some o
  stored : ∀ o ∈ s.stored, o < s.made
  done : ∀ o, s.done o = true → o < s.made
  unborn : ∀ t, s.born ≤ t → s.threads t = {}

omit [DecidableEq L] in
theorem Ctx.Holds.mono {s s' : Pool L} {Γ : Ctx L} (h : Γ.Holds R s) (hmade : s.made ≤ s'.made)
    (hdone : ∀ o, Γ.mode.Reads o → s'.done o = s.done o)
    (halive : ∀ o < s.made, s'.Alive o → s.Alive o) : Γ.Holds R s' := by
  unfold Ctx.Holds at h ⊢
  cases hmode : Γ.mode with
  | plain | released => trivial
  | worker o | reopened o | seen o =>
      rw [hmode] at h hdone
      simp only at h ⊢
      rw [hdone o rfl]
      exact h
  | ended o =>
      rw [hmode] at h
      exact h
  | freeing o b =>
      rw [hmode] at h
      exact ⟨fun hal => h.1 (halive o h.2 hal), h.2.trans_le hmade⟩

theorem Fits.mono {s s' : Pool L} {th : Thread L} {Γ : Ctx L} (h : Fits R s th Γ)
    (hjob : ∀ u o, (s.threads u).job = some o → (s'.threads u).job = some o)
    (hmade : s.made ≤ s'.made) (hdone : ∀ o, Γ.mode.Reads o → s'.done o = s.done o)
    (halive : ∀ o < s.made, s'.Alive o → s.Alive o) : Fits R s' th Γ where
  runs := h.runs
  held := h.held
  refs := h.refs
  hand u hu := by
    obtain ⟨o, ho, hjobu⟩ := h.hand u hu
    exact ⟨o, ho, hjob u o hjobu⟩
  job := h.job
  holds := h.holds.mono hmade hdone halive
  made o ho := (h.made o ho).trans_le hmade

/-- **The frame rule.** The threads in `T` change, and fit; what they share changes so that the
others still say what is true. -/
theorem Inv.change {s s' : Pool L} {Γ Γ' : ℕ → Ctx L} (h : Inv R s Γ) (T : ℕ → Prop)
    (hsame : ∀ u, ¬ T u → s'.threads u = s.threads u ∧ Γ' u = Γ u)
    (hfits : ∀ u, T u → Fits R s' (s'.threads u) (Γ' u))
    (hjob : ∀ u o, (s.threads u).job = some o → (s'.threads u).job = some o)
    (hmade : s.made ≤ s'.made)
    (hreads : ∀ u, ¬ T u → ∀ o, (Γ u).mode.Reads o → s'.done o = s.done o)
    (halive : ∀ o < s.made, s'.Alive o → s.Alive o)
    (hlocks : ∀ t u l, T t → l ∈ (Γ' t).held → l ∈ (Γ' u).held → t = u)
    (hclaims : ∀ t u c, T t → (Γ' t).mode.claim = some c → (Γ' u).mode.claim = some c → t = u)
    (hslots : ∀ o u, s'.slot o = some u → (s'.threads u).job = some o)
    (hstored : ∀ o ∈ s'.stored, o < s'.made) (hdone : ∀ o, s'.done o = true → o < s'.made)
    (hunborn : ∀ t, s'.born ≤ t → s'.threads t = {}) : Inv R s' Γ' where
  fits u := by
    by_cases hu : T u
    · exact hfits u hu
    · rw [(hsame u hu).1, (hsame u hu).2]
      exact (h.fits u).mono hjob hmade (hreads u hu) halive
  locks t u l ht hu := by
    by_cases hT : T t
    · exact hlocks t u l hT ht hu
    by_cases hU : T u
    · exact (hlocks u t l hU hu ht).symm
    · rw [(hsame t hT).2] at ht
      rw [(hsame u hU).2] at hu
      exact h.locks t u l ht hu
  claims t u c ht hu := by
    by_cases hT : T t
    · exact hclaims t u c hT ht hu
    by_cases hU : T u
    · exact (hclaims u t c hU hu ht).symm
    · rw [(hsame t hT).2] at ht
      rw [(hsame u hU).2] at hu
      exact h.claims t u c ht hu
  slots := hslots
  stored := hstored
  done := hdone
  unborn := hunborn

/-! ## One thread moves -/

section Moves

variable {s s' : Pool L} {Γ : ℕ → Ctx L} {t : ℕ} {th : Thread L} {γ : Ctx L}

theorem Inv.born (h : Inv R s Γ) (hne : s.threads t ≠ {}) : t < s.born := by
  by_contra hborn
  exact hne (h.unborn t (Nat.le_of_not_lt hborn))

theorem Inv.alive (h : Inv R s Γ) {o : ℕ} (ho : o ∈ (Γ t).refs) : s.Alive o := by
  rw [← (h.fits t).refs] at ho
  refine .inr ⟨t, h.born fun hempty => ?_, ho⟩
  rw [hempty] at ho
  cases ho

theorem Inv.not_held_of_free (h : Inv R s Γ) {l : L} (hfree : s.Free l) (u : ℕ) :
    l ∉ (Γ u).held := by
  rw [← (h.fits u).held]
  by_cases hu : u < s.born
  · exact hfree u hu
  · rw [h.unborn u (Nat.le_of_not_lt hu)]
    exact List.not_mem_nil

/-- The frame rule for one thread. -/
theorem Inv.move (h : Inv R s Γ) (hthreads : s'.threads = Function.update s.threads t th)
    (hborn : s'.born = s.born) (ht : t < s.born) (hjob : th.job = (s.threads t).job)
    (hmade : s.made ≤ s'.made)
    (hreads : ∀ u ≠ t, ∀ o, (Γ u).mode.Reads o → s'.done o = s.done o)
    (halive : ∀ o < s.made, s'.Alive o → s.Alive o)
    (hruns : Runs R th.rest γ) (hheld : th.held = γ.held) (hrefs : th.refs = γ.refs)
    (hhand : ∀ u, th.hand = some u → ∃ o, γ.hand = some o ∧ (s.threads u).job = some o)
    (hworks : ∀ o, (s.threads t).job = some o → γ.mode.WorksFor o) (hholds : γ.Holds R s')
    (hrefsMade : ∀ o ∈ γ.refs, o < s'.made)
    (hlocks : ∀ l ∈ γ.held, l ∈ (Γ t).held ∨ s.Free l)
    (hclaims : ∀ c, γ.mode.claim = some c →
      (Γ t).mode.claim = some c ∨ ∀ u ≠ t, (Γ u).mode.claim ≠ some c)
    (hslots : ∀ o u, s'.slot o = some u → (s.threads u).job = some o)
    (hstored : ∀ o ∈ s'.stored, o < s'.made) (hdone : ∀ o, s'.done o = true → o < s'.made) :
    Inv R s' (Function.update Γ t γ) := by
  have hjobs : ∀ u o, (s.threads u).job = some o → (s'.threads u).job = some o := by
    intro u o hu
    rw [hthreads]
    by_cases hut : u = t
    · subst hut
      rw [Function.update_self, hjob]
      exact hu
    · rw [Function.update_of_ne hut]
      exact hu
  refine h.change (· = t) ?_ ?_ hjobs hmade hreads halive ?_ ?_ ?_ hstored hdone ?_
  · intro u hu
    rw [hthreads, Function.update_of_ne hu, Function.update_of_ne hu]
    exact ⟨rfl, rfl⟩
  · rintro u rfl
    rw [hthreads, Function.update_self, Function.update_self]
    refine ⟨hruns, hheld, hrefs, fun v hv => ?_, fun o ho => ?_, hholds, hrefsMade⟩
    · obtain ⟨o, ho, hv⟩ := hhand v hv
      exact ⟨o, ho, hjobs v o hv⟩
    · exact hworks o (hjob ▸ ho)
  · rintro u v l rfl hu hv
    by_contra hne
    rw [Function.update_self] at hu
    rw [Function.update_of_ne (Ne.symm hne)] at hv
    obtain hl | hfree := hlocks l hu
    · exact hne (h.locks u v l hl hv)
    · exact h.not_held_of_free hfree v hv
  · rintro u v c rfl hu hv
    by_contra hne
    rw [Function.update_self] at hu
    rw [Function.update_of_ne (Ne.symm hne)] at hv
    obtain hc | hnone := hclaims c hu
    · exact hne (h.claims u v c hc hv)
    · exact hnone v (Ne.symm hne) hv
  · intro o u hu
    exact hjobs u o (hslots o u hu)
  · intro u hu
    rw [hborn] at hu
    rw [hthreads, Function.update_of_ne (Nat.ne_of_gt (ht.trans_le hu))]
    exact h.unborn u hu

omit [DecidableEq L] in
theorem alive_setThread {o : ℕ} (hrefs : ∀ o ∈ th.refs, s.Alive o)
    (h : (s.setThread t th).Alive o) : s.Alive o := by
  obtain hstored | ⟨u, hu, ho⟩ := h
  · exact .inl hstored
  · simp only [Pool.setThread] at hu ho
    by_cases hut : u = t
    · subst hut
      rw [Function.update_self] at ho
      exact hrefs o ho
    · rw [Function.update_of_ne hut] at ho
      exact .inr ⟨u, hu, ho⟩

/-- The frame rule for one thread that leaves alone what the threads share. -/
theorem Inv.stay (h : Inv R s Γ) (ht : t < s.born) (hjob : th.job = (s.threads t).job)
    (hruns : Runs R th.rest γ) (hheld : th.held = γ.held) (hrefs : th.refs = γ.refs)
    (hhand : ∀ u, th.hand = some u → ∃ o, γ.hand = some o ∧ (s.threads u).job = some o)
    (hworks : ∀ o, (s.threads t).job = some o → γ.mode.WorksFor o)
    (hholds : γ.Holds R (s.setThread t th)) (halive : ∀ o ∈ γ.refs, s.Alive o)
    (hrefsMade : ∀ o ∈ γ.refs, o < s.made)
    (hlocks : ∀ l ∈ γ.held, l ∈ (Γ t).held ∨ s.Free l)
    (hclaims : ∀ c, γ.mode.claim = some c →
      (Γ t).mode.claim = some c ∨ ∀ u ≠ t, (Γ u).mode.claim ≠ some c) :
    Inv R (s.setThread t th) (Function.update Γ t γ) :=
  h.move rfl rfl ht hjob (Nat.le_refl _) (fun _ _ _ _ => rfl)
    (fun _ _ => alive_setThread (fun o ho => halive o (hrefs ▸ ho))) hruns hheld hrefs hhand hworks
    hholds hrefsMade hlocks hclaims h.slots h.stored h.done

theorem Inv.holds (h : Inv R s Γ) (hrefs : ∀ o ∈ th.refs, s.Alive o) :
    (Γ t).Holds R (s.setThread t th) :=
  (h.fits t).holds.mono (Nat.le_refl _) (fun _ _ => rfl) fun _ _ => alive_setThread hrefs

theorem Inv.alive_refs (h : Inv R s Γ) : ∀ o ∈ (s.threads t).refs, s.Alive o := by
  intro o ho
  rw [(h.fits t).refs] at ho
  exact h.alive ho

/-- A thread that changes nothing but where it stands. -/
theorem Inv.goOn (h : Inv R s Γ) (ht : t < s.born) {cs : List (Prog L)}
    (hruns : Runs R cs (Γ t)) : Inv R (s.setThread t { s.threads t with rest := cs }) Γ := by
  have hfits := h.fits t
  have hstay : Inv R (s.setThread t { s.threads t with rest := cs }) (Function.update Γ t (Γ t)) :=
    h.stay ht rfl hruns hfits.held hfits.refs hfits.hand hfits.job
      (h.holds h.alive_refs) (fun o ho => h.alive ho) hfits.made
      (fun _ hl => .inl hl) (fun _ hc => .inl hc)
  rwa [Function.update_eq_self] at hstay

omit [DecidableEq L] in
theorem Ctx.Holds.lock (h : γ.Holds R s) (l : L) : (γ.lock l).Holds R s := by
  unfold Ctx.Holds Ctx.lock at *
  cases hmode : γ.mode with
  | seen o =>
      rw [hmode] at h
      exact ⟨h.1, List.mem_cons_of_mem _ h.2.1, h.2.2⟩
  | plain | released | worker o | reopened o | ended o | freeing o b =>
      rw [hmode] at h
      exact h

theorem Ctx.Holds.unlock (h : γ.Holds R s) (l : L) : (γ.unlock R l).Holds R s := by
  unfold Ctx.Holds Ctx.unlock at *
  cases hmode : γ.mode with
  | seen o =>
      rw [hmode] at h
      by_cases hl : l = R.guard o
      · simp only [if_pos hl]
      · simp only [if_neg hl]
        exact ⟨h.1, (List.mem_erase_of_ne (Ne.symm hl)).mpr h.2.1, h.2.2⟩
  | plain | released | worker o | reopened o | ended o | freeing o b =>
      rw [hmode] at h
      exact h

theorem Ctx.claim_unlock (γ : Ctx L) (l : L) : (γ.unlock R l).mode.claim = γ.mode.claim := by
  unfold Ctx.unlock
  cases hmode : γ.mode with
  | seen o => by_cases hl : l = R.guard o <;> simp [hl, Mode.claim]
  | plain | released | worker o | reopened o | ended o | freeing o b => rfl

theorem Ctx.worksFor_unlock {γ : Ctx L} {o : ℕ} (h : γ.mode.WorksFor o) (l : L) :
    (γ.unlock R l).mode.WorksFor o := by
  unfold Ctx.unlock
  cases hmode : γ.mode with
  | seen o =>
      rw [hmode] at h
      exact h.elim
  | plain | released | worker o | reopened o | ended o | freeing o b =>
      rw [hmode] at h
      exact h

theorem Inv.lock (h : Inv R s Γ) (ht : t < s.born) {l : L} {cs : List (Prog L)}
    (hruns : Runs R cs ((Γ t).lock l)) (hfree : s.Free l) :
    Inv R (s.setThread t { s.threads t with rest := cs, held := l :: (s.threads t).held })
      (Function.update Γ t ((Γ t).lock l)) := by
  have hfits := h.fits t
  refine h.stay ht rfl hruns (congrArg _ hfits.held) hfits.refs hfits.hand hfits.job ?_
    (fun o ho => h.alive ho) hfits.made ?_ (fun _ hc => .inl hc)
  · apply Ctx.Holds.lock
    exact h.holds h.alive_refs
  · intro l' hl'
    obtain rfl | hl' := List.mem_cons.mp hl'
    · exact .inr hfree
    · exact .inl hl'

theorem Inv.unlock (h : Inv R s Γ) (ht : t < s.born) {l : L} {cs : List (Prog L)}
    (hruns : Runs R cs ((Γ t).unlock R l)) :
    Inv R (s.setThread t { s.threads t with rest := cs, held := (s.threads t).held.erase l })
      (Function.update Γ t ((Γ t).unlock R l)) := by
  have hfits := h.fits t
  refine h.stay ht rfl hruns (congrArg (List.erase · l) hfits.held) hfits.refs hfits.hand
    (fun o ho => Ctx.worksFor_unlock (hfits.job o ho) l) ?_ (fun o ho => h.alive ho) hfits.made
    (fun l' hl' => .inl (List.mem_of_mem_erase hl')) ?_
  · apply Ctx.Holds.unlock
    exact h.holds h.alive_refs
  · intro c hc
    rw [Ctx.claim_unlock] at hc
    exact .inl hc

/-! ### References -/

omit [DecidableEq L] in
theorem Ctx.Holds.ref (h : γ.Holds R s) (o : ℕ) : (γ.ref o).Holds R s := by
  unfold Ctx.Holds Ctx.ref at *
  cases hmode : γ.mode with
  | worker o | reopened o =>
      rw [hmode] at h
      exact ⟨h.1, List.mem_cons_of_mem _ h.2⟩
  | ended o =>
      rw [hmode] at h
      exact List.mem_cons_of_mem _ h
  | seen o =>
      rw [hmode] at h
      exact ⟨h.1, h.2.1, List.mem_cons_of_mem _ h.2.2⟩
  | plain | released | freeing o b =>
      rw [hmode] at h
      exact h

theorem Inv.alive_cons (h : Inv R s Γ) {o : ℕ} (halive : s.Alive o) :
    ∀ o' ∈ o :: (s.threads t).refs, s.Alive o' := by
  intro o' ho'
  obtain rfl | ho' := List.mem_cons.mp ho'
  · exact halive
  · exact h.alive_refs o' ho'

theorem Inv.lt_made (h : Inv R s Γ) {o : ℕ} (halive : s.Alive o) : o < s.made := by
  obtain hstored | ⟨u, -, ho⟩ := halive
  · exact h.stored o hstored
  · rw [(h.fits u).refs] at ho
    exact (h.fits u).made o ho

theorem Inv.ref (h : Inv R s Γ) (ht : t < s.born) {o : ℕ} {cs : List (Prog L)}
    (hruns : Runs R cs ((Γ t).ref o)) (halive : s.Alive o) :
    Inv R (s.setThread t { s.threads t with rest := cs, refs := o :: (s.threads t).refs })
      (Function.update Γ t ((Γ t).ref o)) := by
  have hfits := h.fits t
  have hcons := h.alive_cons (t := t) halive
  refine h.stay ht rfl hruns hfits.held (congrArg _ hfits.refs) hfits.hand hfits.job ?_ ?_ ?_
    (fun _ hl => .inl hl) (fun _ hc => .inl hc)
  · apply Ctx.Holds.ref
    exact h.holds hcons
  · rw [hfits.refs] at hcons
    exact hcons
  · intro o' ho'
    rw [hfits.refs] at hcons
    exact h.lt_made (hcons o' ho')

theorem Inv.store (h : Inv R s Γ) (ht : t < s.born) {o : ℕ} {cs : List (Prog L)}
    (hruns : Runs R cs (Γ t)) (ho : o ∈ (Γ t).refs) :
    Inv R { s.setThread t { s.threads t with rest := cs } with stored := o :: s.stored } Γ := by
  have hfits := h.fits t
  have halive : ∀ o', Pool.Alive { s.setThread t { s.threads t with rest := cs } with
      stored := o :: s.stored } o' → s.Alive o' := by
    rintro o' (hstored | hrefs)
    · obtain rfl | hstored := List.mem_cons.mp hstored
      · exact h.alive ho
      · exact .inl hstored
    · have hthread : (s.setThread t { s.threads t with rest := cs }).Alive o' := .inr hrefs
      refine alive_setThread ?_ hthread
      exact h.alive_refs
  have hmove : Inv R { s.setThread t { s.threads t with rest := cs } with
      stored := o :: s.stored } (Function.update Γ t (Γ t)) := by
    refine h.move rfl rfl ht rfl (Nat.le_refl _) (fun _ _ _ _ => rfl) (fun o' _ => halive o') hruns
      hfits.held hfits.refs hfits.hand hfits.job
      (hfits.holds.mono (Nat.le_refl _) (fun _ _ => rfl) fun o' _ => halive o') hfits.made
      (fun _ hl => .inl hl) (fun _ hc => .inl hc) h.slots ?_ h.done
    intro o' ho'
    obtain rfl | ho' := List.mem_cons.mp ho'
    · exact hfits.made o' ho
    · exact h.stored o' ho'
  rwa [Function.update_eq_self] at hmove

theorem Inv.unstore (h : Inv R s Γ) (ht : t < s.born) {o : ℕ} {cs : List (Prog L)}
    (hruns : Runs R cs ((Γ t).ref o)) (ho : o ∈ s.stored) :
    Inv R { s.setThread t { s.threads t with rest := cs, refs := o :: (s.threads t).refs } with
      stored := s.stored.erase o } (Function.update Γ t ((Γ t).ref o)) := by
  have hfits := h.fits t
  have hcons := h.alive_cons (t := t) (.inl ho)
  have halive : ∀ o', Pool.Alive { s.setThread t
      { s.threads t with rest := cs, refs := o :: (s.threads t).refs } with
      stored := s.stored.erase o } o' → s.Alive o' := by
    rintro o' (hstored | hrefs)
    · exact .inl (List.mem_of_mem_erase hstored)
    · have hthread : (s.setThread t { s.threads t with
          rest := cs, refs := o :: (s.threads t).refs }).Alive o' := .inr hrefs
      exact alive_setThread hcons hthread
  refine h.move rfl rfl ht rfl (Nat.le_refl _) (fun _ _ _ _ => rfl) (fun o' _ => halive o') hruns
    hfits.held (congrArg _ hfits.refs) hfits.hand hfits.job ?_ ?_ (fun _ hl => .inl hl)
    (fun _ hc => .inl hc) h.slots (fun o' ho' => h.stored o' (List.mem_of_mem_erase ho')) h.done
  · apply Ctx.Holds.ref
    exact hfits.holds.mono (Nat.le_refl _) (fun _ _ => rfl) fun o' _ => halive o'
  · intro o' ho'
    rw [hfits.refs] at hcons
    exact h.lt_made (hcons o' ho')

theorem claim_eq_freeing {m : Mode} {o : ℕ} (h : m.claim = some (true, o)) :
    ∃ b, m = .freeing o b := by
  cases m <;> simp_all [Mode.claim]

theorem claim_eq_pending {m : Mode} {o : ℕ} (h : m.claim = some (false, o)) :
    m = .worker o ∨ m = .reopened o := by
  cases m <;> simp_all [Mode.claim]

theorem Inv.pending (h : Inv R s Γ) {o : ℕ} (hclaim : (Γ t).mode.claim = some (false, o)) :
    s.done o = false ∧ o ∈ (Γ t).refs := by
  have hholds := (h.fits t).holds
  unfold Ctx.Holds at hholds
  obtain hmode | hmode := claim_eq_pending hclaim
  all_goals
    rw [hmode] at hholds
    exact hholds

theorem Inv.freeing (h : Inv R s Γ) {o : ℕ} (hclaim : (Γ t).mode.claim = some (true, o)) :
    ¬ s.Alive o := by
  have hholds := (h.fits t).holds
  unfold Ctx.Holds at hholds
  obtain ⟨b, hmode⟩ := claim_eq_freeing hclaim
  rw [hmode] at hholds
  exact hholds.1

/-- A reference that is not the last one is dropped. -/
theorem Inv.unref (h : Inv R s Γ) (ht : t < s.born) {o : ℕ} {cs : List (Prog L)}
    {m : Mode} (hruns : Runs R cs { (Γ t).unref o with mode := m })
    (hmode : (Γ t).mode = .plain ∧ m = .plain ∨ (Γ t).mode = .ended o ∧ m = .released) :
    Inv R (s.setThread t { s.threads t with rest := cs, refs := (s.threads t).refs.erase o })
      (Function.update Γ t { (Γ t).unref o with mode := m }) := by
  have hfits := h.fits t
  refine h.stay ht rfl hruns hfits.held (congrArg (List.erase · o) hfits.refs) hfits.hand ?_ ?_
    (fun o' ho' => h.alive (List.mem_of_mem_erase ho'))
    (fun o' ho' => hfits.made o' (List.mem_of_mem_erase ho')) (fun _ hl => .inl hl) ?_
  · intro o' ho'
    have hworks := hfits.job o' ho'
    obtain ⟨hplain, -⟩ | ⟨-, rfl⟩ := hmode
    · rw [hplain] at hworks
      exact hworks.elim
    · trivial
  · obtain ⟨-, rfl⟩ | ⟨-, rfl⟩ := hmode <;> trivial
  · intro c hc
    obtain ⟨-, rfl⟩ | ⟨-, rfl⟩ := hmode <;> cases hc

/-- The last reference is dropped. -/
theorem Inv.free (h : Inv R s Γ) (ht : t < s.born) {o : ℕ} {b : Bool} {cs : List (Prog L)}
    (ho : o ∈ (Γ t).refs) (hruns : Runs R cs { (Γ t).unref o with mode := .freeing o b })
    (hmode : (Γ t).mode = .plain ∧ b = false ∨ (Γ t).mode = .ended o ∧ b = true)
    (hlast : ¬ (s.setThread t { s.threads t with
      rest := cs, refs := (s.threads t).refs.erase o }).Alive o) :
    Inv R (s.setThread t { s.threads t with rest := cs, refs := (s.threads t).refs.erase o })
      (Function.update Γ t { (Γ t).unref o with mode := .freeing o b }) := by
  have hfits := h.fits t
  refine h.stay ht rfl hruns hfits.held (congrArg (List.erase · o) hfits.refs) hfits.hand ?_
    ⟨hlast, hfits.made o ho⟩ (fun o' ho' => h.alive (List.mem_of_mem_erase ho'))
    (fun o' ho' => hfits.made o' (List.mem_of_mem_erase ho')) (fun _ hl => .inl hl) ?_
  · intro o' ho'
    have hworks := hfits.job o' ho'
    obtain ⟨hplain, -⟩ | ⟨hended, rfl⟩ := hmode
    · rw [hplain] at hworks
      exact hworks.elim
    · rw [hended] at hworks
      exact ⟨hworks, rfl⟩
  · rintro c ⟨⟩
    exact .inr fun u _ hu => h.freeing hu (h.alive ho)

theorem Inv.create (h : Inv R s Γ) (ht : t < s.born) {cs : List (Prog L)}
    (hmode : (Γ t).mode = .plain)
    (hruns : Runs R cs { Γ t with refs := s.made :: (Γ t).refs, mode := .reopened s.made }) :
    Inv R { s.setThread t { s.threads t with rest := cs, refs := s.made :: (s.threads t).refs } with
      made := s.made + 1 }
      (Function.update Γ t
        { Γ t with refs := s.made :: (Γ t).refs, mode := .reopened s.made }) := by
  have hfits := h.fits t
  refine h.move rfl rfl ht rfl (Nat.le_succ _) (fun _ _ _ _ => rfl) ?_ hruns hfits.held
    (congrArg _ hfits.refs) hfits.hand ?_ ⟨?_, List.mem_cons_self⟩ ?_ (fun _ hl => .inl hl) ?_
    h.slots (fun o ho => (h.stored o ho).trans (Nat.lt_succ_self _))
    (fun o ho => (h.done o ho).trans (Nat.lt_succ_self _))
  · rintro o ho (hstored | ⟨u, hu, hrefs⟩)
    · exact .inl hstored
    · simp only [Pool.setThread] at hu hrefs
      by_cases hut : u = t
      · subst hut
        rw [Function.update_self] at hrefs
        obtain rfl | hrefs := List.mem_cons.mp hrefs
        · exact absurd ho (Nat.lt_irrefl _)
        · exact .inr ⟨u, hu, hrefs⟩
      · rw [Function.update_of_ne hut] at hrefs
        exact .inr ⟨u, hu, hrefs⟩
  · intro o ho
    have hworks := hfits.job o ho
    rw [hmode] at hworks
    exact hworks.elim
  · exact Bool.eq_false_iff.mpr fun hdone => Nat.lt_irrefl _ (h.done s.made hdone)
  · intro o ho
    obtain rfl | ho := List.mem_cons.mp ho
    · exact Nat.lt_succ_self _
    · exact (hfits.made o ho).trans (Nat.lt_succ_self _)
  · rintro c ⟨⟩
    exact .inr fun u _ hu => Nat.lt_irrefl _ ((h.fits u).made s.made (h.pending hu).2)

/-- The finalizer has run. -/
theorem Inv.freed (h : Inv R s Γ) (ht : t < s.born) {o : ℕ} {b : Bool} {cs : List (Prog L)}
    (hmode : (Γ t).mode = .freeing o b)
    (hruns : Runs R cs { Γ t with mode := if b then .released else .plain }) :
    Inv R (s.setThread t { s.threads t with rest := cs })
      (Function.update Γ t { Γ t with mode := if b then .released else .plain }) := by
  have hfits := h.fits t
  refine h.stay ht rfl hruns hfits.held hfits.refs hfits.hand ?_ ?_ (fun o ho => h.alive ho)
    hfits.made (fun _ hl => .inl hl) ?_
  · intro o' ho'
    have hworks := hfits.job o' ho'
    rw [hmode] at hworks
    rw [hworks.2]
    trivial
  · cases b <;> trivial
  · intro c hc
    cases b <;> cases hc

/-! ### Whether an object is done -/

theorem Inv.see (h : Inv R s Γ) (ht : t < s.born) {o : ℕ} {cs : List (Prog L)}
    (hruns : Runs R cs ((Γ t).see R o)) (hdone : s.done o = true) :
    Inv R (s.setThread t { s.threads t with rest := cs })
      (Function.update Γ t ((Γ t).see R o)) := by
  unfold Ctx.see at hruns ⊢
  by_cases hsees : (Γ t).mode = .plain ∧ R.guard o ∈ (Γ t).held ∧ o ∈ (Γ t).refs
  · rw [if_pos hsees] at hruns ⊢
    have hfits := h.fits t
    refine h.stay ht rfl hruns hfits.held hfits.refs hfits.hand ?_ ⟨hdone, hsees.2⟩
      (fun o ho => h.alive ho) hfits.made (fun _ hl => .inl hl) ?_
    · intro o' ho'
      have hworks := hfits.job o' ho'
      rw [hsees.1] at hworks
      exact hworks.elim
    · rintro c ⟨⟩
  · rw [if_neg hsees] at hruns ⊢
    rw [Function.update_eq_self]
    exact h.goOn ht hruns

/-- What a thread says that has seen the object done, or will mark it as done, concerns it alone. -/
theorem Inv.not_reads (h : Inv R s Γ) {o : ℕ}
    (hmode : (Γ t).mode = .seen o ∨ (Γ t).mode = .worker o) :
    ∀ u ≠ t, ¬ (Γ u).mode.Reads o := by
  intro u hut hreads
  have hholds := (h.fits t).holds
  have hholdsu := (h.fits u).holds
  unfold Ctx.Holds at hholds hholdsu
  cases hu : (Γ u).mode with
  | plain | released | ended o' | freeing o' b =>
      rw [hu] at hreads
      exact hreads
  | worker o' | reopened o' =>
      rw [hu] at hreads hholdsu
      obtain rfl : o' = o := hreads
      obtain hmode | hmode := hmode
      · rw [hmode] at hholds
        exact Bool.false_ne_true (hholdsu.1.symm.trans hholds.1)
      · exact hut (h.claims u t (false, o') (by rw [hu]; rfl) (by rw [hmode]; rfl))
  | seen o' =>
      rw [hu] at hreads hholdsu
      obtain rfl : o' = o := hreads
      obtain hmode | hmode := hmode
      · rw [hmode] at hholds
        exact hut (h.locks u t _ hholdsu.2.1 hholds.2.1)
      · rw [hmode] at hholds
        exact Bool.false_ne_true (hholds.1.symm.trans hholdsu.1)

theorem Inv.mark (h : Inv R s Γ) (ht : t < s.born) {o : ℕ} {b : Bool} {m : Mode}
    {cs : List (Prog L)} (hruns : Runs R cs { Γ t with mode := m })
    (hmode : (Γ t).mode = .seen o ∧ m = .reopened o ∧ b = false ∨
      (Γ t).mode = .worker o ∧ m = .ended o ∧ b = true) :
    Inv R { s.setThread t { s.threads t with rest := cs } with
      done := Function.update s.done o b } (Function.update Γ t { Γ t with mode := m }) := by
  have hfits := h.fits t
  have hholds := hfits.holds
  unfold Ctx.Holds at hholds
  have hrefs : o ∈ (Γ t).refs := by
    obtain ⟨hmode, -⟩ | ⟨hmode, -⟩ := hmode
    · rw [hmode] at hholds
      exact hholds.2.2
    · rw [hmode] at hholds
      exact hholds.2
  have hothers : ∀ u ≠ t, ¬ (Γ u).mode.Reads o :=
    h.not_reads (hmode.imp (fun hseen => hseen.1) fun hworker => hworker.1)
  refine h.move rfl rfl ht rfl (Nat.le_refl _) ?_ ?_ hruns hfits.held hfits.refs hfits.hand ?_ ?_
    hfits.made (fun _ hl => .inl hl) ?_ h.slots h.stored ?_
  · intro u hu o' ho'
    refine Function.update_of_ne ?_ _ _
    rintro rfl
    exact hothers u hu ho'
  · intro o' _ halive
    have hthread : (s.setThread t { s.threads t with rest := cs }).Alive o' := halive
    refine alive_setThread ?_ hthread
    exact h.alive_refs
  · intro o' ho'
    have hworks := hfits.job o' ho'
    obtain ⟨hmode, -⟩ | ⟨hmode, rfl, -⟩ := hmode
    · rw [hmode] at hworks
      exact hworks.elim
    · rw [hmode] at hworks
      exact hworks
  · obtain ⟨-, rfl, rfl⟩ | ⟨-, rfl, -⟩ := hmode
    · exact ⟨Function.update_self .., hrefs⟩
    · exact hrefs
  · intro c hc
    obtain ⟨hmode, rfl, -⟩ | ⟨-, rfl, -⟩ := hmode
    · cases hc
      rw [hmode] at hholds
      refine .inr fun u hu hclaim => ?_
      exact Bool.false_ne_true ((h.pending hclaim).1.symm.trans hholds.1)
    · cases hc
  · intro o' ho'
    by_cases hoo : o' = o
    · subst hoo
      exact hfits.made o' hrefs
    · simp only [Function.update_of_ne hoo] at ho'
      exact h.done o' ho'

/-! ### Handles -/

theorem Inv.hand (h : Inv R s Γ) (ht : t < s.born) {hand x : Option ℕ} {cs : List (Prog L)}
    (hruns : Runs R cs { Γ t with hand := x }) {slot : ℕ → Option ℕ}
    (hhand : ∀ u, hand = some u → ∃ o, x = some o ∧ (s.threads u).job = some o)
    (hslot : ∀ o u, slot o = some u → (s.threads u).job = some o) :
    Inv R { s.setThread t { s.threads t with rest := cs, hand := hand } with slot := slot }
      (Function.update Γ t { Γ t with hand := x }) := by
  have hfits := h.fits t
  have halive : ∀ o, Pool.Alive { s.setThread t { s.threads t with rest := cs, hand := hand } with
      slot := slot } o → s.Alive o := by
    intro o ho
    have hthread : (s.setThread t { s.threads t with rest := cs, hand := hand }).Alive o := ho
    refine alive_setThread ?_ hthread
    exact h.alive_refs
  exact h.move rfl rfl ht rfl (Nat.le_refl _) (fun _ _ _ _ => rfl) (fun o _ => halive o) hruns
    hfits.held hfits.refs hhand hfits.job
    (hfits.holds.mono (Nat.le_refl _) (fun _ _ => rfl) fun o _ => halive o) hfits.made
    (fun _ hl => .inl hl) (fun _ hc => .inl hc) hslot h.stored h.done

/-! ### New threads -/

theorem Inv.start (h : Inv R s Γ) {c : Prog L} (hc : wp R c (fun Γ' => Γ'.held = []) {}) :
    Inv R (s.start c) (Function.update Γ s.born {}) := by
  have hjobs : ∀ u o, (s.threads u).job = some o → ((s.start c).threads u).job = some o := by
    intro u o hu
    have hne : u ≠ s.born := by
      rintro rfl
      rw [h.unborn s.born (Nat.le_refl _)] at hu
      cases hu
    simpa only [Pool.start, Pool.setThread, Function.update_of_ne hne] using hu
  have halive : ∀ o, (s.start c).Alive o → s.Alive o := by
    rintro o (hstored | ⟨u, hu, ho⟩)
    · exact .inl hstored
    · simp only [Pool.start, Pool.setThread] at hu ho
      by_cases hub : u = s.born
      · subst hub
        rw [Function.update_self] at ho
        cases ho
      · rw [Function.update_of_ne hub] at ho
        exact .inr ⟨u, by omega, ho⟩
  refine h.change (· = s.born) ?_ ?_ hjobs (Nat.le_refl _) (fun _ _ _ _ => rfl)
    (fun o _ => halive o) ?_ ?_ (fun o u hu => hjobs u o (h.slots o u hu)) h.stored h.done ?_
  · intro u hu
    simp only [Pool.start, Pool.setThread, Function.update_of_ne hu, and_self]
  · rintro u rfl
    simp only [Pool.start, Pool.setThread, Function.update_self]
    refine ⟨hc, rfl, rfl, fun u hu => ?_, fun o ho => ?_, trivial, fun o ho => ?_⟩
    · cases hu
    · cases ho
    · cases ho
  · rintro u v l rfl hl
    rw [Function.update_self] at hl
    cases hl
  · rintro u v c' rfl hc'
    rw [Function.update_self] at hc'
    cases hc'
  · intro u hu
    have hu : s.born + 1 ≤ u := hu
    simp only [Pool.start, Pool.setThread, Function.update_of_ne (show u ≠ s.born by omega)]
    exact h.unborn u (by omega)

theorem Inv.fork (h : Inv R s Γ) (ht : t < s.born) {o : ℕ} {body : Prog L} {cs : List (Prog L)}
    (hmode : (Γ t).mode = .reopened o)
    (hbody : wp R body (fun Γ' => Γ'.held = []) { refs := [o], mode := .worker o })
    (hruns : Runs R cs { Γ t with hand := some o, mode := .plain }) :
    Inv R { (s.setThread t { s.threads t with rest := cs, hand := some s.born }).setThread s.born
        { rest := [body], refs := [o], job := some o } with born := s.born + 1 }
      (Function.update (Function.update Γ t { Γ t with hand := some o, mode := .plain }) s.born
        { refs := [o], mode := .worker o }) := by
  have hfits := h.fits t
  have hne : t ≠ s.born := Nat.ne_of_lt ht
  obtain ⟨hdone, ho⟩ := h.pending (t := t) (o := o) (by rw [hmode]; rfl)
  have hjobs : ∀ u o', (s.threads u).job = some o' →
      ((Function.update (Function.update s.threads t
        { s.threads t with rest := cs, hand := some s.born }) s.born
        { rest := [body], refs := [o], job := some o }) u).job = some o' := by
    intro u o' hu
    have hub : u ≠ s.born := by
      rintro rfl
      rw [h.unborn s.born (Nat.le_refl _)] at hu
      cases hu
    rw [Function.update_of_ne hub]
    by_cases hut : u = t
    · subst hut
      rw [Function.update_self]
      exact hu
    · rw [Function.update_of_ne hut]
      exact hu
  refine h.change (fun u => u = t ∨ u = s.born) ?_ ?_ hjobs (Nat.le_refl _)
    (fun _ _ _ _ => rfl) ?_ ?_ ?_ (fun o' u hu => hjobs u o' (h.slots o' u hu)) h.stored h.done ?_
  · intro u hu
    obtain ⟨hut, hub⟩ := not_or.mp hu
    simp only [Pool.setThread, Function.update_of_ne hut, Function.update_of_ne hub, and_self]
  · rintro u (rfl | rfl)
    · simp only [Pool.setThread, Function.update_of_ne hne, Function.update_self]
      refine ⟨hruns, hfits.held, hfits.refs, ?_, fun o' ho' => ?_, trivial, hfits.made⟩
      · rintro v ⟨⟩
        exact ⟨o, rfl, by simp only [Function.update_self]⟩
      · have hworks := hfits.job o' ho'
        rw [hmode] at hworks
        exact hworks.elim
    · simp only [Pool.setThread, Function.update_self]
      refine ⟨hbody, rfl, rfl, fun v hv => ?_, ?_, ⟨hdone, List.mem_singleton_self o⟩, ?_⟩
      · cases hv
      · rintro o' ⟨⟩
        rfl
      · intro o' ho'
        rw [List.mem_singleton.mp ho']
        exact hfits.made o ho
  · rintro o' - (hstored | ⟨u, hu, hrefs⟩)
    · exact .inl hstored
    · simp only [Pool.setThread] at hu hrefs
      by_cases hub : u = s.born
      · subst hub
        rw [Function.update_self] at hrefs
        rw [List.mem_singleton.mp hrefs]
        exact h.alive ho
      · rw [Function.update_of_ne hub] at hrefs
        by_cases hut : u = t
        · subst hut
          rw [Function.update_self] at hrefs
          exact .inr ⟨u, ht, hrefs⟩
        · rw [Function.update_of_ne hut] at hrefs
          exact .inr ⟨u, by omega, hrefs⟩
  · rintro u v l (rfl | rfl) hl hv
    · rw [Function.update_of_ne hne, Function.update_self] at hl
      by_contra huv
      by_cases hvb : v = s.born
      · subst hvb
        rw [Function.update_self] at hv
        cases hv
      · rw [Function.update_of_ne hvb, Function.update_of_ne (Ne.symm huv)] at hv
        exact huv (h.locks u v l hl hv)
    · rw [Function.update_self] at hl
      cases hl
  · rintro u v c (rfl | rfl) hc hv
    · rw [Function.update_of_ne hne, Function.update_self] at hc
      cases hc
    · rw [Function.update_self] at hc
      cases hc
      by_contra huv
      rw [Function.update_of_ne (Ne.symm huv)] at hv
      by_cases hvt : v = t
      · subst hvt
        rw [Function.update_self] at hv
        cases hv
      · rw [Function.update_of_ne hvt] at hv
        exact hvt (h.claims v t (false, o) hv (by rw [hmode]; rfl))
  · intro u hu
    have hu : s.born + 1 ≤ u := hu
    simp only [Pool.setThread]
    rw [Function.update_of_ne (show u ≠ s.born by omega),
      Function.update_of_ne (show u ≠ t by omega)]
    exact h.unborn u (by omega)

/-! ### Every command -/

variable (R) in
/-- The finalizer takes locks from the floor on, and may join the worker. -/
def Finalizes (finalizer : ℕ → Prog L) : Prop :=
  ∀ o (Γ : Ctx L) (Q : Ctx L → Prop), (∃ b, Γ.mode = .freeing o b) → Γ.hand = none →
    Γ.Below R R.floor → Q Γ → wp R (finalizer o) Q Γ

variable {finalizer : ℕ → Prog L}

/-- A dropped reference was the last one, or it was not. -/
theorem Inv.drop (hfin : Finalizes R finalizer) (h : Inv R s Γ) (ht : t < s.born) {o : ℕ}
    {data : List ℕ} {cs : List (Prog L)} (hruns : wp R (.drop o) (Runs R cs) (Γ t))
    (hs : s.exec finalizer t data cs (.drop o) = some s') : ∃ Γ', Inv R s' Γ' := by
  obtain ⟨ho, hhand, hbelow, hmode⟩ := hruns
  simp only [Pool.exec] at hs
  split at hs
  · obtain rfl := Option.some.inj hs
    obtain ⟨hplain, hq⟩ | ⟨hended, hq⟩ := hmode
    · refine ⟨_, h.unref (m := .plain) ht ?_ (.inl ⟨hplain, rfl⟩)⟩
      rw [← hplain]
      exact hq
    · exact ⟨_, h.unref ht hq (.inr ⟨hended, rfl⟩)⟩
  · rename_i hlast
    obtain rfl := Option.some.inj hs
    have hlast' : ∀ cs', ¬ (s.setThread t { s.threads t with
        rest := cs', refs := (s.threads t).refs.erase o }).Alive o := by
      rintro cs' (hstored | ⟨u, hu, hrefs⟩)
      · exact hlast (.inl hstored)
      · refine hlast (.inr ⟨u, hu, ?_⟩)
        simp only [Pool.setThread] at hrefs ⊢
        by_cases hut : u = t
        · subst hut
          rw [Function.update_self] at hrefs ⊢
          exact hrefs
        · rw [Function.update_of_ne hut] at hrefs ⊢
          exact hrefs
    obtain ⟨hplain, hq⟩ | ⟨hended, hq⟩ := hmode
    · refine ⟨_, h.free (b := false) ht ho ?_ (.inl ⟨hplain, rfl⟩) (hlast' _)⟩
      refine hfin o _ _ ⟨false, rfl⟩ hhand hbelow ⟨false, rfl, ?_⟩
      rw [Ctx.unref, hplain] at hq
      exact hq
    · refine ⟨_, h.free (b := true) ht ho ?_ (.inr ⟨hended, rfl⟩) (hlast' _)⟩
      exact hfin o _ _ ⟨true, rfl⟩ hhand hbelow ⟨true, rfl, hq⟩

theorem Inv.join (h : Inv R s Γ) (ht : t < s.born) {own : Bool} {data : List ℕ}
    {cs : List (Prog L)} (hruns : wp R (.join own) (Runs R cs) (Γ t))
    (hs : s.exec finalizer t data cs (.join own) = some s') : ∃ Γ', Inv R s' Γ' := by
  have hpass : ∃ Γ', Inv R (s.setThread t { s.threads t with rest := cs, hand := none }) Γ' :=
    ⟨_, h.hand ht hruns.2 (fun u hu => by cases hu) h.slots⟩
  simp only [Pool.exec] at hs
  split at hs
  · rename_i hnone
    obtain rfl := Option.some.inj hs
    rwa [← hnone] at hpass
  · split_ifs at hs
    obtain rfl := Option.some.inj hs
    exact hpass

/-- **Every command keeps the invariant.** -/
theorem Inv.exec (hfin : Finalizes R finalizer) (h : Inv R s Γ) (ht : t < s.born) {c : Prog L}
    {data : List ℕ} {cs : List (Prog L)} (hruns : wp R c (Runs R cs) (Γ t))
    (hs : s.exec finalizer t data cs c = some s') : ∃ Γ', Inv R s' Γ' := by
  have hfits := h.fits t
  cases c with
  | skip =>
      obtain rfl := Option.some.inj hs
      exact ⟨Γ, h.goOn ht hruns⟩
  | seq a b =>
      obtain rfl := Option.some.inj hs
      exact ⟨Γ, h.goOn ht hruns⟩
  | lock l =>
      simp only [Pool.exec] at hs
      split_ifs at hs with hfree
      obtain rfl := Option.some.inj hs
      exact ⟨_, h.lock ht hruns.2.2 hfree⟩
  | unlock l =>
      obtain rfl := Option.some.inj hs
      exact ⟨_, h.unlock ht hruns.2⟩
  | choose k =>
      obtain rfl := Option.some.inj hs
      exact ⟨Γ, h.goOn ht (hruns data)⟩
  | loop body =>
      obtain rfl := Option.some.inj hs
      refine ⟨Γ, h.goOn ht ?_⟩
      cases data with
      | nil => exact hruns.2
      | cons n data =>
          have hagain : ∀ Γ', Γ' = Γ t → Runs R (.loop body :: cs) Γ' := by
            rintro Γ' rfl
            exact hruns
          exact wp_mono hagain hruns.1
  | create k =>
      obtain rfl := Option.some.inj hs
      exact ⟨_, h.create ht hruns.1 (hruns.2 s.made)⟩
  | upgrade o held gone =>
      simp only [Pool.exec] at hs
      split_ifs at hs with halive
      · obtain rfl := Option.some.inj hs
        exact ⟨_, h.ref ht hruns.1 halive⟩
      · obtain rfl := Option.some.inj hs
        exact ⟨Γ, h.goOn ht hruns.2⟩
  | store o =>
      obtain rfl := Option.some.inj hs
      exact ⟨Γ, h.store ht hruns.2 hruns.1⟩
  | unstore o found absent =>
      simp only [Pool.exec] at hs
      split_ifs at hs with hstored
      · obtain rfl := Option.some.inj hs
        exact ⟨_, h.unstore ht hruns.1 hstored⟩
      · obtain rfl := Option.some.inj hs
        exact ⟨Γ, h.goOn ht hruns.2⟩
  | drop o => exact h.drop hfin ht hruns hs
  | free o =>
      obtain rfl := Option.some.inj hs
      obtain ⟨b, hmode, hq⟩ := hruns
      exact ⟨_, h.freed ht hmode hq⟩
  | ifDone o yes no =>
      obtain rfl := Option.some.inj hs
      cases hdone : s.done o with
      | true => exact ⟨_, h.see ht hruns.1 hdone⟩
      | false => exact ⟨Γ, h.goOn ht hruns.2⟩
  | reopen o =>
      obtain rfl := Option.some.inj hs
      exact ⟨_, h.mark ht hruns.2 (.inl ⟨hruns.1, rfl, rfl⟩)⟩
  | fork o body =>
      obtain rfl := Option.some.inj hs
      exact ⟨_, h.fork ht hruns.1 hruns.2.1 hruns.2.2⟩
  | publish o =>
      obtain rfl := Option.some.inj hs
      exact ⟨_, h.mark ht hruns.2 (.inr ⟨hruns.1, rfl, rfl⟩)⟩
  | take o =>
      obtain rfl := Option.some.inj hs
      refine ⟨_, h.hand ht hruns (fun u hu => ⟨o, rfl, h.slots o u hu⟩) fun o' u hu => ?_⟩
      by_cases hoo : o' = o
      · subst hoo
        rw [Function.update_self] at hu
        cases hu
      · rw [Function.update_of_ne hoo] at hu
        exact h.slots o' u hu
  | put o =>
      obtain rfl := Option.some.inj hs
      refine ⟨_, h.hand ht hruns.2 (fun u hu => by cases hu) fun o' u hu => ?_⟩
      by_cases hoo : o' = o
      · subst hoo
        rw [Function.update_self] at hu
        obtain ⟨o'', ho'', hjob⟩ := hfits.hand u hu
        rw [hruns.1] at ho''
        cases ho''
        exact hjob
      · rw [Function.update_of_ne hoo] at hu
        exact h.slots o' u hu
  | join own => exact h.join ht hruns hs

end Moves

/-! ## Whole runs -/

section Runs

variable {P : Type} {program : P → Prog L} {finalizer : ℕ → Prog L}

/-- A program may be run by a thread that starts with nothing. -/
def Starts (R : Ranking L) (c : Prog L) : Prop := wp R c (fun Γ => Γ.held = []) {}

/-- What one step keeps. -/
theorem inv_step (hfin : Finalizes R finalizer) (hprogram : ∀ p, Starts R (program p))
    {s s' : Pool L} {e : Pool.Event P} (h : ∃ Γ, Inv R s Γ)
    (hs : s.step finalizer program e = some s') : ∃ Γ, Inv R s' Γ := by
  obtain ⟨Γ, h⟩ := h
  cases e with
  | start p =>
      obtain rfl := Option.some.inj hs
      exact ⟨_, h.start (hprogram p)⟩
  | move t data =>
      simp only [Pool.step, Pool.move] at hs
      have hruns := (h.fits t).runs
      split at hs
      · cases hs
      · rename_i c cs hrest
        rw [hrest] at hruns
        refine h.exec hfin (h.born fun hempty => ?_) hruns hs
        rw [hempty] at hrest
        cases hrest

theorem inv_init : Inv R ({} : Pool L) fun _ => {} where
  fits t := by
    refine ⟨rfl, rfl, rfl, fun u hu => ?_, fun o ho => ?_, trivial, fun o ho => ?_⟩
    · cases hu
    · cases ho
    · cases ho
  locks t u l hl := by cases hl
  claims t u c hc := by cases hc
  slots o u hu := by cases hu
  stored o ho := by cases ho
  done o ho := by cases ho
  unborn t _ := rfl

/-- What a whole run keeps. -/
theorem inv_run (hfin : Finalizes R finalizer) (hprogram : ∀ p, Starts R (program p))
    {s : Pool L} {es : List (Pool.Event P)}
    (hrun : Lib.run (fun s e => Pool.step finalizer program s e) {} es = some s) :
    ∃ Γ, Inv R s Γ :=
  run_invariant (fun s => ∃ Γ, Inv R s Γ) (fun _ => True)
    (fun _ _ _ _ hinv hstep => inv_step hfin hprogram hinv hstep) (fun _ _ => trivial)
    ⟨_, inv_init⟩ hrun

end Runs

/-! ## Waiting -/

section Waiting

open Relation (TransGen)

/-- Where a thread that is waited for, and waits itself, stands higher than the one that waits for
it, nobody waits in a circle. -/
theorem not_transGen_self {T α : Type*} [Preorder α] {W : T → T → Prop} {level : T → α}
    (h : ∀ t u v, W t u → W u v → level t < level u) (t : T) : ¬ TransGen W t t := by
  intro hcircle
  have hrises : ∀ u, TransGen W t u → ∀ v, W u v → level t < level u := by
    intro u hu
    induction hu with
    | single htu => exact fun v huv => h _ _ v htu huv
    | tail _ hbc ih => exact fun v hcv => (ih _ hbc).trans (h _ _ v hbc hcv)
  obtain ⟨u, htu, -⟩ := TransGen.head'_iff.mp hcircle
  exact lt_irrefl _ (hrises t hcircle u htu)

variable {s : Pool L} {Γ : ℕ → Ctx L}

variable (R) in
/-- The rank of the lock that the thread waits for; a join ranks above all locks. -/
def level (s : Pool L) (t : ℕ) : WithTop ℕ :=
  match (s.threads t).rest with
  | .lock l :: _ => WithTop.some (R.rank l)
  | _ => ⊤

theorem Inv.active_of_waitsFor (h : Inv R s Γ) {t u : ℕ} (hwait : s.WaitsFor t u) :
    (Γ t).mode.Active := by
  have hruns := (h.fits t).runs
  obtain ⟨l, cs, hrest, -⟩ | ⟨own, cs, hrest, -⟩ := hwait
  · rw [hrest] at hruns
    exact hruns.1
  · rw [hrest] at hruns
    obtain ⟨⟨o, -, hmode | ⟨-, b, hmode⟩⟩, -⟩ := hruns
    all_goals
      rw [hmode]
      trivial

/-- The worker that a thread joins has nothing left to wait for. -/
theorem Inv.not_active_of_join (h : Inv R s Γ) {t u : ℕ} {own : Bool} {cs : List (Prog L)}
    (hrest : (s.threads t).rest = .join own :: cs) (hhand : (s.threads t).hand = some u)
    (hown : ¬ (own = true ∧ u = t)) : ¬ (Γ u).mode.Active := by
  have hruns := (h.fits t).runs
  have hholds := (h.fits t).holds
  have hholdsu := (h.fits u).holds
  obtain ⟨o, ho, hjob⟩ := (h.fits t).hand u hhand
  have hworks := (h.fits u).job o hjob
  rw [hrest] at hruns
  obtain ⟨⟨o', ho', hmode⟩, -⟩ := hruns
  rw [ho] at ho'
  cases ho'
  unfold Ctx.Holds at hholds hholdsu
  cases hu : (Γ u).mode with
  | plain | seen o' | reopened o' =>
      rw [hu] at hworks
      exact hworks.elim
  | ended o' => exact id
  | released => exact id
  | worker o' =>
      rw [hu] at hworks hholdsu
      obtain rfl : o' = o := hworks
      obtain hmode | ⟨-, b, hmode⟩ := hmode
      · rw [hmode] at hholds
        exact absurd (hholdsu.1.symm.trans hholds.1) Bool.false_ne_true
      · rw [hmode] at hholds
        exact absurd (h.alive hholdsu.2) hholds.1
  | freeing o' b' =>
      rw [hu] at hworks hholdsu
      obtain ⟨rfl, rfl⟩ := hworks
      obtain hmode | ⟨hown', b, hmode⟩ := hmode
      · rw [hmode] at hholds
        exact absurd (h.alive hholds.2.2) hholdsu.1
      · have hself := h.claims u t (true, o') (by rw [hu]; rfl) (by rw [hmode]; rfl)
        exact absurd ⟨hown', hself⟩ hown

theorem Inv.level_lt (h : Inv R s Γ) (t u v : ℕ) (htu : s.WaitsFor t u) (huv : s.WaitsFor u v) :
    level R s t < level R s u := by
  have hactive := h.active_of_waitsFor huv
  obtain ⟨l, cs, hrest, hheld⟩ | ⟨own, cs, hrest, hhand, -, hown⟩ := htu
  · have ht : level R s t = WithTop.some (R.rank l) := by rw [level, hrest]
    rw [ht]
    rw [(h.fits u).held] at hheld
    have hruns := (h.fits u).runs
    obtain ⟨l', cs', hrest', -⟩ | ⟨own, cs', hrest', -⟩ := huv
    · have hu : level R s u = WithTop.some (R.rank l') := by rw [level, hrest']
      rw [hrest'] at hruns
      rw [hu]
      exact WithTop.coe_lt_coe.mpr (hruns.2.1 l hheld)
    · have hu : level R s u = ⊤ := by rw [level, hrest']
      rw [hu]
      exact WithTop.coe_lt_top _
  · exact absurd hactive (h.not_active_of_join hrest hhand hown)

/-- **Nobody waits in a circle.** -/
theorem Inv.acyclic (h : Inv R s Γ) (t : ℕ) : ¬ TransGen s.WaitsFor t t :=
  not_transGen_self h.level_lt t

/-- A thread that has not ended moves, or waits for one that has not ended. -/
theorem Inv.moves_or_waits (h : Inv R s Γ) (finalizer : ℕ → Prog L) {t : ℕ} (ht : ¬ s.Ended t) :
    (s.move finalizer t []).isSome = true ∨ ∃ u, s.WaitsFor t u ∧ ¬ s.Ended u := by
  cases hrest : (s.threads t).rest with
  | nil =>
      unfold Pool.Ended at ht
      rw [hrest] at ht
      exact absurd rfl ht
  | cons c cs =>
      have hmove : s.move finalizer t [] = s.exec finalizer t [] cs c := by rw [Pool.move, hrest]
      rw [hmove]
      cases c with
      | lock l =>
          by_cases hfree : s.Free l
          · exact .inl (by rw [Pool.exec, if_pos hfree]; rfl)
          · unfold Pool.Free at hfree
            push Not at hfree
            obtain ⟨u, -, hu⟩ := hfree
            refine .inr ⟨u, .inl ⟨l, cs, hrest, hu⟩, fun hended => ?_⟩
            have hruns := (h.fits u).runs
            rw [List.isEmpty_iff.mp hended] at hruns
            rw [(h.fits u).held, hruns] at hu
            cases hu
      | join own =>
          simp only [Pool.exec]
          cases hhand : (s.threads t).hand with
          | none => exact .inl rfl
          | some u =>
              by_cases hends : s.Ended u ∨ (own = true ∧ u = t)
              · exact .inl (by simp only [if_pos hends]; rfl)
              · obtain ⟨hended, hown⟩ := not_or.mp hends
                exact .inr ⟨u, .inr ⟨own, cs, hrest, hhand, hended, hown⟩, hended⟩
      | upgrade o held gone =>
          simp only [Pool.exec]
          split <;> exact .inl rfl
      | unstore o found absent =>
          simp only [Pool.exec]
          split <;> exact .inl rfl
      | drop o =>
          simp only [Pool.exec]
          split <;> exact .inl rfl
      | skip | seq a b | unlock l | choose k | loop body | create k | store o | free o
      | ifDone o yes no | reopen o | fork o body | publish o | take o | put o => exact .inl rfl

/-- **As long as a thread has not ended, one of them moves.** -/
theorem Inv.progress (h : Inv R s Γ) (finalizer : ℕ → Prog L) (hsome : ∃ t, ¬ s.Ended t) :
    ∃ t, (s.move finalizer t []).isSome = true := by
  by_contra hstuck
  have hfinite : {t | ¬ s.Ended t}.Finite := by
    refine (Set.finite_lt_nat s.born).subset fun t ht => h.born fun hempty => ht ?_
    unfold Pool.Ended
    rw [hempty]
    rfl
  obtain ⟨t, ht, hmax⟩ := Set.exists_max_image _ (level R s) hfinite hsome
  obtain hmoves | ⟨u, htu, hu⟩ := h.moves_or_waits finalizer ht
  · exact hstuck ⟨t, hmoves⟩
  obtain hmoves | ⟨v, huv, -⟩ := h.moves_or_waits finalizer hu
  · exact hstuck ⟨u, hmoves⟩
  · exact absurd (h.level_lt t u v htu huv) (not_lt.mpr (hmax u hu))

end Waiting

end Tymux.Lib.Locks
