import Tymux.Model.LastWords
import Tymux.Lib.Total

/-!
# The last word before the end of the stream

A receiver is polled before the final exit is, so whatever has been said when an attach ends has been
forwarded. What an operation has yet to say then is lost. The accounting of an exit and a failed
respawn speak while the pane has not come to its end, the one because `exited` is not published, the
other because `restart_pending` is still set. `stop` and `set_policy` clear the flag first, and an
iteration of the loop that falls in between ends the stream (`Interrupts`).
-/

set_option autoImplicit false

namespace Tymux.Analysis.StreamEnd

open Tymux.Model Tymux.Lib LiveStream

/-! ## What is owed to the client -/

/-- The client is to hear it. -/
def Awaited (s : LiveStream) : Word → Prop
  | .marker _ => True
  | .lifecycle _ => s.subscribes = true

/-- It waits in a receiver. -/
def Queued (s : LiveStream) : Word → Prop
  | .marker chunk => chunk ∈ s.outputRx ∧ s.threshold < chunk.1
  | .lifecycle event => event ∈ s.lifecycleRx

/-- It has been forwarded, or will be. -/
def OnItsWay (s : LiveStream) (w : Word) : Prop :=
  Awaited s w → w.forwarded ∈ s.delivered ∨ Queued s w

/-- The client has been told that the pane exited. -/
def ExitSent (s : LiveStream) : Prop := ∃ code, .exited code ∈ s.delivered

/-- The operation has something to say yet. -/
def Speaking (t : SupervisionTurn) : Prop := ∃ a ∈ t.acts, a.speaks = true

/-- Where the pane is while an operation that is owed speaks: `stop` and `set_policy` alone may have
let it come to its end. -/
def TurnOk (s : LiveStream) (t : SupervisionTurn) : Prop :=
  match t.op with
  | .accountExit =>
    s.reader = .hook ∧ ∀ a ∈ t.acts, a.speaks = true ∨ ∃ pending, a = .setRestartPending pending
  | .respawn =>
    ¬ Speaking t ∨ (s.reader ≠ .accounted ∧ s.reader ≠ .exited) ∨
      (s.reader = .exited ∧ s.restartPending = true ∧
        ((∃ words pending, t.acts = words ++ [.setRestartPending pending] ∧
            ∀ a ∈ words, a.speaks = true) ∨
          ∃ acts, t.acts = .clearExited :: acts))
  | .restart => ¬ Speaking t
  | .setPolicy | .stop => True

structure StreamInv (s : LiveStream) : Prop where
  last : ∀ w ∈ s.lastWords, OnItsWay s w
  accounted : ∀ w ∈ s.accounted, OnItsWay s w
  said : ∀ t, s.turn = some t → t.owed = true → ∀ w ∈ t.said, OnItsWay s w
  turn : ∀ t, s.turn = some t → t.owed = true → TurnOk s t
  threshold : s.threshold ≤ s.outputSeq
  drained : s.ended = true → s.outputRx = [] ∧ s.lifecycleRx = []
  silent : s.ended = true → ∀ t, s.turn = some t → t.owed = true → ¬ Speaking t
  unsent : s.ended = false → ¬ ExitSent s

/-- The client is gone before the pane was. -/
def HungUp (s : LiveStream) : Prop := s.ended = true ∧ ¬ ExitSent s

/-- An iteration of the loop ends the stream while a `stop` or a `set_policy`, which found the pane
with a restart pending or its exit unpublished, has something to say yet. -/
def Interrupts (s : LiveStream) (e : LiveStreamEvent) : Prop :=
  (∃ due, e = .poll due) ∧ s.ended = false ∧ s.outputRx = [] ∧ s.lifecycleRx = [] ∧
    s.finalExit = true ∧
    ∃ t, s.turn = some t ∧ (t.op = .stop ∨ t.op = .setPolicy) ∧ t.owed = true ∧ Speaking t

/-- Whatever the operations have said that left the pane exited with no restart pending comes before
the exit. -/
def SaidBeforeEnd (s : LiveStream) : Prop :=
  ∀ before code, s.delivered = before ++ [.exited code] →
    ∀ w ∈ s.lastWords, Awaited s w → w.forwarded ∈ before

section

variable {delayMs : RestartPolicy → ℕ → F64 → ℕ} {seconds : ℕ → ℕ → String} {s s' : LiveStream}

theorem forwarded_ne_exited (w : Word) (code : Option ℤ) : w.forwarded ≠ .exited code := by
  cases w with
  | marker chunk => exact nofun
  | lifecycle event => exact nofun

theorem OnItsWay.mono {w : Word} (h : OnItsWay s w) (hsubscribes : s'.subscribes = s.subscribes)
    (hthreshold : s'.threshold = s.threshold) (hdelivered : s.delivered ⊆ s'.delivered)
    (houtput : s.outputRx ⊆ s'.outputRx) (hlifecycle : s.lifecycleRx ⊆ s'.lifecycleRx) :
    OnItsWay s' w := by
  intro hawaited
  have hawaited' : Awaited s w := by
    cases w with
    | marker chunk => trivial
    | lifecycle event => exact hsubscribes.symm.trans hawaited
  obtain hsent | hqueued := h hawaited'
  · exact Or.inl (hdelivered hsent)
  · right
    cases w with
    | marker chunk => exact ⟨houtput hqueued.1, hthreshold ▸ hqueued.2⟩
    | lifecycle event => exact hlifecycle hqueued


/-- INTERNAL: a step that says nothing and leaves the turn and the stream alone. -/
theorem StreamInv.quiet (h : StreamInv s) (hturn : s'.turn = s.turn)
    (hok : ∀ t, s.turn = some t → TurnOk s t → TurnOk s' t) (hsubscribes : s'.subscribes = s.subscribes)
    (hthreshold : s'.threshold = s.threshold) (hseq : s.outputSeq ≤ s'.outputSeq)
    (hdelivered : s'.delivered = s.delivered) (hended : s'.ended = s.ended)
    (houtput : s.outputRx ⊆ s'.outputRx) (hlifecycle : s.lifecycleRx ⊆ s'.lifecycleRx)
    (hdrained : s.ended = true → s'.outputRx = s.outputRx ∧ s'.lifecycleRx = s.lifecycleRx)
    (hlast : ∀ w ∈ s'.lastWords, w ∈ s.lastWords ∨ w ∈ s.accounted)
    (haccounted : ∀ w ∈ s'.accounted, w ∈ s.accounted) : StreamInv s' := by
  have hmono : ∀ w, OnItsWay s w → OnItsWay s' w := fun w hw =>
    hw.mono hsubscribes hthreshold (by rw [hdelivered]; exact List.Subset.refl _) houtput hlifecycle
  refine ⟨?_, ?_, ?_, ?_, ?_, ?_, ?_, ?_⟩
  · intro w hw
    obtain hold | hold := hlast w hw
    · exact hmono w (h.last w hold)
    · exact hmono w (h.accounted w hold)
  · exact fun w hw => hmono w (h.accounted w (haccounted w hw))
  · intro t ht howed w hw
    exact hmono w (h.said t (hturn ▸ ht) howed w hw)
  · intro t ht howed
    exact hok t (hturn ▸ ht) (h.turn t (hturn ▸ ht) howed)
  · rw [hthreshold]
    exact Nat.le_trans h.threshold hseq
  · intro hend
    rw [hended] at hend
    rw [(hdrained hend).1, (hdrained hend).2]
    exact h.drained hend
  · intro hend t ht
    exact h.silent (hended ▸ hend) t (hturn ▸ ht)
  · intro hend
    unfold ExitSent
    rw [hdelivered]
    exact h.unsent (hended ▸ hend)

theorem turnOk_congr {t : SupervisionTurn} (hreader : s'.reader = s.reader)
    (hpending : s'.restartPending = s.restartPending) (h : TurnOk s t) : TurnOk s' t := by
  unfold TurnOk at h ⊢
  rw [hreader, hpending]
  exact h

/-! ## The operations take the lock -/

/-- INTERNAL: an operation begins, in a state that its writes allow for. -/
theorem streamInv_takeTurn (h : StreamInv s) {op : SupervisionOp} {sup : PaneSupervisor}
    {acts : List SupervisionAct}
    (hok : s.finalExit = false → TurnOk s ⟨op, acts, true, []⟩) :
    StreamInv (s.takeTurn op sup acts) where
  last := h.last
  accounted := h.accounted
  said t ht _ w hw := by
    cases ht
    cases hw
  turn t ht howed := by
    cases ht
    have howed' : (!s.ended && !s.finalExit) = true := howed
    simp only [Bool.and_eq_true, Bool.not_eq_true'] at howed'
    have hturn := hok howed'.2
    unfold TurnOk at hturn ⊢
    exact hturn
  threshold := h.threshold
  drained := h.drained
  silent hend t ht howed := by
    cases ht
    have howed' : (!s.ended && !s.finalExit) = true := howed
    have hend' : s.ended = true := hend
    rw [hend'] at howed'
    cases howed'
  unsent := h.unsent

theorem speaks_announceExit {sup : PaneSupervisor} {kind : ExitKind} {code signal : Option ℤ}
    {now : ℕ} : ∀ a ∈ announceExit seconds sup kind code signal now, a.speaks = true := by
  intro a ha
  unfold announceExit at ha
  cases kind with
  | notRestarted =>
      dsimp only at ha
      split at ha
      · simp only [List.mem_cons, List.not_mem_nil, or_false] at ha
        obtain rfl | rfl := ha
        · rfl
        · rfl
      · rw [List.mem_singleton.mp ha]
        rfl
  | manualRestart =>
      simp only [List.mem_cons, List.not_mem_nil, or_false] at ha
      obtain rfl | rfl := ha
      · rfl
      · rfl
  | _ =>
      simp only [List.mem_cons, List.not_mem_nil, or_false] at ha
      obtain rfl | rfl | rfl := ha
      · rfl
      · rfl
      · rfl

theorem speaks_announceFailedSpawn {sup : PaneSupervisor} {kind : ExitKind} {error : String}
    {now : ℕ} : ∀ a ∈ announceFailedSpawn seconds sup kind error now, a.speaks = true := by
  intro a ha
  unfold announceFailedSpawn at ha
  cases kind with
  | scheduled delay atMs =>
      simp only [List.mem_cons, List.not_mem_nil, or_false] at ha
      obtain rfl | rfl := ha
      · rfl
      · rfl
  | failed =>
      simp only [List.mem_cons, List.not_mem_nil, or_false] at ha
      obtain rfl | rfl := ha
      · rfl
      · rfl
  | _ =>
      rw [List.mem_singleton.mp ha]
      rfl

/-- INTERNAL: a respawn of a pane with a restart pending speaks before it clears the flag.
SRC: supervision.rs:201-240 -/
theorem streamInv_doRespawn (h : StreamInv s) (hexited : s.isExited = true) (sup : PaneSupervisor)
    (automatic : Bool) (now : ℕ) (spawn : Except String (Option ℕ)) (unit : F64) :
    StreamInv (s.doRespawn delayMs seconds sup automatic now spawn unit) := by
  have hreader : s.reader = .exited := by simpa [isExited] using hexited
  have hpending : s.finalExit = false → s.restartPending = true := by
    intro hnot
    simpa [finalExit, hexited] using hnot
  unfold doRespawn
  rw [if_pos hexited]
  cases spawn with
  | ok pid =>
      apply streamInv_takeTurn h
      intro hnot
      exact Or.inr (Or.inr ⟨hreader, hpending hnot, Or.inr ⟨_, rfl⟩⟩)
  | error message =>
      apply streamInv_takeTurn h
      intro hnot
      exact Or.inr (Or.inr ⟨hreader, hpending hnot, Or.inl ⟨_, _, rfl, speaks_announceFailedSpawn⟩⟩)

theorem streamInv_accountExit (h : StreamInv s) {now : ℕ} {unit : F64}
    (hstep : s.accountExit delayMs seconds now unit = some s') : StreamInv s' := by
  unfold accountExit at hstep
  split at hstep
  · rename_i hreader
    cases hstep
    apply streamInv_takeTurn h
    intro _
    refine ⟨hreader, fun a ha => ?_⟩
    obtain hsays | hflag := List.mem_append.mp ha
    · exact Or.inl (speaks_announceExit a hsays)
    · exact Or.inr ⟨_, List.mem_singleton.mp hflag⟩
  · cases hstep

theorem streamInv_setPolicy (h : StreamInv s) (policy : RestartPolicy) (now : ℕ) :
    StreamInv (s.setPolicy policy now) := by
  unfold setPolicy
  split
  · exact h
  · exact streamInv_takeTurn h fun _ => trivial

theorem streamInv_stop (h : StreamInv s) (kill : Except String Unit) (now : ℕ) :
    StreamInv (s.stop kill now) :=
  streamInv_takeTurn h fun _ => trivial

theorem streamInv_restart (h : StreamInv s) (resetBackoff : Bool) (kill : Except String Unit)
    (now : ℕ) (spawn : Except String (Option ℕ)) (unit : F64) :
    StreamInv (s.restart delayMs seconds resetBackoff kill now spawn unit) := by
  have hquiet : ∀ {t : SupervisionTurn} {a : SupervisionAct}, t.acts = [a] → a.speaks = false →
      ¬ Speaking t := by
    rintro t a hacts hsilent ⟨b, hb, hspeaks⟩
    rw [hacts, List.mem_singleton] at hb
    rw [hb, hsilent] at hspeaks
    cases hspeaks
  unfold restart
  dsimp only
  split
  · exact streamInv_takeTurn h fun _ => hquiet rfl rfl
  · split
    · exact streamInv_takeTurn h fun _ => hquiet rfl rfl
    · rename_i hexited
      exact streamInv_doRespawn h (by simpa using hexited) ..

theorem streamInv_start (h : StreamInv s) (now : ℕ) (spawn : Except String (Option ℕ)) (unit : F64) :
    StreamInv (s.start delayMs seconds now spawn unit) := by
  unfold start
  split
  · exact h
  · rename_i hexited
    exact streamInv_doRespawn h (by simpa using hexited) ..

theorem streamInv_runDue (h : StreamInv s) (now : ℕ) (spawn : Except String (Option ℕ))
    (unit : F64) : StreamInv (s.runDue delayMs seconds now spawn unit) := by
  unfold runDue
  split
  · rename_i hdue
    rw [Bool.and_eq_true] at hdue
    exact streamInv_doRespawn h hdue.2 ..
  · exact h


/-! ## The operations write -/

theorem not_speaking_tail {t : SupervisionTurn} {a : SupervisionAct} {acts : List SupervisionAct}
    (hacts : t.acts = a :: acts) (h : ¬ Speaking t) : ¬ Speaking { t with acts } := by
  rintro ⟨b, hb, hspeaks⟩
  refine h ⟨b, ?_, hspeaks⟩
  rw [hacts]
  exact List.mem_cons_of_mem a hb

/-- INTERNAL: an operation has made a write, and the client has been sent nothing but what it said. -/
theorem streamInv_act {t t' : SupervisionTurn} (h : StreamInv s) (hturn : s.turn = some t)
    (hturn' : s'.turn = some t') (howed : t'.owed = t.owed)
    (hsubscribes : s'.subscribes = s.subscribes) (hthreshold : s'.threshold = s.threshold)
    (hseq : s.outputSeq ≤ s'.outputSeq) (hdelivered : s'.delivered = s.delivered)
    (hended : s'.ended = s.ended) (houtput : s.outputRx ⊆ s'.outputRx)
    (hlifecycle : s.lifecycleRx ⊆ s'.lifecycleRx)
    (hdrained : s.ended = true → s'.outputRx = s.outputRx ∧ s'.lifecycleRx = s.lifecycleRx)
    (hlast : s'.lastWords = s.lastWords) (haccounted : s'.accounted = s.accounted)
    (hsaid : t.owed = true → ∀ w ∈ t'.said, w ∈ t.said ∨ OnItsWay s' w)
    (hok : t.owed = true → TurnOk s t → TurnOk s' t')
    (hsilent : ¬ Speaking t → ¬ Speaking t') : StreamInv s' := by
  have hmono : ∀ w, OnItsWay s w → OnItsWay s' w := fun w hw =>
    hw.mono hsubscribes hthreshold (by rw [hdelivered]; exact List.Subset.refl _) houtput hlifecycle
  have hself : ∀ t'', s'.turn = some t'' → t'' = t' := by
    intro t'' ht
    rw [hturn', Option.some_inj] at ht
    exact ht.symm
  refine ⟨?_, ?_, ?_, ?_, ?_, ?_, ?_, ?_⟩
  · rw [hlast]
    exact fun w hw => hmono w (h.last w hw)
  · rw [haccounted]
    exact fun w hw => hmono w (h.accounted w hw)
  · intro t'' ht howed' w hw
    obtain rfl := hself t'' ht
    rw [howed] at howed'
    obtain hold | hnew := hsaid howed' w hw
    · exact hmono w (h.said t hturn howed' w hold)
    · exact hnew
  · intro t'' ht howed'
    obtain rfl := hself t'' ht
    rw [howed] at howed'
    exact hok howed' (h.turn t hturn howed')
  · rw [hthreshold]
    exact Nat.le_trans h.threshold hseq
  · intro hend
    rw [hended] at hend
    rw [(hdrained hend).1, (hdrained hend).2]
    exact h.drained hend
  · intro hend t'' ht howed'
    obtain rfl := hself t'' ht
    exact hsilent (h.silent (hended ▸ hend) t hturn (howed ▸ howed'))
  · intro hend
    unfold ExitSent
    rw [hdelivered]
    exact h.unsent (hended ▸ hend)

/-- INTERNAL: the operation says something; what has a respawn or an accounting left to do is as
before, short of a word. -/
theorem turnOk_speak {t : SupervisionTurn} {a : SupervisionAct} {acts : List SupervisionAct}
    {said : List Word} (hacts : t.acts = a :: acts) (hspeaks : a.speaks = true)
    (hreader : s'.reader = s.reader) (hpending : s'.restartPending = s.restartPending)
    (h : TurnOk s t) : TurnOk s' { t with acts, said } := by
  have hspeaking : Speaking t := ⟨a, by rw [hacts]; exact List.mem_cons_self, hspeaks⟩
  unfold TurnOk at h ⊢
  rw [hreader, hpending]
  dsimp only
  cases hop : t.op with
  | accountExit =>
      rw [hop] at h
      exact ⟨h.1, fun b hb => h.2 b (hacts ▸ List.mem_cons_of_mem a hb)⟩
  | respawn =>
      rw [hop] at h
      obtain hquiet | hrunning | ⟨hexited, hpend, ⟨words, pending, hwords, hall⟩ | ⟨rest, hrest⟩⟩ := h
      · exact absurd hspeaking hquiet
      · exact Or.inr (Or.inl hrunning)
      · refine Or.inr (Or.inr ⟨hexited, hpend, Or.inl ?_⟩)
        rw [hacts] at hwords
        cases words with
        | nil =>
            cases hwords
            cases hspeaks
        | cons b words =>
            cases hwords
            exact ⟨words, pending, rfl, fun c hc => hall c (List.mem_cons_of_mem a hc)⟩
      · rw [hacts] at hrest
        cases hrest
        cases hspeaks
  | restart =>
      rw [hop] at h
      exact absurd hspeaking h
  | setPolicy => trivial
  | stop => trivial

/-- INTERNAL: the operation sets or clears `restart_pending`, as the last act of an accounting or a
failed respawn. -/
theorem turnOk_flag {t : SupervisionTurn} {pending : Bool} {acts : List SupervisionAct}
    (hacts : t.acts = .setRestartPending pending :: acts) (hreader : s'.reader = s.reader)
    (h : TurnOk s t) : TurnOk s' { t with acts } := by
  unfold TurnOk at h ⊢
  rw [hreader]
  dsimp only
  cases hop : t.op with
  | accountExit =>
      rw [hop] at h
      exact ⟨h.1, fun b hb => h.2 b (hacts ▸ List.mem_cons_of_mem _ hb)⟩
  | respawn =>
      rw [hop] at h
      obtain hquiet | hrunning | ⟨-, -, ⟨words, flag, hwords, hall⟩ | ⟨rest, hrest⟩⟩ := h
      · exact Or.inl (not_speaking_tail hacts hquiet)
      · exact Or.inr (Or.inl hrunning)
      · left
        rw [hacts] at hwords
        cases words with
        | nil =>
            cases hwords
            exact fun ⟨b, hb, _⟩ => nomatch hb
        | cons b words =>
            cases hwords
            cases hall _ List.mem_cons_self
      · rw [hacts] at hrest
        cases hrest
  | restart =>
      rw [hop] at h
      exact not_speaking_tail hacts h
  | setPolicy => trivial
  | stop => trivial

/-- INTERNAL: `terminate`, which neither an accounting nor a respawn that is owed calls. -/
theorem turnOk_terminate {t : SupervisionTurn} {kill : Except String Unit} {before : PaneSupervisor}
    {flag : Bool} {acts : List SupervisionAct} (hacts : t.acts = .terminate kill before flag :: acts)
    (hreader : s'.reader = s.reader) (h : TurnOk s t) : TurnOk s' { t with acts } := by
  unfold TurnOk at h ⊢
  rw [hreader]
  dsimp only
  cases hop : t.op with
  | accountExit =>
      rw [hop] at h
      obtain hspeaks | ⟨pending, hflag⟩ := h.2 _ (hacts ▸ List.mem_cons_self)
      · cases hspeaks
      · cases hflag
  | respawn =>
      rw [hop] at h
      obtain hquiet | hrunning | ⟨-, -, ⟨words, flag, hwords, hall⟩ | ⟨rest, hrest⟩⟩ := h
      · exact Or.inl (not_speaking_tail hacts hquiet)
      · exact Or.inr (Or.inl hrunning)
      · rw [hacts] at hwords
        cases words with
        | nil => cases hwords
        | cons b words =>
            cases hwords
            cases hall _ List.mem_cons_self
      · rw [hacts] at hrest
        cases hrest
  | restart =>
      rw [hop] at h
      exact not_speaking_tail hacts h
  | setPolicy => trivial
  | stop => trivial

/-- INTERNAL: `respawn_with` brings the pane back. -/
theorem turnOk_revive {t : SupervisionTurn} {a : SupervisionAct} {acts : List SupervisionAct}
    (hacts : t.acts = a :: acts) (ha : a = .clearExited ∨ a = .startReader)
    (hreader : s'.reader ≠ .accounted ∧ s'.reader ≠ .exited) (h : TurnOk s t) :
    TurnOk s' { t with acts } := by
  unfold TurnOk at h ⊢
  dsimp only
  cases hop : t.op with
  | accountExit =>
      rw [hop] at h
      obtain hspeaks | ⟨pending, hflag⟩ := h.2 a (hacts ▸ List.mem_cons_self)
      · obtain rfl | rfl := ha
        · cases hspeaks
        · cases hspeaks
      · obtain rfl | rfl := ha
        · cases hflag
        · cases hflag
  | respawn => exact Or.inr (Or.inl hreader)
  | restart =>
      rw [hop] at h
      exact not_speaking_tail hacts h
  | setPolicy => trivial
  | stop => trivial

theorem terminate_eq (s : LiveStream) (t : SupervisionTurn) (kill : Except String Unit)
    (before : PaneSupervisor) (flag : Bool) :
    ∃ sup lastSignal restartPending,
      s.terminate t kill before flag = { s with sup, lastSignal, restartPending, turn := some t } := by
  unfold terminate
  dsimp only
  cases s.reader with
  | running =>
      cases kill with
      | ok u => exact ⟨_, _, _, rfl⟩
      | error e => exact ⟨_, _, _, rfl⟩
  | _ => exact ⟨_, _, _, rfl⟩

/-- INTERNAL: what an operation has said when it returns is on its way, whether it is the last that
is said or not. -/
theorem streamInv_finishTurn {t : SupervisionTurn} (h : StreamInv s) (hturn : s.turn = some t) :
    StreamInv (s.finishTurn t) := by
  have hmain : ∀ (reader : ReaderStage) (lastWords accounted : List Word),
      (∀ w ∈ lastWords, OnItsWay s w) → (∀ w ∈ accounted, OnItsWay s w) →
      StreamInv { s with reader, turn := none, lastWords, accounted } := by
    intro reader lastWords accounted hlast haccounted
    exact ⟨hlast, haccounted, fun _ ht => (nomatch ht), fun _ ht => (nomatch ht), h.threshold,
      h.drained, fun _ _ ht => (nomatch ht), h.unsent⟩
  unfold finishTurn
  generalize (if t.op = .accountExit then ReaderStage.accounted else s.reader) = reader
  dsimp only
  split
  · exact hmain _ s.lastWords s.accounted h.last h.accounted
  · rename_i howed
    have hsaid := h.said t hturn (by simpa using howed)
    split
    · apply hmain _ _ s.accounted _ h.accounted
      intro w hw
      obtain hold | hnew := List.mem_append.mp hw
      · exact h.last w hold
      · exact hsaid w hnew
    · split
      · apply hmain _ s.lastWords _ h.last
        intro w hw
        obtain hold | hnew := List.mem_append.mp hw
        · exact h.accounted w hold
        · exact hsaid w hnew
      · exact hmain _ s.lastWords s.accounted h.last h.accounted

/-- INTERNAL: an operation makes its next write, or returns. -/
theorem streamInv_step_act (h : StreamInv s) (hstep : s.act = some s') : StreamInv s' := by
  obtain ⟨t, hturn, heq⟩ := Option.map_eq_some_iff.mp hstep
  cases hacts : t.acts with
  | nil =>
      rw [hacts] at heq
      subst heq
      exact streamInv_finishTurn h hturn
  | cons a acts =>
      rw [hacts] at heq
      have hopen : t.owed = true → a.speaks = true → s.ended = false := by
        intro howed hspeaks
        by_contra hended
        refine h.silent (by simpa using hended) t hturn howed ⟨a, ?_, hspeaks⟩
        rw [hacts]
        exact List.mem_cons_self
      cases a with
      | setRestartPending pending =>
          dsimp only at heq
          subst heq
          refine streamInv_act h hturn rfl rfl rfl rfl (Nat.le_refl _) rfl rfl (List.Subset.refl _)
            (List.Subset.refl _) (fun _ => ⟨rfl, rfl⟩) rfl rfl (fun _ w hw => Or.inl hw) ?_
            (not_speaking_tail hacts)
          exact fun _ hok => turnOk_flag (s := s) (t := t) hacts rfl hok
      | injectOutput data =>
          dsimp only at heq
          subst heq
          refine streamInv_act h hturn rfl rfl rfl rfl (Nat.le_succ _) rfl rfl ?_
            (List.Subset.refl _) ?_ rfl rfl ?_ ?_ (not_speaking_tail hacts)
          · dsimp only [injectOutput]
            split
            · exact List.Subset.refl _
            · exact List.subset_append_left _ _
          · intro hended
            exact ⟨if_pos hended, rfl⟩
          · intro howed w hw
            obtain hold | hnew := List.mem_append.mp hw
            · exact Or.inl hold
            · refine Or.inr fun _ => Or.inr ?_
              rw [List.mem_singleton.mp hnew]
              have hrx : (s.injectOutput { t with acts } data).outputRx =
                  s.outputRx ++ [(s.outputSeq + 1, data)] :=
                if_neg (by rw [hopen howed rfl]; exact Bool.false_ne_true)
              refine ⟨?_, Nat.lt_succ_of_le h.threshold⟩
              rw [hrx]
              exact List.mem_append_right _ List.mem_cons_self
          · exact fun _ hok => turnOk_speak (s := s) (t := t) hacts rfl rfl rfl hok
      | emitLifecycle event =>
          dsimp only at heq
          subst heq
          refine streamInv_act h hturn rfl rfl rfl rfl (Nat.le_refl _) rfl rfl
            (List.Subset.refl _) ?_ ?_ rfl rfl ?_ ?_ (not_speaking_tail hacts)
          · dsimp only [emitLifecycle]
            split
            · exact List.subset_append_left _ _
            · exact List.Subset.refl _
          · intro hended
            exact ⟨rfl, if_neg fun hboth => hboth.2 hended⟩
          · intro howed w hw
            obtain hold | hnew := List.mem_append.mp hw
            · exact Or.inl hold
            · refine Or.inr fun hawaited => Or.inr ?_
              rw [List.mem_singleton.mp hnew] at hawaited ⊢
              have hrx : (s.emitLifecycle { t with acts } event).lifecycleRx =
                  s.lifecycleRx ++ [(s.emitted, event)] :=
                if_pos ⟨hawaited, by rw [hopen howed rfl]; exact Bool.false_ne_true⟩
              unfold Queued
              rw [hrx]
              exact List.mem_append_right _ List.mem_cons_self
          · exact fun _ hok => turnOk_speak (s := s) (t := t) hacts rfl rfl rfl hok
      | terminate kill before flag =>
          obtain ⟨sup, lastSignal, restartPending, hterminate⟩ :=
            terminate_eq s { t with acts } kill before flag
          dsimp only at heq
          rw [hterminate] at heq
          subst heq
          refine streamInv_act h hturn rfl rfl rfl rfl (Nat.le_refl _) rfl rfl (List.Subset.refl _)
            (List.Subset.refl _) (fun _ => ⟨rfl, rfl⟩) rfl rfl (fun _ w hw => Or.inl hw) ?_
            (not_speaking_tail hacts)
          exact fun _ hok => turnOk_terminate (s := s) (t := t) hacts rfl hok
      | clearExited =>
          dsimp only at heq
          subst heq
          refine streamInv_act h hturn rfl rfl rfl rfl (Nat.le_refl _) rfl rfl (List.Subset.refl _)
            (List.Subset.refl _) (fun _ => ⟨rfl, rfl⟩) rfl rfl (fun _ w hw => Or.inl hw) ?_
            (not_speaking_tail hacts)
          exact fun _ hok => turnOk_revive hacts (Or.inl rfl) ⟨nofun, nofun⟩ hok
      | startReader =>
          dsimp only at heq
          subst heq
          refine streamInv_act h hturn rfl rfl rfl rfl (Nat.le_refl _) rfl rfl (List.Subset.refl _)
            (List.Subset.refl _) (fun _ => ⟨rfl, rfl⟩) rfl rfl (fun _ w hw => Or.inl hw) ?_
            (not_speaking_tail hacts)
          exact fun _ hok => turnOk_revive hacts (Or.inr rfl) ⟨nofun, nofun⟩ hok


/-! ## The reader thread and the live loop -/

theorem streamInv_output (h : StreamInv s) {payload : List UInt8}
    (hstep : s.output payload = some s') : StreamInv s' := by
  unfold output at hstep
  split at hstep
  · cases hstep
    refine h.quiet rfl (fun t _ hok => turnOk_congr (s := s) rfl rfl hok) rfl rfl (Nat.le_succ _) rfl
      rfl ?_ (List.Subset.refl _) ?_ (fun w hw => Or.inl hw) (fun w hw => hw)
    · dsimp only
      split
      · exact List.Subset.refl _
      · exact List.subset_append_left _ _
    · intro hended
      exact ⟨if_pos (by rw [hended, Bool.or_true]), rfl⟩
  · cases hstep

/-- INTERNAL: the reader thread does not move on while an accounting or a respawn is at work.
SRC: pane.rs:613-647 -/
theorem streamInv_reader (h : StreamInv s) {code : Option ℤ} (hstep : s.readerStep code = some s') :
    StreamInv s' := by
  have hok : ∀ {s' : LiveStream}, (s.reader ≠ .hook ∧ s.reader ≠ .exited) →
      (s.reader ≠ .accounted → s'.reader ≠ .accounted ∧ s'.reader ≠ .exited) →
      ∀ t, s.turn = some t → TurnOk s t → TurnOk s' t := by
    intro s' hfrom hto t _ hturn
    unfold TurnOk at hturn ⊢
    cases hop : t.op with
    | accountExit =>
        rw [hop] at hturn
        exact absurd hturn.1 hfrom.1
    | respawn =>
        rw [hop] at hturn
        obtain hquiet | hrunning | ⟨hexited, -⟩ := hturn
        · exact Or.inl hquiet
        · exact Or.inr (Or.inl (hto hrunning.1))
        · exact absurd hexited hfrom.2
    | restart =>
        rw [hop] at hturn
        exact hturn
    | setPolicy => trivial
    | stop => trivial
  unfold readerStep at hstep
  split at hstep
  · rename_i hreader
    cases hstep
    exact h.quiet rfl (hok (by rw [hreader]; exact ⟨nofun, nofun⟩) fun _ => ⟨nofun, nofun⟩) rfl rfl
      (Nat.le_refl _) rfl rfl (List.Subset.refl _) (List.Subset.refl _) (fun _ => ⟨rfl, rfl⟩)
      (fun w hw => Or.inl hw) (fun w hw => hw)
  · rename_i hreader
    cases hstep
    exact h.quiet rfl (hok (by rw [hreader]; exact ⟨nofun, nofun⟩) fun _ => ⟨nofun, nofun⟩) rfl rfl
      (Nat.le_refl _) rfl rfl (List.Subset.refl _) (List.Subset.refl _) (fun _ => ⟨rfl, rfl⟩)
      (fun w hw => Or.inl hw) (fun w hw => hw)
  · rename_i hreader
    cases hstep
    refine h.quiet rfl (hok (by rw [hreader]; exact ⟨nofun, nofun⟩) fun hne => absurd hreader hne)
      rfl rfl (Nat.le_refl _) rfl rfl (List.Subset.refl _) (List.Subset.refl _)
      (fun _ => ⟨rfl, rfl⟩) ?_ (fun w hw => nomatch hw)
    intro w hw
    dsimp only at hw
    split at hw
    · exact Or.inl hw
    · exact List.mem_append.mp hw
  all_goals cases hstep

/-- INTERNAL: what a receiver has is forwarded, unless the client has it already. -/
theorem streamInv_forward (h : StreamInv s) (hopen : s.ended = false)
    (outputRx : List (ℕ × List UInt8)) (lifecycleRx : List (ℕ × LifecycleEvent))
    (events : List (ForwardedEvent (ℕ × LifecycleEvent)))
    (hevents : ∀ code, .exited code ∉ events)
    (houtput : ∀ c ∈ s.outputRx, s.threshold < c.1 → c ∈ outputRx ∨ .output c ∈ events)
    (hlifecycle : ∀ e ∈ s.lifecycleRx, e ∈ lifecycleRx ∨ .lifecycle e ∈ events) :
    StreamInv { s with outputRx, lifecycleRx, delivered := s.delivered ++ events } := by
  have hmono : ∀ w, OnItsWay s w →
      OnItsWay { s with outputRx, lifecycleRx, delivered := s.delivered ++ events } w := by
    intro w hw hawaited
    have hawaited' : Awaited s w := by
      cases w with
      | marker chunk => trivial
      | lifecycle event => exact hawaited
    obtain hsent | hqueued := hw hawaited'
    · exact Or.inl (List.mem_append_left _ hsent)
    · cases w with
      | marker chunk =>
          obtain hwaits | hsent := houtput chunk hqueued.1 hqueued.2
          · exact Or.inr ⟨hwaits, hqueued.2⟩
          · exact Or.inl (List.mem_append_right _ hsent)
      | lifecycle event =>
          obtain hwaits | hsent := hlifecycle event hqueued
          · exact Or.inr hwaits
          · exact Or.inl (List.mem_append_right _ hsent)
  refine ⟨fun w hw => hmono w (h.last w hw), fun w hw => hmono w (h.accounted w hw),
    fun t ht howed w hw => hmono w (h.said t ht howed w hw), ?_, h.threshold, ?_, h.silent, ?_⟩
  · exact fun t ht howed => turnOk_congr (s := s) rfl rfl (h.turn t ht howed)
  · intro hended
    rw [hopen] at hended
    cases hended
  · rintro - ⟨code, hcode⟩
    obtain hold | hnew := List.mem_append.mp hcode
    · exact h.unsent hopen ⟨code, hold⟩
    · exact hevents code hnew

/-- INTERNAL: where the pane has come to its end, an operation that is owed has said its words, or is
a `stop` or a `set_policy`. -/
theorem not_speaking_of_final (h : StreamInv s) (hfinal : s.finalExit = true) {t : SupervisionTurn}
    (ht : s.turn = some t) (howed : t.owed = true)
    (hop : ¬ ((t.op = .stop ∨ t.op = .setPolicy) ∧ Speaking t)) : ¬ Speaking t := by
  simp only [finalExit, isExited, Bool.and_eq_true, decide_eq_true_eq, Bool.not_eq_true'] at hfinal
  have hturn := h.turn t ht howed
  unfold TurnOk at hturn
  cases hkind : t.op with
  | accountExit =>
      rw [hkind] at hturn
      rw [hturn.1] at hfinal
      cases hfinal.1
  | respawn =>
      rw [hkind] at hturn
      obtain hquiet | hrunning | ⟨-, hpending, -⟩ := hturn
      · exact hquiet
      · exact absurd hfinal.1 hrunning.2
      · rw [hfinal.2] at hpending
        cases hpending
  | restart =>
      rw [hkind] at hturn
      exact hturn
  | setPolicy => exact fun hspeaks => hop ⟨Or.inr hkind, hspeaks⟩
  | stop => exact fun hspeaks => hop ⟨Or.inl hkind, hspeaks⟩

/-- INTERNAL: the final exit is polled after both receivers.
SRC: main.rs:1593-1650 -/
theorem streamInv_poll (h : StreamInv s) {due : Bool} (htimely : ¬ Interrupts s (.poll due))
    (hstep : s.poll due = some s') : StreamInv s' := by
  unfold poll at hstep
  by_cases hended : s.ended = true
  · rw [if_pos hended] at hstep
    cases hstep
  · rw [if_neg hended] at hstep
    have hopen : s.ended = false := by simpa using hended
    split at hstep
    · rename_i chunk outputRx hrx
      split at hstep
      · rename_i hold
        cases hstep
        have hforward := streamInv_forward h hopen outputRx s.lifecycleRx []
          (fun _ hcode => nomatch hcode) ?_ fun e he => Or.inl he
        · rw [List.append_nil] at hforward
          exact hforward
        · intro c hc hnew
          rw [hrx] at hc
          obtain rfl | hc := List.mem_cons.mp hc
          · exact absurd hnew (Nat.not_lt.mpr hold)
          · exact Or.inl hc
      · cases hstep
        refine streamInv_forward h hopen outputRx s.lifecycleRx [.output chunk]
          (fun code hcode => ?_) ?_ fun e he => Or.inl he
        · cases List.mem_singleton.mp hcode
        · intro c hc _
          rw [hrx] at hc
          obtain rfl | hc := List.mem_cons.mp hc
          · exact Or.inr List.mem_cons_self
          · exact Or.inl hc
    · rename_i hrx
      split at hstep
      · rename_i event lifecycleRx hlrx
        cases hstep
        refine streamInv_forward h hopen s.outputRx lifecycleRx [.lifecycle event]
          (fun code hcode => ?_) (fun c hc _ => Or.inl hc) ?_
        · cases List.mem_singleton.mp hcode
        · intro e he
          rw [hlrx] at he
          obtain rfl | he := List.mem_cons.mp he
          · exact Or.inr List.mem_cons_self
          · exact Or.inl he
      · rename_i hlrx
        split at hstep
        · rename_i hfinal
          cases hstep
          have hmono : ∀ w, OnItsWay s w → OnItsWay { s with
              delivered := s.delivered ++ [.exited s.exitCode], ended := true } w := fun w hw =>
            hw.mono rfl rfl (List.subset_append_left _ _) (List.Subset.refl _) (List.Subset.refl _)
          refine ⟨fun w hw => hmono w (h.last w hw), fun w hw => hmono w (h.accounted w hw),
            fun t ht howed w hw => hmono w (h.said t ht howed w hw),
            fun t ht howed => turnOk_congr (s := s) rfl rfl (h.turn t ht howed), h.threshold,
            fun _ => ⟨hrx, hlrx⟩, ?_, fun hend => nomatch hend⟩
          intro _ t ht howed
          apply not_speaking_of_final h hfinal ht howed
          rintro ⟨hop, hspeaks⟩
          exact htimely ⟨⟨due, rfl⟩, hopen, hrx, hlrx, hfinal, t, ht, hop, howed, hspeaks⟩
        · split at hstep
          · cases hstep
            refine streamInv_forward h hopen s.outputRx s.lifecycleRx [.heartbeat]
              (fun code hcode => ?_) (fun c hc _ => Or.inl hc) fun e he => Or.inl he
            cases List.mem_singleton.mp hcode
          · cases hstep
            exact h

/-! ## Whole runs -/

/-- The stream is as it was. -/
structure SameStream (s s' : LiveStream) : Prop where
  ended : s'.ended = s.ended
  delivered : s'.delivered = s.delivered

theorem sameStream_doRespawn (s : LiveStream) (sup : PaneSupervisor) (automatic : Bool) (now : ℕ)
    (spawn : Except String (Option ℕ)) (unit : F64) :
    SameStream s (s.doRespawn delayMs seconds sup automatic now spawn unit) := by
  unfold doRespawn
  dsimp only
  split
  · exact ⟨rfl, rfl⟩
  · exact ⟨rfl, rfl⟩

theorem sameStream_act (hstep : s.act = some s') : SameStream s s' := by
  obtain ⟨t, -, heq⟩ := Option.map_eq_some_iff.mp hstep
  split at heq
  · subst heq
    unfold finishTurn
    generalize (if t.op = .accountExit then ReaderStage.accounted else s.reader) = reader
    dsimp only
    split
    · exact ⟨rfl, rfl⟩
    · split
      · exact ⟨rfl, rfl⟩
      · split
        · exact ⟨rfl, rfl⟩
        · exact ⟨rfl, rfl⟩
  · rename_i a acts hacts
    dsimp only at heq
    split at heq
    · subst heq
      exact ⟨rfl, rfl⟩
    · subst heq
      exact ⟨rfl, rfl⟩
    · subst heq
      exact ⟨rfl, rfl⟩
    · rename_i kill before flag
      obtain ⟨sup, lastSignal, restartPending, hterminate⟩ :=
        terminate_eq s { t with acts } kill before flag
      rw [hterminate] at heq
      subst heq
      exact ⟨rfl, rfl⟩
    · subst heq
      exact ⟨rfl, rfl⟩
    · subst heq
      exact ⟨rfl, rfl⟩

theorem eq_of_locked {k : LiveStream} (hstep : s.locked k = some s') : s' = k := by
  unfold locked at hstep
  split at hstep
  · cases hstep
  · cases hstep
    rfl

/-- INTERNAL: a stream that is closed gets nothing more. -/
theorem sameStream_of_ended {e : LiveStreamEvent} (hended : s.ended = true)
    (hstep : step delayMs seconds s e = some s') : SameStream s s' := by
  cases e with
  | output payload =>
      simp only [step, output] at hstep
      split at hstep
      · cases hstep
        exact ⟨rfl, rfl⟩
      · cases hstep
  | reader code =>
      simp only [step, readerStep] at hstep
      split at hstep
      · cases hstep
        exact ⟨rfl, rfl⟩
      · cases hstep
        exact ⟨rfl, rfl⟩
      · cases hstep
        exact ⟨rfl, rfl⟩
      all_goals cases hstep
  | accountExit now unit =>
      simp only [step, accountExit] at hstep
      split at hstep
      · cases hstep
      · split at hstep
        · cases hstep
          exact ⟨rfl, rfl⟩
        · cases hstep
  | setPolicy policy now =>
      rw [eq_of_locked hstep]
      unfold setPolicy
      split
      · exact ⟨rfl, rfl⟩
      · exact ⟨rfl, rfl⟩
  | stop kill now =>
      rw [eq_of_locked hstep]
      exact ⟨rfl, rfl⟩
  | restart resetBackoff kill now spawn unit =>
      rw [eq_of_locked hstep]
      unfold restart
      dsimp only
      split
      · exact ⟨rfl, rfl⟩
      · split
        · exact ⟨rfl, rfl⟩
        · exact sameStream_doRespawn ..
  | start now spawn unit =>
      rw [eq_of_locked hstep]
      unfold start
      split
      · exact ⟨rfl, rfl⟩
      · exact sameStream_doRespawn ..
  | runDue now spawn unit =>
      rw [eq_of_locked hstep]
      unfold runDue
      split
      · exact sameStream_doRespawn ..
      · exact ⟨rfl, rfl⟩
  | resetBudget =>
      rw [eq_of_locked hstep]
      exact ⟨rfl, rfl⟩
  | act => exact sameStream_act hstep
  | poll due =>
      simp only [step, poll] at hstep
      rw [if_pos hended] at hstep
      cases hstep
  | disconnect =>
      cases hstep
      exact ⟨hended.symm, rfl⟩

theorem hungUp_step {e : LiveStreamEvent} (h : HungUp s)
    (hstep : step delayMs seconds s e = some s') : HungUp s' := by
  obtain ⟨hended, hdelivered⟩ := sameStream_of_ended h.1 hstep
  refine ⟨hended.trans h.1, ?_⟩
  unfold ExitSent
  rw [hdelivered]
  exact h.2

theorem streamInv_step {e : LiveStreamEvent} (h : StreamInv s) (htimely : ¬ Interrupts s e)
    (hstep : step delayMs seconds s e = some s') : StreamInv s' ∨ HungUp s' := by
  cases e with
  | output payload => exact Or.inl (streamInv_output h hstep)
  | reader code => exact Or.inl (streamInv_reader h hstep)
  | accountExit now unit =>
      simp only [step] at hstep
      split at hstep
      · cases hstep
      · exact Or.inl (streamInv_accountExit h hstep)
  | setPolicy policy now =>
      rw [eq_of_locked hstep]
      exact Or.inl (streamInv_setPolicy h policy now)
  | stop kill now =>
      rw [eq_of_locked hstep]
      exact Or.inl (streamInv_stop h kill now)
  | restart resetBackoff kill now spawn unit =>
      rw [eq_of_locked hstep]
      exact Or.inl (streamInv_restart h resetBackoff kill now spawn unit)
  | start now spawn unit =>
      rw [eq_of_locked hstep]
      exact Or.inl (streamInv_start h now spawn unit)
  | runDue now spawn unit =>
      rw [eq_of_locked hstep]
      exact Or.inl (streamInv_runDue h now spawn unit)
  | resetBudget =>
      rw [eq_of_locked hstep]
      left
      exact h.quiet rfl (fun t _ hok => turnOk_congr (s := s) rfl rfl hok) rfl rfl (Nat.le_refl _) rfl
        rfl (List.Subset.refl _) (List.Subset.refl _) (fun _ => ⟨rfl, rfl⟩) (fun w hw => Or.inl hw)
        (fun w hw => hw)
  | act => exact Or.inl (streamInv_step_act h hstep)
  | poll due => exact Or.inl (streamInv_poll h htimely hstep)
  | disconnect =>
      cases hstep
      by_cases hended : s.ended = true
      · left
        have hsame : { s with ended := true } = s := by rw [← hended]
        rw [hsame]
        exact h
      · exact Or.inr ⟨rfl, h.unsent (by simpa using hended)⟩

theorem saidBeforeEnd_of_streamInv (h : StreamInv s) : SaidBeforeEnd s := by
  intro before code hdelivered w hw hawaited
  have hsent : ExitSent s := ⟨code, by rw [hdelivered]; exact List.mem_append_right _ List.mem_cons_self⟩
  have hended : s.ended = true := by
    by_contra hopen
    exact h.unsent (by simpa using hopen) hsent
  obtain ⟨houtput, hlifecycle⟩ := h.drained hended
  obtain hforwarded | hqueued := h.last w hw hawaited
  · rw [hdelivered] at hforwarded
    obtain hbefore | hexit := List.mem_append.mp hforwarded
    · exact hbefore
    · exact absurd (List.mem_singleton.mp hexit) (forwarded_ne_exited w code)
  · cases w with
    | marker chunk =>
        have hmem := hqueued.1
        rw [houtput] at hmem
        cases hmem
    | lifecycle event =>
        have hmem : event ∈ s.lifecycleRx := hqueued
        rw [hlifecycle] at hmem
        cases hmem

theorem streamInv_attached (sup : PaneSupervisor) (reader : ReaderStage)
    (exitCode lastSignal : Option ℤ) (restartPending : Bool) (outputSeq emitted : ℕ)
    (subscribes : Bool) : StreamInv (attached sup reader exitCode lastSignal restartPending outputSeq
      emitted subscribes) where
  last _ hw := nomatch hw
  accounted _ hw := nomatch hw
  said _ ht := nomatch ht
  turn _ ht := nomatch ht
  threshold := Nat.le_refl _
  drained hended := nomatch hended
  silent hended := nomatch hended
  unsent _ := fun ⟨_, hcode⟩ => nomatch hcode

/-- INTERNAL: in every run of a live loop beside the operations on its pane, where no iteration of
the loop ends the stream while a `stop` or a `set_policy` has something to say yet, everything that
was said by the operation that left the pane exited with no restart pending comes before the exit.
SRC: supervision.rs:181-393, pane.rs:919-930, main.rs:1593-1650 -/
theorem said_before_end (delayMs : RestartPolicy → ℕ → F64 → ℕ) (seconds : ℕ → ℕ → String)
    (sup : PaneSupervisor) (reader : ReaderStage) (exitCode lastSignal : Option ℤ)
    (restartPending : Bool) (outputSeq emitted : ℕ) (subscribes : Bool) {es : List LiveStreamEvent}
    {s : LiveStream}
    (htimely : Along (step delayMs seconds) (fun s e => ¬ Interrupts s e)
      (attached sup reader exitCode lastSignal restartPending outputSeq emitted subscribes) es)
    (hrun : run (step delayMs seconds)
      (attached sup reader exitCode lastSignal restartPending outputSeq emitted subscribes) es =
        some s) : SaidBeforeEnd s := by
  have hinv : StreamInv s ∨ HungUp s := by
    refine run_invariant_along (fun s => StreamInv s ∨ HungUp s) ?_
      (Or.inl (streamInv_attached sup reader exitCode lastSignal restartPending outputSeq emitted
        subscribes)) htimely hrun
    rintro s e s' (h | h) hnot hstep
    · exact streamInv_step h hnot hstep
    · exact Or.inr (hungUp_step h hstep)
  obtain h | ⟨-, hunsent⟩ := hinv
  · exact saidBeforeEnd_of_streamInv h
  · intro before code hdelivered
    refine absurd ⟨code, ?_⟩ hunsent
    rw [hdelivered]
    exact List.mem_append_right _ List.mem_cons_self


end

/-! ## Two runs -/

/-- A process that is restarted whenever it ends. -/
def restarting : PaneSupervisor :=
  (PaneSupervisor.new { RestartPolicy.default with mode := .always }).onStarted 0

/-- The process ends, a restart is scheduled, and the client hears of it. -/
def endAndSchedule : List LiveStreamEvent :=
  [.reader (some 1), .reader none, .accountExit 10 (.finite 0)] ++
    (List.replicate 5 .act ++ .reader none :: List.replicate 3 (.poll false))

/-- The operations are left alone by the live loop. -/
def pollsBetween (s : LiveStream) : LiveStreamEvent → Bool
  | .poll _ => s.turn.isNone
  | _ => true

theorem not_interrupts_of_pollsBetween (s : LiveStream) (e : LiveStreamEvent)
    (h : pollsBetween s e = true) : ¬ Interrupts s e := by
  rintro ⟨⟨due, rfl⟩, -, -, -, -, t, ht, -⟩
  simp [pollsBetween, ht] at h

/-- The loop goes on when the pane is stopped in its backoff, after the stop has returned. -/
theorem said_before_end_stop :
    ∃ s, run (step (fun _ _ _ => 1000) fun _ ms => toString ms)
        (attached restarting .running none none false 0 0 true)
        (endAndSchedule ++ .stop (.ok ()) 20 :: (List.replicate 4 .act ++
          List.replicate 3 (.poll false))) = some s ∧
      s.delivered.getLast? = some (.exited (some 1)) ∧ s.lastWords.length = 2 ∧ SaidBeforeEnd s := by
  have hrun : ((run (step (fun _ _ _ => 1000) fun _ ms => toString ms)
      (attached restarting .running none none false 0 0 true)
      (endAndSchedule ++ .stop (.ok ()) 20 :: (List.replicate 4 .act ++
        List.replicate 3 (.poll false)))).any fun s =>
          decide (s.delivered.getLast? = some (.exited (some 1)) ∧ s.lastWords.length = 2)) = true := by
    decide +kernel
  have hbetween : Along (step (fun _ _ _ => 1000) fun _ ms => toString ms)
      (fun s e => pollsBetween s e = true) (attached restarting .running none none false 0 0 true)
      (endAndSchedule ++ .stop (.ok ()) 20 :: (List.replicate 4 .act ++
        List.replicate 3 (.poll false))) := by
    decide +kernel
  obtain ⟨s, hs, hend⟩ := (Option.any_eq_true _ _).mp hrun
  obtain ⟨hlast, hwords⟩ := of_decide_eq_true hend
  exact ⟨s, hs, hlast, hwords, said_before_end _ _ _ _ _ _ _ _ _ _
    (hbetween.mono not_interrupts_of_pollsBetween) hs⟩

/-- The loop goes on when the stop has cleared `restart_pending`, and not said so. -/
theorem stop_after_end :
    ∃ s, run (step (fun _ _ _ => 1000) fun _ ms => toString ms)
        (attached restarting .running none none false 0 0 true)
        (endAndSchedule ++ [.stop (.ok ()) 20, .act, .poll false, .act, .act, .act]) = some s ∧
      ¬ SaidBeforeEnd s := by
  have hrun : ((run (step (fun _ _ _ => 1000) fun _ ms => toString ms)
      (attached restarting .running none none false 0 0 true)
      (endAndSchedule ++ [.stop (.ok ()) 20, .act, .poll false, .act, .act, .act])).any fun s =>
          decide (s.delivered.getLast? = some (.exited (some 1)) ∧ s.subscribes = true ∧
            ∃ w ∈ s.lastWords, w.forwarded ∉ s.delivered)) = true := by
    decide +kernel
  obtain ⟨s, hs, hend⟩ := (Option.any_eq_true _ _).mp hrun
  obtain ⟨hlast, hsubscribes, w, hw, hunsaid⟩ := of_decide_eq_true hend
  refine ⟨s, hs, fun hsaid => ?_⟩
  obtain ⟨before, hdelivered⟩ := List.getLast?_eq_some_iff.mp hlast
  have hawaited : Awaited s w := by
    cases w with
    | marker chunk => trivial
    | lifecycle event => exact hsubscribes
  apply hunsaid
  rw [hdelivered]
  exact List.mem_append_left _ (hsaid before _ hdelivered w hw hawaited)

end Tymux.Analysis.StreamEnd
