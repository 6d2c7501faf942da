import Tymux.Analysis.SessionPlaces
import Tymux.Lib.Total

/-!
# The engine's maps agree with its layout trees

The panes of all layout trees are the keys of the panes, of the reverse index and of the
supervision's entries, and the reverse index says where each of them is. A call adds a pane to all
of them, takes panes out of all of them, or keeps all of them.
-/

set_option autoImplicit false

namespace Tymux.Analysis.Calls

open Tymux.Model Tymux.Lib

/-! ## What the supervision keeps -/

/-- The supervised panes are the same, and there are no new pane objects. -/
structure Keeps (w w' : Supervision) : Prop where
  entries : ∀ id, (w'.entry id).isSome = (w.entry id).isSome
  panes : ∀ a, (w'.paneAt a).isSome → (w.paneAt a).isSome

theorem Keeps.refl (w : Supervision) : Keeps w w := ⟨fun _ => rfl, fun _ h => h⟩

theorem Keeps.trans {w w' w'' : Supervision} (h : Keeps w w') (h' : Keeps w' w'') : Keeps w w'' where
  entries id := (h'.entries id).trans (h.entries id)
  panes a ha := h.panes a (h'.panes a ha)

theorem Keeps.setEntry {w w' : Supervision} (h : Keeps w w') {id : Uuid} {e : Entry}
    (he : w.entry id = some e) (e' : Entry) : Keeps w (w'.setEntry id e') where
  entries id' := by
    by_cases hid : id' = id
    · subst hid
      rw [Supervision.entry_setEntry_self, he]
      rfl
    · rw [Supervision.entry_setEntry_of_ne w' e' hid]
      exact h.entries id'
  panes a ha := h.panes a ha

theorem Keeps.setPane {w w' : Supervision} (h : Keeps w w') {a : ℕ} {p : Pane}
    (hp : w.paneAt a = some p) (p' : Pane) : Keeps w (w'.setPane a p') where
  entries id := h.entries id
  panes a' ha := by
    by_cases heq : a' = a
    · subst heq
      rw [hp]
      rfl
    · rw [Supervision.paneAt_setPane_of_ne w' p' heq] at ha
      exact h.panes a' ha

theorem upgrade_eq_some {w : Supervision} {e : Entry} {a : ℕ} {p : Pane}
    (h : w.upgrade e = some (a, p)) : w.paneAt a = some p := by
  obtain ⟨a', -, h⟩ := Option.bind_eq_some_iff.mp h
  obtain ⟨p', hp, heq⟩ := Option.map_eq_some_iff.mp h
  cases heq
  exact hp

theorem runningPane_eq_some {w : Supervision} {e : Entry} {a : ℕ} {p : Pane}
    (h : w.runningPane e = some (a, p)) : w.paneAt a = some p :=
  upgrade_eq_some (Option.filter_eq_some_iff.mp h).1

section Transitions

variable (delayMs : RestartPolicy → ℕ → F64 → ℕ)

theorem keeps_accountExit {w : Supervision} {a : ℕ} {p : Pane} (hp : w.paneAt a = some p) (q : Pane)
    (code : Option ℤ) (now : ℕ) (unit : F64) :
    Keeps w (w.accountExit delayMs a q code now unit) := by
  unfold Supervision.accountExit
  split
  case h_1 => exact Keeps.refl w
  case h_2 e he =>
      split
      case isTrue => exact Keeps.refl w
      case isFalse => exact ((Keeps.refl w).setEntry he _).setPane hp _

theorem keeps_readerStep {w w' : Supervision} {a : ℕ} {code : Option ℤ} {now : ℕ} {unit : F64}
    (h : w.readerStep delayMs a code now unit = some w') : Keeps w w' := by
  obtain ⟨p, hp, h⟩ := Option.bind_eq_some_iff.mp h
  split at h
  case h_1 =>
      cases h
      exact (Keeps.refl w).setPane hp _
  case h_2 =>
      cases h
      exact (Keeps.refl w).setPane hp _
  case h_3 =>
      obtain ⟨q, -, h⟩ := Option.map_eq_some_iff.mp h
      rw [← h]
      exact (keeps_accountExit delayMs hp p _ now unit).setPane hp _
  case h_4 =>
      cases h
      exact (Keeps.refl w).setPane hp _
  case h_5 =>
      cases h
      exact (Keeps.refl w).setPane hp _
  case h_6 => cases h

theorem keeps_installHook (w : Supervision) (a now : ℕ) (unit : F64) :
    Keeps w (w.installHook delayMs a now unit) := by
  unfold Supervision.installHook
  split
  case h_1 => exact Keeps.refl w
  case h_2 p hp =>
      dsimp only
      have hset : Keeps w (w.setPane a { p with hook := true }) := (Keeps.refl w).setPane hp _
      split
      case isTrue =>
          exact hset.trans (keeps_accountExit delayMs (w.paneAt_setPane_self a _) _ _ now unit)
      case isFalse => exact hset

theorem keeps_doRespawn {w₀ w : Supervision} (h : Keeps w₀ w) {id : Uuid} {e₀ : Entry}
    (he : w₀.entry id = some e₀) (e : Entry) (automatic : Bool) (env : RespawnEnv)
    (hpanes : ∀ a p, w.paneAt a = some p → w₀.paneAt a = some p) :
    Keeps w₀ (w.doRespawn delayMs id e automatic env).1 := by
  unfold Supervision.doRespawn
  split
  case h_1 => exact h
  case h_2 a p hup =>
      have hp := hpanes a p (upgrade_eq_some hup)
      split
      case isTrue => exact h
      case isFalse =>
          dsimp only
          split
          case h_1 q _ =>
              have hset := (h.setEntry he { e with
                sup := (e.sup.beginRestart env.now automatic).onStarted env.now }).setPane hp
                  { q with restartPending := false }
              exact ⟨hset.entries, hset.panes⟩
          case h_2 q message _ => exact (h.setEntry he _).setPane hp _

theorem keeps_runDueLoop (w : Supervision) (due : List (Uuid × RespawnEnv)) :
    Keeps w (w.runDueLoop delayMs due) := by
  induction due generalizing w with
  | nil => exact Keeps.refl w
  | cons d due ih =>
      unfold Supervision.runDueLoop
      split
      case h_1 => exact ih w
      case h_2 e he =>
          exact (keeps_doRespawn delayMs (Keeps.refl w) he e _ d.2 (fun _ _ h => h)).trans (ih _)

theorem keeps_setPolicy (w : Supervision) (id : Uuid) (policy : RestartPolicy) :
    Keeps w (w.setPolicy id policy).1 := by
  unfold Supervision.setPolicy
  split
  case h_1 => exact Keeps.refl w
  case h_2 =>
      split
      case h_1 => exact Keeps.refl w
      case h_2 e he =>
          dsimp only
          have hset := (Keeps.refl w).setEntry he { e with sup := e.sup.setPolicy policy }
          split
          case h_1 => exact hset
          case h_2 a p hup => exact hset.setPane (upgrade_eq_some hup) _

theorem keeps_stop (w : Supervision) (id : Uuid) (kill : Except String Unit) :
    Keeps w (w.stop id kill).1 := by
  unfold Supervision.stop
  split
  case h_1 => exact Keeps.refl w
  case h_2 e he =>
      dsimp only
      have hset := (Keeps.refl w).setEntry he { e with sup := e.sup.requestStop.1 }
      split
      case h_1 => exact hset
      case h_2 a p hup =>
          have hp := upgrade_eq_some hup
          split_ifs
          · exact hset.setPane hp _
          · exact hset.setPane hp _
          · split
            case h_1 => exact hset.setPane hp _
            case h_2 => exact (Keeps.refl w).setPane hp _

theorem keeps_restart (w : Supervision) (id : Uuid) (resetBackoff : Bool)
    (kill : Except String Unit) (env : RespawnEnv) :
    Keeps w (w.restart delayMs id resetBackoff kill env).1 := by
  unfold Supervision.restart
  split
  case h_1 => exact Keeps.refl w
  case h_2 e he =>
      dsimp only
      split_ifs
      · split
        case h_1 => exact (Keeps.refl w).setEntry he _
        case h_2 a p hrunning =>
            have hp := runningPane_eq_some hrunning
            split
            case h_1 => exact ((Keeps.refl w).setEntry he _).setPane hp _
            case h_2 => exact (Keeps.refl w).setPane hp _
      · split
        case h_1 a p hrunning =>
            exact ((Keeps.refl w).setEntry he _).setPane (runningPane_eq_some hrunning) _
        case h_2 =>
            have hkeep := keeps_doRespawn delayMs ((Keeps.refl w).setEntry he
              { e with sup := (e.sup.requestRestart resetBackoff).1 }) he
              { e with sup := (e.sup.requestRestart resetBackoff).1 } false env (fun _ _ h => h)
            split
            case h_1 w'' heq =>
                rw [heq] at hkeep
                exact hkeep
            case h_2 w'' err heq =>
                rw [heq] at hkeep
                exact hkeep

theorem keeps_start (w : Supervision) (id : Uuid) (env : RespawnEnv) :
    Keeps w (w.start delayMs id env).1 := by
  unfold Supervision.start
  split
  case h_1 => exact Keeps.refl w
  case h_2 e he =>
      split_ifs
      · exact Keeps.refl w
      · exact keeps_doRespawn delayMs ((Keeps.refl w).setEntry he _) he _ _ _ (fun _ _ h => h)

theorem keeps_resetBudget (w : Supervision) (id : Uuid) : Keeps w (w.resetBudget id).1 := by
  unfold Supervision.resetBudget
  split
  case h_1 => exact Keeps.refl w
  case h_2 e he => exact (Keeps.refl w).setEntry he _

end Transitions

/-- INTERNAL: a forgotten pane has no entry any more.
SRC: supervision.rs:153-163 -/
theorem forget_entries (w : Supervision) (id id' : Uuid) :
    ((w.forget id).entry id').isSome ↔ id' ≠ id ∧ (w.entry id').isSome := by
  by_cases hid : id' = id
  · subst hid
    unfold Supervision.forget
    split
    case h_1 hnone => simp [hnone]
    case h_2 e he =>
        dsimp only
        split <;> simp
  · unfold Supervision.forget
    split
    case h_1 hnone => simp [hid]
    case h_2 e he =>
        dsimp only
        split <;> simp [hid]

theorem forget_panes (w : Supervision) (id : Uuid) (a : ℕ) (h : ((w.forget id).paneAt a).isSome) :
    (w.paneAt a).isSome := by
  unfold Supervision.forget at h
  split at h
  case h_1 => exact h
  case h_2 e he =>
      dsimp only at h
      split at h
      case h_1 => exact h
      case h_2 b p hup =>
          have hset := ((Keeps.refl w).setPane (upgrade_eq_some hup)
            { p with retired := true, restartPending := false }).panes a
          exact hset h

/-! ## The invariant -/

/-- The leaf pane ids over all windows. -/
def leafIds (s : Engine) : List Uuid := (panePlaces s.sessions).map Prod.fst

/-- The maps are indices of the layout trees. -/
structure Indexed (s : Engine) : Prop where
  paneWindow : Mirrors s.paneWindow (panePlaces s.sessions)
  windowSession : Mirrors s.windowSession (windowPlaces s.sessions)
  panes : ∀ p, p ∈ s.panes ↔ p ∈ leafIds s
  entries : ∀ p, (s.supervision.entry p).isSome ↔ p ∈ leafIds s
  active : ∀ sid st, s.sessions.lookup sid = some st →
    st.activeWindowId ∈ st.windows.map NamedWindow.id

/-- The ids and the addresses that are yet to be drawn are not in use. -/
structure Fresh (s : Engine) : Prop where
  panes : ∀ e ∈ panePlaces s.sessions, e.1 < s.nextId
  windows : ∀ e ∈ windowPlaces s.sessions, e.1 < s.nextId
  sessions : ∀ sid ∈ s.sessions, sid < s.nextId
  addrs : ∀ a, (s.supervision.paneAt a).isSome → a < s.nextAddr

def Sound (s : Engine) : Prop :=
  ∀ sid st, s.sessions.lookup sid = some st → ∀ w ∈ st.windows, SoundWindow w

structure CallsInv (s : Engine) : Prop where
  indexed : Indexed s
  fresh : Fresh s
  sound : Sound s

theorem callsInv_init : CallsInv .init where
  indexed := {
    paneWindow := mirrors_empty
    windowSession := mirrors_empty
    panes := by simp [Engine.init, leafIds, panePlaces, collect]
    entries := by simp [Engine.init, leafIds, panePlaces, collect, Supervision.init,
      Supervision.entry]
    active := by simp [Engine.init] }
  fresh := {
    panes := by simp [Engine.init, panePlaces, collect]
    windows := by simp [Engine.init, windowPlaces, collect]
    sessions := by simp [Engine.init]
    addrs := by simp [Engine.init, Supervision.init, Supervision.paneAt] }
  sound := by
    intro sid st h
    simp [Engine.init] at h

theorem Fresh.notMem_leafIds {s : Engine} (h : Fresh s) {p : Uuid} (hp : s.nextId ≤ p) :
    p ∉ leafIds s := by
  intro hmem
  obtain ⟨e, he, rfl⟩ := List.mem_map.mp hmem
  exact absurd (h.panes e he) (Nat.not_lt.mpr hp)

theorem Fresh.notMem_windows {s : Engine} (h : Fresh s) {w : Uuid} (hw : s.nextId ≤ w) :
    w ∉ (windowPlaces s.sessions).map Prod.fst := by
  intro hmem
  obtain ⟨e, he, rfl⟩ := List.mem_map.mp hmem
  exact absurd (h.windows e he) (Nat.not_lt.mpr hw)

theorem Fresh.lookup_none {s : Engine} (h : Fresh s) {sid : Uuid} (hsid : s.nextId ≤ sid) :
    s.sessions.lookup sid = none := by
  apply AList.lookup_eq_none.mpr
  intro hmem
  exact absurd (h.sessions sid hmem) (Nat.not_lt.mpr hsid)

theorem Indexed.leaves_nodup {s : Engine} (h : Indexed s) {sid : Uuid} {st : NamedSession}
    (hst : s.sessions.lookup sid = some st) {w : NamedWindow} (hw : w ∈ st.windows) :
    w.layout.leaves.Nodup :=
  leaves_nodup_of_places (places_nodup_of_lookup h.paneWindow.nodup hst) hw

theorem Indexed.ids_nodup {s : Engine} (h : Indexed s) {sid : Uuid} {st : NamedSession}
    (hst : s.sessions.lookup sid = some st) : (st.windows.map NamedWindow.id).Nodup :=
  ids_nodup_of_lookup h.windowSession.nodup hst

/-! ## Changes -/

/-- What a call did to the sessions: the added places, and those that are gone. -/
structure Placed (s s' : Engine) (panes gonePanes windows goneWindows : List (Uuid × Uuid)) :
    Prop where
  panes : (gonePanes ++ panePlaces s'.sessions).Perm (panes ++ panePlaces s.sessions)
  windows : (goneWindows ++ windowPlaces s'.sessions).Perm (windows ++ windowPlaces s.sessions)
  active : ∀ sid st, s'.sessions.lookup sid = some st →
    st.activeWindowId ∈ st.windows.map NamedWindow.id
  sound : Sound s'

theorem Placed.leafIds_iff {s s' : Engine} {pane window : Uuid} {windows : List (Uuid × Uuid)}
    (h : Placed s s' [(pane, window)] [] windows []) (p : Uuid) :
    p ∈ leafIds s' ↔ p = pane ∨ p ∈ leafIds s := by
  have hmem := (h.panes.map Prod.fst).mem_iff (a := p)
  rw [List.nil_append, List.map_append, List.mem_append] at hmem
  exact hmem.trans (or_congr_left List.mem_singleton)

/-- INTERNAL: a pane is added to all maps, and its window where it is new. -/
theorem Indexed.add {s s' : Engine} (h : Indexed s) {pane window : Uuid}
    {windows : List (Uuid × Uuid)} (hp : Placed s s' [(pane, window)] [] windows [])
    (hfresh : pane ∉ leafIds s) (hpw : s'.paneWindow = s.paneWindow.insert pane window)
    (hws : Mirrors s'.windowSession (windows ++ windowPlaces s.sessions))
    (hpanes : ∀ p, p ∈ s'.panes ↔ p = pane ∨ p ∈ s.panes)
    (hentries : ∀ p, (s'.supervision.entry p).isSome ↔ p = pane ∨ (s.supervision.entry p).isSome) :
    Indexed s' where
  paneWindow := by
    rw [hpw]
    exact (h.paneWindow.insert hfresh window).perm hp.panes
  windowSession := hws.perm hp.windows
  panes p := by rw [hpanes, h.panes, hp.leafIds_iff]
  entries p := by rw [hentries, h.entries, hp.leafIds_iff]
  active := hp.active

/-- INTERNAL: panes are taken out of all maps, and their windows where these are gone. -/
theorem Indexed.remove {s s' : Engine} (h : Indexed s) {gonePanes goneWindows : List (Uuid × Uuid)}
    (hp : Placed s s' [] gonePanes [] goneWindows)
    (hpw : s'.paneWindow = (gonePanes.map Prod.fst).foldl (fun m p => m.erase p) s.paneWindow)
    (hws : s'.windowSession =
      (goneWindows.map Prod.fst).foldl (fun m w => m.erase w) s.windowSession)
    (hpanes : ∀ p, p ∈ s'.panes ↔ p ∉ gonePanes.map Prod.fst ∧ p ∈ s.panes)
    (hentries : ∀ p, (s'.supervision.entry p).isSome ↔
      p ∉ gonePanes.map Prod.fst ∧ (s.supervision.entry p).isSome) : Indexed s' := by
  have hall : Mirrors s.paneWindow (gonePanes ++ panePlaces s'.sessions) := h.paneWindow.perm hp.panes
  have hnodup := hall.nodup
  rw [List.map_append, List.nodup_append] at hnodup
  have hleaf : ∀ p, p ∈ leafIds s' ↔ p ∉ gonePanes.map Prod.fst ∧ p ∈ leafIds s := by
    intro p
    have hmem := (hp.panes.map Prod.fst).mem_iff (a := p)
    rw [List.map_append, List.mem_append, List.nil_append] at hmem
    constructor
    · intro hp'
      exact ⟨fun hgone => hnodup.2.2 p hgone p hp' rfl, hmem.mp (Or.inr hp')⟩
    · rintro ⟨hgone, hp'⟩
      exact (hmem.mpr hp').resolve_left hgone
  refine ⟨?_, ?_, ?_, ?_, hp.active⟩
  · rw [hpw]
    exact hall.eraseAll gonePanes
  · rw [hws]
    exact (h.windowSession.perm hp.windows).eraseAll goneWindows
  · intro p
    rw [hpanes, h.panes, hleaf]
  · intro p
    rw [hentries, h.entries, hleaf]

/-- INTERNAL: the places stay, and so do the keys of all maps. -/
theorem Indexed.same {s s' : Engine} (h : Indexed s) (hp : Placed s s' [] [] [] [])
    (hpw : s'.paneWindow = s.paneWindow) (hws : s'.windowSession = s.windowSession)
    (hpanes : ∀ p, p ∈ s'.panes ↔ p ∈ s.panes)
    (hentries : ∀ p, (s'.supervision.entry p).isSome ↔ (s.supervision.entry p).isSome) :
    Indexed s' := by
  refine h.remove hp hpw hws ?_ ?_
  · intro p
    rw [hpanes]
    simp
  · intro p
    rw [hentries]
    simp

/-- INTERNAL: ids that are drawn are below the next one. -/
theorem Fresh.placed {s s' : Engine} (h : Fresh s)
    {panes gonePanes windows goneWindows : List (Uuid × Uuid)}
    (hp : Placed s s' panes gonePanes windows goneWindows) (hnext : s.nextId ≤ s'.nextId)
    (hpanes : ∀ e ∈ panes, e.1 < s'.nextId) (hwindows : ∀ e ∈ windows, e.1 < s'.nextId)
    (hsessions : ∀ sid ∈ s'.sessions, sid ∈ s.sessions ∨ sid < s'.nextId)
    (haddrs : ∀ a, (s'.supervision.paneAt a).isSome → a < s'.nextAddr) : Fresh s' where
  panes e he := by
    rcases List.mem_append.mp (hp.panes.mem_iff.mp (List.mem_append_right _ he)) with hnew | hold
    · exact hpanes e hnew
    · exact lt_of_lt_of_le (h.panes e hold) hnext
  windows e he := by
    rcases List.mem_append.mp (hp.windows.mem_iff.mp (List.mem_append_right _ he)) with hnew | hold
    · exact hwindows e hnew
    · exact lt_of_lt_of_le (h.windows e hold) hnext
  sessions sid hsid := by
    rcases hsessions sid hsid with hold | hnew
    · exact lt_of_lt_of_le (h.sessions sid hold) hnext
    · exact hnew
  addrs := haddrs

/-- INTERNAL: the sessions after one of them was put in or replaced. -/
theorem placed_insert {s s' : Engine} (hs : CallsInv s) {sid : Uuid} {st : NamedSession}
    {panes gonePanes windows goneWindows : List (Uuid × Uuid)}
    (hsessions : s'.sessions = s.sessions.insert sid st)
    (hpanes : (gonePanes ++ panePlaces (s.sessions.insert sid st)).Perm
      (panes ++ panePlaces s.sessions))
    (hwindows : (goneWindows ++ windowPlaces (s.sessions.insert sid st)).Perm
      (windows ++ windowPlaces s.sessions))
    (hactive : st.activeWindowId ∈ st.windows.map NamedWindow.id)
    (hsound : ∀ w ∈ st.windows, SoundWindow w) :
    Placed s s' panes gonePanes windows goneWindows := by
  have hlookup : ∀ sid' st', s'.sessions.lookup sid' = some st' →
      st' = st ∨ s.sessions.lookup sid' = some st' := by
    intro sid' st' hst'
    rw [hsessions] at hst'
    by_cases heq : sid' = sid
    · subst heq
      rw [AList.lookup_insert, Option.some_inj] at hst'
      exact Or.inl hst'.symm
    · rw [AList.lookup_insert_ne heq] at hst'
      exact Or.inr hst'
  refine ⟨by rw [hsessions]; exact hpanes, by rw [hsessions]; exact hwindows, ?_, ?_⟩
  · intro sid' st' hst'
    rcases hlookup sid' st' hst' with rfl | hold
    · exact hactive
    · exact hs.indexed.active sid' st' hold
  · intro sid' st' hst'
    rcases hlookup sid' st' hst' with rfl | hold
    · exact hsound
    · exact hs.sound sid' st' hold

/-- INTERNAL: the sessions after one of them was removed. -/
theorem placed_erase {s s' : Engine} (hs : CallsInv s) {sid : Uuid} {st : NamedSession}
    (hst : s.sessions.lookup sid = some st) (hsessions : s'.sessions = s.sessions.erase sid) :
    Placed s s' [] (places st.windows) [] (st.windows.map fun w => (w.id, sid)) := by
  have hlookup : ∀ sid' st', s'.sessions.lookup sid' = some st' →
      s.sessions.lookup sid' = some st' := by
    intro sid' st' hst'
    rw [hsessions] at hst'
    by_cases heq : sid' = sid
    · subst heq
      rw [AList.lookup_erase] at hst'
      cases hst'
    · rwa [AList.lookup_erase_ne heq] at hst'
  refine ⟨?_, ?_, ?_, ?_⟩
  · rw [hsessions]
    exact (panePlaces_of_lookup hst).symm
  · rw [hsessions]
    exact (windowPlaces_of_lookup hst).symm
  · intro sid' st' hst'
    exact hs.indexed.active sid' st' (hlookup sid' st' hst')
  · intro sid' st' hst'
    exact hs.sound sid' st' (hlookup sid' st' hst')

/-- INTERNAL: a session is replaced by one with the same windows and panes. -/
theorem placed_same {s s' : Engine} (hs : CallsInv s) {sid : Uuid} {st st' : NamedSession}
    (hst : s.sessions.lookup sid = some st) (hsessions : s'.sessions = s.sessions.insert sid st')
    (hplaces : places st'.windows = places st.windows)
    (hids : st'.windows.map NamedWindow.id = st.windows.map NamedWindow.id)
    (hactive : st'.activeWindowId = st.activeWindowId)
    (hsound : ∀ w ∈ st'.windows, SoundWindow w) : Placed s s' [] [] [] [] := by
  refine placed_insert hs hsessions ?_ ?_ ?_ hsound
  · exact panePlaces_insert_grow [] _ hst (List.Perm.of_eq hplaces)
  · exact windowPlaces_insert_grow [] _ hst (List.Perm.of_eq hids)
  · rw [hactive, hids]
    exact hs.indexed.active sid st hst

theorem mem_sessions_insert {s : Engine} {sid : Uuid} {st st' : NamedSession}
    (hst : s.sessions.lookup sid = some st) (sid' : Uuid)
    (h : sid' ∈ s.sessions.insert sid st') : sid' ∈ s.sessions := by
  rcases (AList.mem_insert _).mp h with rfl | h
  · exact AList.lookup_isSome.mp (by rw [hst]; rfl)
  · exact h

theorem mem_sessions_erase {s : Engine} {sid sid' : Uuid} (h : sid' ∈ s.sessions.erase sid) :
    sid' ∈ s.sessions := (AList.mem_erase.mp h).2

/-! ## Calls that add a pane -/

variable (delayMs : RestartPolicy → ℕ → F64 → ℕ)

/-- INTERNAL: the pane gets an object and an entry.
SRC: engine.rs:505-511, supervision.rs:100-114 -/
theorem registerPane_eq (s : Engine) (pane : Uuid) (policy : RestartPolicy) (env : LaunchEnv) :
    ∃ w, s.registerPane delayMs pane policy env = some { s with
        panes := s.panes.insert pane (.live s.nextAddr defaultRows defaultCols)
        supervision := w
        nextAddr := s.nextAddr + 1 } ∧
      (∀ id, (w.entry id).isSome ↔ id = pane ∨ (s.supervision.entry id).isSome) ∧
      ∀ a, (w.paneAt a).isSome → a = s.nextAddr ∨ (s.supervision.paneAt a).isSome := by
  have hpane : (s.spawn pane).supervision.paneAt s.nextAddr = some (Pane.new pane) :=
    Supervision.paneAt_setPane_self ..
  unfold Engine.registerPane
  dsimp only
  unfold Supervision.registerLive
  rw [hpane]
  refine ⟨_, rfl, ?_, ?_⟩
  · intro id
    rw [(keeps_installHook delayMs _ _ _ _).entries]
    by_cases hid : id = pane
    · subst hid
      simp [Pane.new]
    · have hne : id ≠ (Pane.new pane).id := hid
      rw [Supervision.entry_setEntry_of_ne _ _ hne]
      simp [hid, Engine.spawn, Supervision.entry, Supervision.setPane]
  · intro a ha
    have ha' := (keeps_installHook delayMs _ _ _ _).panes a ha
    by_cases heq : a = s.nextAddr
    · exact Or.inl heq
    · right
      have hold : (s.spawn pane).supervision.paneAt a = s.supervision.paneAt a :=
        Supervision.paneAt_setPane_of_ne s.supervision _ heq
      rw [Supervision.paneAt_setEntry, hold] at ha'
      exact ha'

theorem CallsInv.added {s s' : Engine} (hs : CallsInv s) (pane window : Uuid)
    (windows : List (Uuid × Uuid)) (hp : Placed s s' [(pane, window)] [] windows [])
    (hdrawn : s.nextId ≤ pane) (hpane : pane < s'.nextId)
    (hwindows : ∀ e ∈ windows, s.nextId ≤ e.1 ∧ e.1 < s'.nextId)
    (hsessions : ∀ sid ∈ s'.sessions, sid ∈ s.sessions ∨ sid < s'.nextId)
    (hpw : s'.paneWindow = s.paneWindow.insert pane window)
    (hws : Mirrors s'.windowSession (windows ++ windowPlaces s.sessions)) {held : HeldPane}
    (hpanes : s'.panes = s.panes.insert pane held)
    (hentries : ∀ p, (s'.supervision.entry p).isSome ↔ p = pane ∨ (s.supervision.entry p).isSome)
    (hnextAddr : s'.nextAddr = s.nextAddr + 1)
    (haddrs : ∀ a, (s'.supervision.paneAt a).isSome →
      a = s.nextAddr ∨ (s.supervision.paneAt a).isSome) : CallsInv s' where
  indexed := by
    refine hs.indexed.add hp (hs.fresh.notMem_leafIds hdrawn) hpw hws ?_ hentries
    intro p
    rw [hpanes]
    exact AList.mem_insert _
  fresh := by
    refine hs.fresh.placed hp (le_of_lt (lt_of_le_of_lt hdrawn hpane)) ?_ ?_ hsessions ?_
    · intro e he
      rw [List.mem_singleton.mp he]
      exact hpane
    · intro e he
      exact (hwindows e he).2
    · intro a ha
      rw [hnextAddr]
      rcases haddrs a ha with rfl | hold
      · exact Nat.lt_succ_self _
      · exact Nat.lt_succ_of_lt (hs.fresh.addrs a hold)
  sound := hp.sound

theorem soundWindow_newWindow (window : Uuid) (name : String) (pane : Uuid) :
    SoundWindow (RecordState.newWindow window name pane) :=
  ⟨trivial, (by decide : defaultRows ≤ u16Max), (by decide : defaultCols ≤ u16Max)⟩

/-- INTERNAL: a session with one window and one pane.
SRC: engine.rs:470-522 -/
theorem yields_createSession {s : Engine} (hs : CallsInv s) (name : String) (policy : RestartPolicy)
    (env : LaunchEnv) : Yields (s.createSession delayMs name policy env) fun r => CallsInv r.1 := by
  unfold Engine.createSession
  split
  case h_1 => exact yields_some hs
  case h_2 =>
      split
      case h_1 => exact yields_some hs
      case h_2 =>
          dsimp only
          obtain ⟨w, hw, hentries, haddrs⟩ := registerPane_eq delayMs { s with
            sessions := s.sessions.insert s.nextId ⟨name,
              [RecordState.newWindow (s.nextId + 1) "0" (s.nextId + 2)], s.nextId + 1, policy⟩
            nextId := s.nextId + 3 } (s.nextId + 2) policy env
          rw [hw]
          apply yields_some
          have hnone := hs.fresh.lookup_none (Nat.le_refl s.nextId)
          have hwindow : s.nextId + 1 ∉ (windowPlaces s.sessions).map Prod.fst :=
            hs.fresh.notMem_windows (Nat.le_succ _)
          refine hs.added (s.nextId + 2) (s.nextId + 1) [(s.nextId + 1, s.nextId)] ?_
            (Nat.le_add_right _ 2) (Nat.lt_succ_self _) ?_ ?_ rfl
            (hs.indexed.windowSession.insert hwindow s.nextId) rfl hentries rfl haddrs
          · refine placed_insert hs rfl (panePlaces_insert_new _ hnone)
              (windowPlaces_insert_new _ hnone) List.mem_cons_self ?_
            intro v hv
            rw [List.mem_singleton.mp hv]
            exact soundWindow_newWindow _ _ _
          · intro e he
            rw [List.mem_singleton.mp he]
            exact ⟨Nat.le_succ _, Nat.lt_of_lt_of_le (Nat.lt_succ_self _) (Nat.le_succ _)⟩
          · intro sid hsid
            rcases (AList.mem_insert _).mp hsid with rfl | hold
            · exact Or.inr (Nat.lt_add_of_pos_right (by decide))
            · exact Or.inl hold

/-- INTERNAL: a split adds one pane to the window of its target.
SRC: engine.rs:675-736 -/
theorem yields_splitPane {s : Engine} (hs : CallsInv s) (target : Uuid) (o : Orientation)
    (env : LaunchEnv) : Yields (s.splitPane delayMs target o env) fun r => CallsInv r.1 := by
  unfold Engine.splitPane
  split
  case h_1 => exact yields_some hs
  case h_2 =>
      split
      case h_1 => exact yields_some hs
      case h_2 window session _ =>
          split
          case h_1 => exact yields_some hs
          case h_2 st hst =>
              dsimp only
              have hd : ∀ v ∈ st.windows, v.layout.leaves.Nodup := fun v hv => hs.indexed.leaves_nodup hst hv
              obtain ⟨r, hr⟩ := splitWindow_total target s.nextId window o hd
                (hs.sound session st hst)
              refine yields_bind_of_eq hr ?_
              cases r with
              | error e => exact yields_some hs
              | ok windows =>
                  obtain ⟨hids, hplaces, hsound⟩ := splitWindow_ok hd hr
                  obtain ⟨w, hw, hentries, haddrs⟩ := registerPane_eq delayMs { s with
                    sessions := s.sessions.insert session { st with windows }
                    nextId := s.nextId + 1 } s.nextId st.defaultRestartPolicy env
                  dsimp only
                  rw [hw]
                  apply yields_some
                  refine hs.added s.nextId window [] ?_
                    (Nat.le_refl _) (Nat.lt_succ_self _) (fun e he => absurd he List.not_mem_nil)
                    ?_ rfl hs.indexed.windowSession rfl hentries rfl haddrs
                  · refine placed_insert hs rfl ?_ ?_ ?_ (hsound (hs.sound session st hst))
                    · exact panePlaces_insert_grow [(s.nextId, window)] _ hst hplaces
                    · exact windowPlaces_insert_grow [] _ hst (List.Perm.of_eq hids)
                    · rw [hids]
                      exact hs.indexed.active session st hst
                  · intro sid hsid
                    exact Or.inl (mem_sessions_insert hst sid hsid)

/-- INTERNAL: a window with one pane is added at the end.
SRC: engine.rs:851-893 -/
theorem yields_createWindow {s : Engine} (hs : CallsInv s) (session : Uuid) (env : LaunchEnv) :
    Yields (s.createWindow delayMs session env) fun r => CallsInv r.1 := by
  unfold Engine.createWindow
  split
  case h_1 => exact yields_some hs
  case h_2 =>
      split
      case h_1 => exact yields_some hs
      case h_2 st hst =>
          dsimp only
          obtain ⟨w, hw, hentries, haddrs⟩ := registerPane_eq delayMs { s with
            sessions := s.sessions.insert session
              (RecordState.addWindow st s.nextId (s.nextId + 1))
            nextId := s.nextId + 2 } (s.nextId + 1) st.defaultRestartPolicy env
          rw [hw]
          apply yields_some
          have hwindow : s.nextId ∉ (windowPlaces s.sessions).map Prod.fst :=
            hs.fresh.notMem_windows (Nat.le_refl _)
          refine hs.added (s.nextId + 1) s.nextId [(s.nextId, session)] ?_
            (Nat.le_succ _) (Nat.lt_succ_self _) ?_ ?_ rfl
            (hs.indexed.windowSession.insert hwindow session) rfl hentries rfl haddrs
          · refine placed_insert hs rfl ?_ ?_ ?_ ?_
            · refine panePlaces_insert_grow [(s.nextId + 1, s.nextId)] _ hst ?_
              change (places (st.windows ++ [_])).Perm _
              rw [places_append]
              exact List.perm_append_comm
            · refine windowPlaces_insert_grow [s.nextId] _ hst ?_
              change ((st.windows ++ [_]).map _).Perm _
              rw [List.map_append]
              exact List.perm_append_comm
            · change s.nextId ∈ (st.windows ++ [_]).map NamedWindow.id
              rw [List.map_append]
              exact List.mem_append_right _ List.mem_cons_self
            · intro v hv
              rcases List.mem_append.mp hv with hold | hnew
              · exact hs.sound session st hst v hold
              · rw [List.mem_singleton.mp hnew]
                exact soundWindow_newWindow _ _ _
          · intro e he
            rw [List.mem_singleton.mp he]
            exact ⟨Nat.le_refl _, Nat.lt_add_of_pos_right (by decide)⟩
          · intro sid hsid
            exact Or.inl (mem_sessions_insert hst sid hsid)

/-! ## Calls that take panes out -/

/-- INTERNAL: the pane loses its entries.
SRC: engine.rs:826-831 -/
theorem dropPane_eq (s : Engine) (pane : Uuid) :
    ∃ w, s.dropPane pane = { s with panes := s.panes.erase pane, supervision := w } ∧
      (∀ id, (w.entry id).isSome ↔ id ≠ pane ∧ (s.supervision.entry id).isSome) ∧
      ∀ a, (w.paneAt a).isSome → (s.supervision.paneAt a).isSome := by
  have hforget := forget_entries s.supervision pane
  have hpanes := forget_panes s.supervision pane
  refine ⟨(s.dropPane pane).supervision, rfl, ?_⟩
  suffices h : Keeps (s.supervision.forget pane) (s.dropPane pane).supervision by
    exact ⟨fun id => by rw [h.entries, hforget], fun a ha => hpanes a (h.panes a ha)⟩
  unfold Engine.dropPane
  dsimp only
  split
  case h_1 addr _ _ _ =>
      split
      case h_1 p hp =>
          split
          case isTrue => exact Keeps.refl _
          case isFalse => exact (Keeps.refl _).setPane hp _
      case h_2 => exact Keeps.refl _
  case h_2 => exact Keeps.refl _

theorem dropPanes_eq (s : Engine) (ids : List Uuid) :
    ∃ panes w, ids.foldl Engine.dropPane s = { s with panes := panes, supervision := w } ∧
      (∀ p, p ∈ panes ↔ p ∉ ids ∧ p ∈ s.panes) ∧
      (∀ id, (w.entry id).isSome ↔ id ∉ ids ∧ (s.supervision.entry id).isSome) ∧
      ∀ a, (w.paneAt a).isSome → (s.supervision.paneAt a).isSome := by
  induction ids generalizing s with
  | nil => exact ⟨s.panes, s.supervision, rfl, by simp, by simp, fun _ h => h⟩
  | cons pane ids ih =>
      obtain ⟨w, hdrop, hentries, haddrs⟩ := dropPane_eq s pane
      obtain ⟨panes, w', hrest, hpanes', hentries', haddrs'⟩ := ih (s.dropPane pane)
      rw [hdrop] at hpanes' hentries' haddrs' hrest
      refine ⟨panes, w', ?_, ?_, ?_, ?_⟩
      · rw [List.foldl_cons, hdrop]
        exact hrest
      · intro p
        rw [hpanes', AList.mem_erase, List.mem_cons]
        tauto
      · intro id
        rw [hentries', hentries, List.mem_cons]
        tauto
      · intro a ha
        exact haddrs a (haddrs' a ha)

theorem CallsInv.removed {s s' : Engine} (hs : CallsInv s)
    (gonePanes goneWindows : List (Uuid × Uuid)) (hp : Placed s s' [] gonePanes [] goneWindows)
    (hnext : s'.nextId = s.nextId) (hnextAddr : s'.nextAddr = s.nextAddr)
    (hsessions : ∀ sid ∈ s'.sessions, sid ∈ s.sessions)
    (hpw : s'.paneWindow = (gonePanes.map Prod.fst).foldl (fun m p => m.erase p) s.paneWindow)
    (hws : s'.windowSession =
      (goneWindows.map Prod.fst).foldl (fun m w => m.erase w) s.windowSession)
    (hpanes : ∀ p, p ∈ s'.panes ↔ p ∉ gonePanes.map Prod.fst ∧ p ∈ s.panes)
    (hentries : ∀ p, (s'.supervision.entry p).isSome ↔
      p ∉ gonePanes.map Prod.fst ∧ (s.supervision.entry p).isSome)
    (haddrs : ∀ a, (s'.supervision.paneAt a).isSome → (s.supervision.paneAt a).isSome) :
    CallsInv s' where
  indexed := hs.indexed.remove hp hpw hws hpanes hentries
  fresh := by
    refine hs.fresh.placed hp (by rw [hnext]) (by simp) (by simp)
      (fun sid h => Or.inl (hsessions sid h)) ?_
    intro a ha
    rw [hnextAddr]
    exact hs.fresh.addrs a (haddrs a ha)
  sound := hp.sound

/-- INTERNAL: the reverse index leads to the session whose window has the pane.
SRC: engine.rs:401-413 -/
theorem Indexed.found {s : Engine} (hs : Indexed s) {pane window session : Uuid}
    (h : s.windowAndSessionForPane pane = .ok (window, session)) :
    ∃ st, s.sessions.lookup session = some st ∧ (pane, window) ∈ places st.windows := by
  unfold Engine.windowAndSessionForPane at h
  split at h
  case h_1 => cases h
  case h_2 window' hwindow =>
      split at h
      case h_1 => cases h
      case h_2 session' hsession =>
          cases h
          obtain ⟨sid, st, hst, hmem⟩ := mem_panePlaces.mp
            ((hs.paneWindow.lookup _ _).mp hwindow)
          have hplaced : (window, sid) ∈ windowPlaces s.sessions :=
            mem_windowPlaces.mpr ⟨st, hst, mem_ids_of_mem_places hmem⟩
          rw [← hs.windowSession.lookup, hsession, Option.some_inj] at hplaced
          exact ⟨st, hplaced ▸ hst, hmem⟩

theorem activeWindowId_closedSession {st : NamedSession} {pane window : Uuid} {w : NamedWindow}
    {ws : List NamedWindow} {closed : Option Uuid}
    (hactive : st.activeWindowId ∈ st.windows.map NamedWindow.id)
    (hcloses : Closes pane window st.windows (w :: ws) closed) :
    (RecordState.closedSession st (w :: ws) closed).activeWindowId ∈
      (w :: ws).map NamedWindow.id := by
  obtain ⟨rfl, hids⟩ | ⟨rfl, -⟩ := hcloses.ids
  · rw [hids]
    exact hactive
  · exact List.mem_cons_self

/-- INTERNAL: one pane loses its entries, its window and its session what a close leaves of them. -/
theorem CallsInv.dropped {s s₁ : Engine} (hs : CallsInv s) (pane window : Uuid)
    (goneWindows : List (Uuid × Uuid)) (hp : Placed s s₁ [] [(pane, window)] [] goneWindows)
    (hpanes : s₁.panes = s.panes) (hsup : s₁.supervision = s.supervision)
    (hnext : s₁.nextId = s.nextId) (hnextAddr : s₁.nextAddr = s.nextAddr)
    (hsessions : ∀ sid ∈ s₁.sessions, sid ∈ s.sessions)
    (hpw : s₁.paneWindow = s.paneWindow.erase pane)
    (hws : s₁.windowSession =
      (goneWindows.map Prod.fst).foldl (fun m w => m.erase w) s.windowSession) :
    CallsInv (s₁.dropPane pane) := by
  obtain ⟨w, hdrop, hentries, haddrs⟩ := dropPane_eq s₁ pane
  rw [hsup] at hentries haddrs
  rw [hdrop]
  refine hs.removed [(pane, window)] goneWindows ⟨hp.panes, hp.windows, hp.active, hp.sound⟩ hnext
    hnextAddr hsessions hpw hws ?_ ?_ haddrs
  · intro p
    dsimp only
    rw [hpanes, AList.mem_erase, List.map_singleton, List.mem_singleton]
  · intro p
    rw [hentries, List.map_singleton, List.mem_singleton]

/-- INTERNAL: a close takes the pane out, its window with the last pane, and its session with the
last window.
SRC: engine.rs:742-848 -/
theorem callsInv_closePane {s : Engine} (hs : CallsInv s) (pane : Uuid) :
    CallsInv (s.closePane pane).1 := by
  unfold Engine.closePane
  split
  case h_1 => exact hs
  case h_2 window session hfound =>
      obtain ⟨st, hst, hmem⟩ := hs.indexed.found hfound
      have hids := hs.indexed.ids_nodup hst
      obtain ⟨windows, closed, hclose, hcloses⟩ :=
        closeWindow_of_place (fun v hv => hs.indexed.leaves_nodup hst hv) hids hmem
      rw [hst]
      dsimp only
      rw [hclose]
      dsimp only
      cases windows with
      | nil =>
          have hgone : places st.windows = [(pane, window)] :=
            List.perm_singleton.mp hcloses.places
          obtain ⟨-, hnil⟩ | ⟨rfl, hperm⟩ := hcloses.ids
          · have hempty : st.windows = [] := List.map_eq_nil_iff.mp hnil.symm
            rw [hempty] at hmem
            cases hmem
          · have hone : (st.windows.map fun v => (v.id, session)) = [(window, session)] := by
              have hmap := congrArg (List.map fun v => (v, session)) (List.perm_singleton.mp hperm)
              rwa [List.map_map] at hmap
            refine hs.dropped pane window [(window, session)] ?_ rfl rfl rfl rfl
              (fun sid h => mem_sessions_erase h) rfl rfl
            rw [← hgone, ← hone]
            exact placed_erase hs hst rfl
      | cons v vs =>
          have hactive := activeWindowId_closedSession (hs.indexed.active session st hst) hcloses
          have hsound := hcloses.sound (hs.sound session st hst)
          have hpanes : ((pane, window) :: panePlaces (s.sessions.insert session
              (RecordState.closedSession st (v :: vs) closed))).Perm (panePlaces s.sessions) :=
            (panePlaces_insert_shrink [(pane, window)]
              (RecordState.closedSession st (v :: vs) closed) hst hcloses.places).symm
          obtain ⟨rfl, heq⟩ | ⟨rfl, hperm⟩ := hcloses.ids
          · refine hs.dropped pane window [] ?_ rfl rfl rfl rfl
              (fun sid h => mem_sessions_insert hst sid h) rfl rfl
            exact placed_insert hs rfl hpanes (windowPlaces_insert_shrink []
              (RecordState.closedSession st (v :: vs) none) hst
              (List.Perm.of_eq heq.symm)).symm hactive hsound
          · refine hs.dropped pane window [(window, session)] ?_ rfl rfl rfl rfl
              (fun sid h => mem_sessions_insert hst sid h) rfl rfl
            exact placed_insert hs rfl hpanes (windowPlaces_insert_shrink [window]
              (RecordState.closedSession st (v :: vs) (some window)) hst
              hperm).symm hactive hsound

/-- INTERNAL: a kill takes every pane and every window of the session out.
SRC: engine.rs:588-628 -/
theorem callsInv_killSession {s : Engine} (hs : CallsInv s) (session : Uuid) :
    CallsInv (s.killSession session).1 := by
  unfold Engine.killSession
  split
  case h_1 => exact hs
  case h_2 st hst =>
      have hleaves : st.leaves = (places st.windows).map Prod.fst := (map_fst_places st.windows).symm
      dsimp only
      obtain ⟨panes, w, hdrop, hpanes, hentries, haddrs⟩ := dropPanes_eq { s with
        sessions := s.sessions.erase session
        windowSession :=
          (st.windows.map NamedWindow.id).foldl (fun m w => m.erase w) s.windowSession
        paneWindow := st.leaves.foldl (fun m p => m.erase p) s.paneWindow } st.leaves
      rw [hdrop]
      rw [hleaves] at hpanes hentries
      refine hs.removed _ _ (placed_erase hs hst rfl) rfl rfl (fun sid h => mem_sessions_erase h) ?_ ?_
        hpanes hentries haddrs
      · dsimp only
        rw [hleaves]
      · dsimp only
        rw [List.map_map]
        rfl

/-! ## Calls that keep the panes -/

/-- INTERNAL: the sessions and the keys of all maps stay as they are. -/
theorem CallsInv.same {s s' : Engine} (hs : CallsInv s) (hsessions : s'.sessions = s.sessions)
    (hpw : s'.paneWindow = s.paneWindow) (hws : s'.windowSession = s.windowSession)
    (hnext : s'.nextId = s.nextId) (hpanes : ∀ p, p ∈ s'.panes ↔ p ∈ s.panes)
    (hentries : ∀ p, (s'.supervision.entry p).isSome ↔ (s.supervision.entry p).isSome)
    (haddrs : ∀ a, (s'.supervision.paneAt a).isSome → a < s'.nextAddr) : CallsInv s' := by
  have hp : Placed s s' [] [] [] [] := by
    refine ⟨?_, ?_, ?_, ?_⟩
    · rw [hsessions]
    · rw [hsessions]
    · rw [hsessions]
      exact hs.indexed.active
    · unfold Sound
      rw [hsessions]
      exact hs.sound
  refine ⟨hs.indexed.same hp hpw hws hpanes hentries, ?_, hp.sound⟩
  refine hs.fresh.placed hp (by rw [hnext]) (by simp) (by simp) ?_ haddrs
  rw [hsessions]
  exact fun _ h => Or.inl h

/-- INTERNAL: the supervision changes, and keeps its keys. -/
theorem CallsInv.supervised {s : Engine} (hs : CallsInv s) {w : Supervision}
    (hw : Keeps s.supervision w) : CallsInv { s with supervision := w } := by
  refine hs.same rfl rfl rfl rfl (fun _ => Iff.rfl) ?_ ?_
  · intro p
    rw [hw.entries]
  · intro a ha
    exact hs.fresh.addrs a (hw.panes a ha)

/-- INTERNAL: a session is replaced by one with the same windows and panes, and the panes keep their
keys. -/
theorem CallsInv.resized {s : Engine} (hs : CallsInv s) {sid : Uuid} {st : NamedSession}
    (st' : NamedSession) (hst : s.sessions.lookup sid = some st)
    (hplaces : places st'.windows = places st.windows)
    (hids : st'.windows.map NamedWindow.id = st.windows.map NamedWindow.id)
    (hactive : st'.activeWindowId = st.activeWindowId)
    (hsound : ∀ w ∈ st'.windows, SoundWindow w) {panes : AList fun _ : Uuid => HeldPane}
    (hpanes : ∀ p, p ∈ panes ↔ p ∈ s.panes) :
    CallsInv { s with sessions := s.sessions.insert sid st', panes := panes } := by
  have hp : Placed s { s with sessions := s.sessions.insert sid st', panes := panes } [] [] [] [] :=
    placed_same hs hst rfl hplaces hids hactive hsound
  refine ⟨hs.indexed.same hp rfl rfl hpanes (fun _ => Iff.rfl), ?_, hp.sound⟩
  exact hs.fresh.placed hp (Nat.le_refl _) (by simp) (by simp)
    (fun sid h => Or.inl (mem_sessions_insert hst sid h)) hs.fresh.addrs

theorem places_sizeWindow (st : NamedSession) (window rows cols : ℕ) :
    places (RecordState.sizeWindow st window rows cols).windows = places st.windows := by
  unfold places RecordState.sizeWindow
  rw [List.flatMap_map]
  apply List.flatMap_congr
  intro w _
  split_ifs <;> rfl

theorem ids_sizeWindow (st : NamedSession) (window rows cols : ℕ) :
    (RecordState.sizeWindow st window rows cols).windows.map NamedWindow.id =
      st.windows.map NamedWindow.id := by
  unfold RecordState.sizeWindow
  rw [List.map_map]
  apply List.map_congr_left
  intro w _
  simp only [Function.comp_apply]
  split_ifs <;> rfl

theorem soundWindow_sizeWindow {st : NamedSession} (h : ∀ w ∈ st.windows, SoundWindow w)
    (window : ℕ) {rows cols : ℕ} (hrows : rows ≤ u16Max) (hcols : cols ≤ u16Max) :
    ∀ w ∈ (RecordState.sizeWindow st window rows cols).windows, SoundWindow w := by
  intro w hw
  obtain ⟨v, hv, rfl⟩ := List.mem_map.mp hw
  split_ifs
  · exact ⟨(h v hv).halved, hrows, hcols⟩
  · exact h v hv

theorem mem_foldl_resize (rects : List (Uuid × PtyRect)) (m : AList fun _ : Uuid => HeldPane)
    (p : Uuid) :
    p ∈ rects.foldl (fun m e =>
        match m.lookup e.1 with
        | some (.live addr _ _) =>
          m.insert e.1 (.live addr (min e.2.rows maxPaneRows) (min e.2.cols maxPaneCols))
        | _ => m) m ↔ p ∈ m := by
  induction rects generalizing m with
  | nil => rfl
  | cons e rects ih =>
      rw [List.foldl_cons, ih]
      split
      case h_1 addr _ _ hlive =>
          rw [AList.mem_insert]
          constructor
          · rintro (rfl | h)
            · exact AList.lookup_isSome.mp (by rw [hlive]; rfl)
            · exact h
          · exact Or.inr
      case h_2 => rfl

theorem clampViewport_le (rows cols : ℕ) :
    (clampViewport rows cols).1 ≤ u16Max ∧ (clampViewport rows cols).2 ≤ u16Max := by
  simp only [clampViewport, minPaneRows, maxPaneRows, minPaneCols, maxPaneCols, u16Max]
  omega

/-- INTERNAL: a new size of a window reaches its live panes.
SRC: engine.rs:1270-1345 -/
theorem yields_recomputeWindowGeometry {s : Engine} (hs : CallsInv s) (window : Uuid) {rows cols : ℕ}
    (hrows : rows ≤ u16Max) (hcols : cols ≤ u16Max) :
    Yields (s.recomputeWindowGeometry window rows cols) CallsInv := by
  unfold Engine.recomputeWindowGeometry
  split
  case h_1 => exact yields_some hs
  case h_2 session _ =>
      split
      case h_1 => exact yields_some hs
      case h_2 st hst =>
          split
          case h_1 => exact yields_some hs
          case h_2 w hw =>
              have hmem := List.mem_of_find?_eq_some hw
              have hsound := hs.sound session st hst
              refine yields_bind_of_eq
                (computeGeometry_eq_rects w.layout (hsound w hmem).halved rows cols hrows hcols) ?_
              apply yields_some
              exact hs.resized _ hst (places_sizeWindow ..) (ids_sizeWindow ..) rfl
                (soundWindow_sizeWindow hsound window hrows hcols) (mem_foldl_resize _ _)

/-- INTERNAL: a pane is started through the supervision, or a restored one gets its object.
SRC: engine.rs:995-1036 -/
theorem yields_startPaneInner {s : Engine} (hs : CallsInv s) (pane : Uuid) (policy : RestartPolicy)
    (env : LaunchEnv) :
    Yields (s.startPaneInner delayMs pane policy env) fun r => CallsInv r.1 := by
  unfold Engine.startPaneInner
  split
  case h_1 => exact yields_some hs
  case h_2 =>
      split
      case isTrue => exact yields_some hs
      case isFalse => exact yields_some (hs.supervised (keeps_start delayMs s.supervision pane _))
  case h_3 rows cols hdead =>
      split
      case h_1 => exact yields_some hs
      case h_2 =>
          have hpane : (s.spawn pane).supervision.paneAt s.nextAddr = some (Pane.new pane) :=
            Supervision.paneAt_setPane_self ..
          have hheld : pane ∈ s.panes := AList.lookup_isSome.mp (by rw [hdead]; rfl)
          have hentry : (s.supervision.entry pane).isSome :=
            (hs.indexed.entries pane).mpr ((hs.indexed.panes pane).mp hheld)
          dsimp only
          unfold Supervision.adoptStarted
          rw [hpane]
          apply yields_some
          have hkeep := keeps_installHook delayMs
          refine hs.same rfl rfl rfl rfl ?_ ?_ ?_
          · intro p
            dsimp only
            rw [AList.mem_insert]
            constructor
            · rintro (rfl | h)
              · exact hheld
              · exact h
            · exact Or.inr
          · intro p
            dsimp only
            rw [(hkeep _ _ _ _).entries]
            by_cases hp : p = pane
            · subst hp
              simp [Pane.new, hentry]
            · have hne : p ≠ (Pane.new pane).id := hp
              rw [Supervision.entry_setEntry_of_ne _ _ hne]
              exact Iff.rfl
          · intro a ha
            have ha' := (hkeep _ _ _ _).panes a ha
            by_cases heq : a = s.nextAddr
            · rw [heq]
              exact Nat.lt_succ_self _
            · have hold : (s.spawn pane).supervision.paneAt a = s.supervision.paneAt a :=
                Supervision.paneAt_setPane_of_ne s.supervision _ heq
              rw [Supervision.paneAt_setEntry, hold] at ha'
              exact Nat.lt_succ_of_lt (hs.fresh.addrs a ha')

theorem yields_startPane {s : Engine} (hs : CallsInv s) (pane : Uuid) (env : LaunchEnv) :
    Yields (s.startPane delayMs pane env) fun r => CallsInv r.1 := by
  unfold Engine.startPane
  split
  case h_1 => exact yields_some hs
  case h_2 => exact yields_startPaneInner delayMs hs pane _ env

theorem yields_restartPane {s : Engine} (hs : CallsInv s) (pane : Uuid) (resetBackoff : Bool)
    (kill : Except String Unit) (env : LaunchEnv) :
    Yields (s.restartPane delayMs pane resetBackoff kill env) fun r => CallsInv r.1 := by
  unfold Engine.restartPane
  split
  case h_1 => exact yields_some hs
  case h_2 =>
      split
      case h_1 => exact yields_startPaneInner delayMs hs pane _ env
      case h_2 =>
          exact yields_some (hs.supervised (keeps_restart delayMs s.supervision pane resetBackoff
            kill _))

theorem yields_reviveEach (policy : RestartPolicy) (env : Uuid → LaunchEnv) (panes : List Uuid)
    {s : Engine} (hs : CallsInv s) :
    Yields (s.reviveEach delayMs policy env panes) CallsInv := by
  induction panes generalizing s with
  | nil => exact yields_some hs
  | cons pane panes ih =>
      unfold Engine.reviveEach
      exact (yields_startPaneInner delayMs hs pane policy (env pane)).bind fun r hr => ih hr

/-- INTERNAL: a revive starts panes that exist.
SRC: engine.rs:919-991 -/
theorem yields_reviveSession {s : Engine} (hs : CallsInv s) (session : Uuid)
    (prepare : Uuid → Except String Unit) (env : Uuid → LaunchEnv) :
    Yields (s.reviveSession delayMs session prepare env) fun r => CallsInv r.1 := by
  unfold Engine.reviveSession
  split
  case h_1 => exact yields_some hs
  case h_2 st hst =>
      split
      case isTrue => exact yields_some hs
      case isFalse =>
          split
          case h_1 =>
              split
              case h_1 => exact yields_some hs
              case h_2 => exact yields_some hs
          case h_2 =>
              split
              case h_1 => exact yields_some hs
              case h_2 =>
                  exact (yields_reviveEach delayMs st.defaultRestartPolicy env _ hs).map
                    fun s' hs' => hs'

theorem callsInv_stopPane {s : Engine} (hs : CallsInv s) (pane : Uuid) (kill : Except String Unit) :
    CallsInv (s.stopPane pane kill).1 := by
  unfold Engine.stopPane
  split
  case h_1 => exact hs
  case h_2 => exact hs.supervised (keeps_stop s.supervision pane kill)

theorem callsInv_setRestartPolicy {s : Engine} (hs : CallsInv s) (pane : Uuid)
    (policy : RestartPolicy) : CallsInv (s.setRestartPolicy pane policy).1 := by
  unfold Engine.setRestartPolicy
  split
  case h_1 => exact hs
  case h_2 => exact hs.supervised (keeps_setPolicy s.supervision pane policy)

theorem callsInv_setPolicies (policy : RestartPolicy) (panes : List Uuid) {s : Engine}
    (hs : CallsInv s) : CallsInv (Engine.setPolicies policy s panes).1 := by
  induction panes generalizing s with
  | nil => exact hs
  | cons pane panes ih =>
      have hkeep := keeps_setPolicy s.supervision pane policy
      unfold Engine.setPolicies
      split
      case h_1 w e heq =>
          rw [heq] at hkeep
          exact hs.supervised hkeep
      case h_2 w heq =>
          rw [heq] at hkeep
          exact ih (hs.supervised hkeep)

theorem callsInv_setSessionRestartPolicy {s : Engine} (hs : CallsInv s) (session : Uuid)
    (policy : RestartPolicy) (applyToExisting : Bool) :
    CallsInv (s.setSessionRestartPolicy session policy applyToExisting).1 := by
  unfold Engine.setSessionRestartPolicy
  split
  case h_1 => exact hs
  case h_2 =>
      split
      case h_1 => exact hs
      case h_2 st hst =>
          have hset : CallsInv { s with
              sessions := s.sessions.insert session { st with defaultRestartPolicy := policy } } :=
            hs.resized { st with defaultRestartPolicy := policy } hst rfl rfl rfl
              (hs.sound session st hst) (fun _ => Iff.rfl)
          dsimp only
          split
          case isTrue => exact callsInv_setPolicies policy st.leaves hset
          case isFalse => exact hset

theorem callsInv_resetRestartBudget {s : Engine} (hs : CallsInv s) (pane : Uuid) :
    CallsInv (s.resetRestartBudget pane).1 := by
  unfold Engine.resetRestartBudget
  split
  case h_1 => exact hs
  case h_2 => exact hs.supervised (keeps_resetBudget s.supervision pane)

theorem callsInv_superviseTick {s : Engine} (hs : CallsInv s) (now : ℕ)
    (due : List (Uuid × RespawnEnv)) : CallsInv (s.supervise delayMs (.runDue now due)) := by
  apply hs.supervised
  simp only [Supervision.step]
  split
  case isTrue => exact keeps_runDueLoop delayMs s.supervision due
  case isFalse => exact Keeps.refl _

theorem callsInv_reader {s : Engine} (hs : CallsInv s) (addr : ℕ) (code : Option ℤ) (now : ℕ)
    (unit : F64) : CallsInv (s.supervise delayMs (.reader addr code now unit)) := by
  apply hs.supervised
  simp only [Supervision.step]
  cases h : s.supervision.readerStep delayMs addr code now unit with
  | none => exact Keeps.refl _
  | some w => exact keeps_readerStep delayMs h

/-- INTERNAL: every call returns, and keeps the invariant.
SRC: engine.rs:470-1345 -/
theorem yields_call {s : Engine} (hs : CallsInv s) (c : EngineCall) :
    Yields (s.call delayMs c) fun r => CallsInv r.1 := by
  cases c with
  | createSession name policy env => exact yields_createSession delayMs hs name policy env
  | splitPane target orientation env => exact yields_splitPane delayMs hs target orientation env
  | closePane pane => exact yields_some (callsInv_closePane hs pane)
  | createWindow session env => exact yields_createWindow delayMs hs session env
  | killSession session => exact yields_some (callsInv_killSession hs session)
  | reviveSession session prepare env => exact yields_reviveSession delayMs hs session prepare env
  | startPane pane env => exact yields_startPane delayMs hs pane env
  | stopPane pane kill => exact yields_some (callsInv_stopPane hs pane kill)
  | restartPane pane resetBackoff kill env =>
      exact yields_restartPane delayMs hs pane resetBackoff kill env
  | setRestartPolicy pane policy => exact yields_some (callsInv_setRestartPolicy hs pane policy)
  | setSessionRestartPolicy session policy applyToExisting =>
      exact yields_some (callsInv_setSessionRestartPolicy hs session policy applyToExisting)
  | resetRestartBudget pane => exact yields_some (callsInv_resetRestartBudget hs pane)
  | recomputeWindow window rows cols =>
      obtain ⟨hrows, hcols⟩ := clampViewport_le rows cols
      exact (yields_recomputeWindowGeometry hs window hrows hcols).map fun _ h => h
  | superviseTick now due => exact yields_some (callsInv_superviseTick delayMs hs now due)
  | reader addr code now unit => exact yields_some (callsInv_reader delayMs hs addr code now unit)

/-! ## Runs -/

/-- The window that the reverse index gives to a pane has it in its tree, and the index of the
windows has exactly those that exist. -/
structure Consistent (s : Engine) : Prop where
  distinct : (leafIds s).Nodup
  panes : ∀ id, id ∈ s.panes ↔ id ∈ leafIds s
  paneWindow : ∀ id, id ∈ s.paneWindow ↔ id ∈ leafIds s
  entries : ∀ id, id ∈ s.supervision.entries ↔ id ∈ leafIds s
  window : ∀ id window, s.paneWindow.lookup id = some window →
    ∃ sid st w, s.sessions.lookup sid = some st ∧ w ∈ st.windows ∧ w.id = window ∧
      id ∈ w.layout.leaves
  session : ∀ window sid, s.windowSession.lookup window = some sid ↔
    ∃ st, s.sessions.lookup sid = some st ∧ window ∈ st.windows.map NamedWindow.id
  windows : ∀ sid st, s.sessions.lookup sid = some st → st.windows ≠ []
  active : ∀ sid st, s.sessions.lookup sid = some st →
    st.activeWindowId ∈ st.windows.map NamedWindow.id

theorem CallsInv.consistent {s : Engine} (hs : CallsInv s) : Consistent s where
  distinct := hs.indexed.paneWindow.nodup
  panes := hs.indexed.panes
  paneWindow := hs.indexed.paneWindow.mem_iff
  entries id := AList.lookup_isSome.symm.trans (hs.indexed.entries id)
  window id window h := by
    obtain ⟨sid, st, hst, hmem⟩ := mem_panePlaces.mp ((hs.indexed.paneWindow.lookup _ _).mp h)
    obtain ⟨w, hw, hid, hleaf⟩ := mem_places.mp hmem
    exact ⟨sid, st, w, hst, hw, hid, hleaf⟩
  session window sid := (hs.indexed.windowSession.lookup window sid).trans mem_windowPlaces
  windows sid st hst := by
    intro hnil
    have hactive := hs.indexed.active sid st hst
    rw [hnil] at hactive
    cases hactive
  active := hs.indexed.active

theorem callsInv_run {s : Engine} (hs : CallsInv s) (calls : List EngineCall) :
    ∃ s', run (Engine.step delayMs) s calls = some s' ∧ CallsInv s' := by
  induction calls generalizing s with
  | nil => exact ⟨s, rfl, hs⟩
  | cons c calls ih =>
      obtain ⟨r, hr, hinv⟩ := yields_call delayMs hs c
      obtain ⟨s', hrun, hs'⟩ := ih hinv
      refine ⟨s', ?_, hs'⟩
      have hstep : s.step delayMs c = some r.1 := by
        rw [Engine.step, hr, Option.map_some]
      rw [run_cons_of_step (Engine.step delayMs) hstep]
      exact hrun

/-- **Every run of completed calls from an empty engine leads to maps that agree with the layout
trees, and no call in it panics.** -/
theorem engine_indices (calls : List EngineCall) :
    ∃ s, run (Engine.step delayMs) .init calls = some s ∧ Consistent s := by
  obtain ⟨s, hrun, hs⟩ := callsInv_run delayMs callsInv_init calls
  exact ⟨s, hrun, hs.consistent⟩

end Tymux.Analysis.Calls
