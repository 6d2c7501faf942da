import Tymux.Model.Engine
import Tymux.Analysis.LayoutGeometry

/-!
# Where the engine's panes are

`Holds` says that a pane is a leaf of a window of some session. Every layout change of the
engine adds one fresh pane to one window, takes one pane out of its window, or drops a session
with all of its panes, and keeps every pane in at most one window (`LayoutInv`).
-/

set_option autoImplicit false

namespace Tymux.Analysis

open Tymux.Model EngineState

abbrev Sessions := AList fun _ : Uuid => SessionState

/-- The pane is a leaf of one of the windows, the one named `w`. -/
def WindowsHold (ws : List SessionWindow) (p w : Uuid) : Prop :=
  ∃ win ∈ ws, win.id = w ∧ p ∈ win.layout.leaves

/-- The pane is a leaf of the window `w` of some session. -/
def Holds (sessions : Sessions) (p w : Uuid) : Prop :=
  ∃ sid st, sessions.lookup sid = some st ∧ WindowsHold st.windows p w

/-- A window of this name is in the session `sid`. -/
def WindowIn (sessions : Sessions) (w sid : Uuid) : Prop :=
  ∃ st, sessions.lookup sid = some st ∧ w ∈ st.windows.map SessionWindow.id

structure LayoutInv (sessions : Sessions) : Prop where
  ids : ∀ sid st, sessions.lookup sid = some st → (st.windows.map SessionWindow.id).Nodup
  trees : ∀ sid st, sessions.lookup sid = some st → ∀ win ∈ st.windows, win.layout.leaves.Nodup
  sessionOf : ∀ w sid sid', WindowIn sessions w sid → WindowIn sessions w sid' → sid = sid'
  single : ∀ p w w', Holds sessions p w → Holds sessions p w' → w = w'

theorem mem_session_leaves {st : SessionState} {p : Uuid} :
    p ∈ st.leaves ↔ ∃ w, WindowsHold st.windows p w := by
  unfold SessionState.leaves
  rw [List.mem_flatMap]
  constructor
  · rintro ⟨win, hwin, hp⟩
    exact ⟨win.id, win, hwin, rfl, hp⟩
  · rintro ⟨w, win, hwin, -, hp⟩
    exact ⟨win, hwin, hp⟩

theorem mem_leafIds {s : EngineState} {p : Uuid} :
    p ∈ s.leafIds ↔ ∃ w, Holds s.sessions p w := by
  unfold leafIds
  rw [List.mem_flatMap]
  constructor
  · rintro ⟨⟨sid, st⟩, hmem, hp⟩
    obtain ⟨w, hw⟩ := mem_session_leaves.mp hp
    exact ⟨w, sid, st, AList.mem_lookup_iff.mpr hmem, hw⟩
  · rintro ⟨w, sid, st, hst, hw⟩
    exact ⟨⟨sid, st⟩, AList.mem_lookup_iff.mp hst, mem_session_leaves.mpr ⟨w, hw⟩⟩

/-! ## One session replaced -/

/-- What the other sessions hold. -/
def HoldsElsewhere (sessions : Sessions) (sid p w : Uuid) : Prop :=
  ∃ sid' st, sid' ≠ sid ∧ sessions.lookup sid' = some st ∧ WindowsHold st.windows p w

theorem holds_iff_of_lookup {sessions : Sessions} {sid : Uuid} {st : SessionState}
    (h : sessions.lookup sid = some st) (p w : Uuid) :
    Holds sessions p w ↔ WindowsHold st.windows p w ∨ HoldsElsewhere sessions sid p w := by
  constructor
  · rintro ⟨sid', st', hst', hw⟩
    by_cases heq : sid' = sid
    · rw [heq, h, Option.some_inj] at hst'
      exact Or.inl (hst' ▸ hw)
    · exact Or.inr ⟨sid', st', heq, hst', hw⟩
  · rintro (hw | ⟨sid', st', -, hst', hw⟩)
    · exact ⟨sid, st, h, hw⟩
    · exact ⟨sid', st', hst', hw⟩

theorem holds_insert (sessions : Sessions) (sid : Uuid) (st : SessionState) (p w : Uuid) :
    Holds (sessions.insert sid st) p w ↔
      WindowsHold st.windows p w ∨ HoldsElsewhere sessions sid p w := by
  constructor
  · rintro ⟨sid', st', hst', hw⟩
    by_cases heq : sid' = sid
    · rw [heq, AList.lookup_insert, Option.some_inj] at hst'
      exact Or.inl (hst' ▸ hw)
    · rw [AList.lookup_insert_ne heq] at hst'
      exact Or.inr ⟨sid', st', heq, hst', hw⟩
  · rintro (hw | ⟨sid', st', hne, hst', hw⟩)
    · exact ⟨sid, st, AList.lookup_insert _, hw⟩
    · exact ⟨sid', st', by rw [AList.lookup_insert_ne hne, hst'], hw⟩

theorem holds_erase (sessions : Sessions) (sid p w : Uuid) :
    Holds (sessions.erase sid) p w ↔ HoldsElsewhere sessions sid p w := by
  constructor
  · rintro ⟨sid', st', hst', hw⟩
    by_cases heq : sid' = sid
    · rw [heq, AList.lookup_erase] at hst'
      cases hst'
    · rw [AList.lookup_erase_ne heq] at hst'
      exact ⟨sid', st', heq, hst', hw⟩
  · rintro ⟨sid', st', hne, hst', hw⟩
    exact ⟨sid', st', by rw [AList.lookup_erase_ne hne, hst'], hw⟩

theorem holdsElsewhere_of_fresh {sessions : Sessions} {sid : Uuid}
    (h : sessions.lookup sid = none) (p w : Uuid) :
    HoldsElsewhere sessions sid p w ↔ Holds sessions p w := by
  constructor
  · rintro ⟨sid', st', -, hst', hw⟩
    exact ⟨sid', st', hst', hw⟩
  · rintro ⟨sid', st', hst', hw⟩
    refine ⟨sid', st', ?_, hst', hw⟩
    intro heq
    rw [heq, h] at hst'
    cases hst'

/-- INTERNAL: the invariant after one session is replaced: its windows are distinct, they were
its own or are new, and no pane is in two windows. -/
theorem LayoutInv.insert {sessions : Sessions} (h : LayoutInv sessions) {sid : Uuid}
    {st : SessionState} (hids : (st.windows.map SessionWindow.id).Nodup)
    (htrees : ∀ win ∈ st.windows, win.layout.leaves.Nodup)
    (hnew : ∀ w ∈ st.windows.map SessionWindow.id, ∀ sid', WindowIn sessions w sid' → sid' = sid)
    (hsingle : ∀ p w w', Holds (sessions.insert sid st) p w →
      Holds (sessions.insert sid st) p w' → w = w') : LayoutInv (sessions.insert sid st) where
  ids sid' st' hst' := by
    by_cases heq : sid' = sid
    · rw [heq, AList.lookup_insert, Option.some_inj] at hst'
      exact hst' ▸ hids
    · rw [AList.lookup_insert_ne heq] at hst'
      exact h.ids sid' st' hst'
  trees sid' st' hst' := by
    by_cases heq : sid' = sid
    · rw [heq, AList.lookup_insert, Option.some_inj] at hst'
      exact hst' ▸ htrees
    · rw [AList.lookup_insert_ne heq] at hst'
      exact h.trees sid' st' hst'
  sessionOf w sid₁ sid₂ h₁ h₂ := by
    have hcase : ∀ sid', WindowIn (sessions.insert sid st) w sid' →
        sid' = sid ∧ w ∈ st.windows.map SessionWindow.id ∨ sid' ≠ sid ∧ WindowIn sessions w sid' := by
      rintro sid' ⟨st', hst', hw⟩
      by_cases heq : sid' = sid
      · rw [heq, AList.lookup_insert, Option.some_inj] at hst'
        exact Or.inl ⟨heq, hst' ▸ hw⟩
      · rw [AList.lookup_insert_ne heq] at hst'
        exact Or.inr ⟨heq, st', hst', hw⟩
    rcases hcase sid₁ h₁ with ⟨heq₁, hw₁⟩ | ⟨hne₁, hw₁⟩
    · rcases hcase sid₂ h₂ with ⟨heq₂, -⟩ | ⟨hne₂, hw₂⟩
      · rw [heq₁, heq₂]
      · exact absurd (hnew w hw₁ sid₂ hw₂) hne₂
    · rcases hcase sid₂ h₂ with ⟨heq₂, hw₂⟩ | ⟨-, hw₂⟩
      · exact absurd (hnew w hw₂ sid₁ hw₁) hne₁
      · exact h.sessionOf w sid₁ sid₂ hw₁ hw₂
  single := hsingle

theorem LayoutInv.erase {sessions : Sessions} (h : LayoutInv sessions) (sid : Uuid) :
    LayoutInv (sessions.erase sid) := by
  have hkeep : ∀ {sid' st}, (sessions.erase sid).lookup sid' = some st →
      sessions.lookup sid' = some st := by
    intro sid' st hst
    by_cases heq : sid' = sid
    · rw [heq, AList.lookup_erase] at hst
      cases hst
    · rw [AList.lookup_erase_ne heq] at hst
      exact hst
  have hwin : ∀ {w sid'}, WindowIn (sessions.erase sid) w sid' → WindowIn sessions w sid' :=
    fun ⟨st, hst, hw⟩ => ⟨st, hkeep hst, hw⟩
  have hholds : ∀ {p w}, Holds (sessions.erase sid) p w → Holds sessions p w :=
    fun ⟨sid', st, hst, hw⟩ => ⟨sid', st, hkeep hst, hw⟩
  exact ⟨fun sid' st hst => h.ids sid' st (hkeep hst),
    fun sid' st hst => h.trees sid' st (hkeep hst),
    fun w sid₁ sid₂ h₁ h₂ => h.sessionOf w sid₁ sid₂ (hwin h₁) (hwin h₂),
    fun p w w' h₁ h₂ => h.single p w w' (hholds h₁) (hholds h₂)⟩

theorem windowIn_erase {sessions : Sessions} {sid w sid' : Uuid}
    (h : WindowIn (sessions.erase sid) w sid') : sid' ≠ sid ∧ WindowIn sessions w sid' := by
  obtain ⟨st, hst, hw⟩ := h
  by_cases heq : sid' = sid
  · rw [heq, AList.lookup_erase] at hst
    cases hst
  · rw [AList.lookup_erase_ne heq] at hst
    exact ⟨heq, st, hst, hw⟩

/-! ## The layout changes -/

theorem windowsHold_cons {win : SessionWindow} {ws : List SessionWindow} {p w : Uuid} :
    WindowsHold (win :: ws) p w ↔ win.id = w ∧ p ∈ win.layout.leaves ∨ WindowsHold ws p w := by
  unfold WindowsHold
  simp

theorem windowsHold_append {ws ws' : List SessionWindow} {p w : Uuid} :
    WindowsHold (ws ++ ws') p w ↔ WindowsHold ws p w ∨ WindowsHold ws' p w := by
  unfold WindowsHold
  simp [or_and_right, exists_or]

theorem windowsHold_newWindow {p w q v : Uuid} :
    WindowsHold [newWindow w p] q v ↔ q = p ∧ v = w := by
  unfold WindowsHold
  simp [newWindow, LayoutNode.leaves, and_comm, eq_comm]

theorem WindowsHold.mem_ids {ws : List SessionWindow} {p w : Uuid} (h : WindowsHold ws p w) :
    w ∈ ws.map SessionWindow.id := by
  obtain ⟨win, hwin, hid, -⟩ := h
  exact List.mem_map.mpr ⟨win, hwin, hid⟩

/-- INTERNAL: a split puts the new pane into the window it names.
SRC: engine.rs:689-714 -/
theorem splitWindow_spec {target p w : Uuid} {o : Orientation} (ws : List SessionWindow)
    {ws' : List SessionWindow} (h : splitWindow target o p w ws = some (some ws'))
    (htrees : ∀ win ∈ ws, win.layout.leaves.Nodup) (hp : ∀ v, ¬ WindowsHold ws p v) :
    ws'.map SessionWindow.id = ws.map SessionWindow.id ∧
      (∀ win ∈ ws', win.layout.leaves.Nodup) ∧
      ∀ q v, WindowsHold ws' q v ↔ WindowsHold ws q v ∨ q = p ∧ v = w := by
  induction ws generalizing ws' with
  | nil => cases h
  | cons win ws ih =>
      have htail : ∀ win' ∈ ws, win'.layout.leaves.Nodup := fun win' hw =>
        htrees win' (List.mem_cons_of_mem _ hw)
      have hhead := htrees win List.mem_cons_self
      have hpwin : p ∉ win.layout.leaves := fun hmem => hp win.id ⟨win, List.mem_cons_self, rfl, hmem⟩
      have hptail : ∀ v, ¬ WindowsHold ws p v := fun v hv => hp v (windowsHold_cons.mpr (Or.inr hv))
      unfold splitWindow at h
      by_cases hid : win.id = w
      · rw [if_pos hid] at h
        simp only [Option.bind_eq_bind, Option.bind_eq_some_iff] at h
        obtain ⟨res, hres, h⟩ := h
        cases res with
        | error e => cases h
        | ok layout =>
            cases h
            obtain ⟨htarget, rfl⟩ := split?_ok hhead hres
            refine ⟨rfl, ?_, ?_⟩
            · intro win' hwin'
              rcases List.mem_cons.mp hwin' with heq | hwin'
              · rw [heq]
                exact nodup_leaves_graft_halves target p o win.layout hhead hpwin
              · exact htail win' hwin'
            · intro q v
              have hmem : q ∈ (graft target (halves o p) win.layout).leaves ↔
                  q ∈ win.layout.leaves ∨ q = p := by
                constructor
                · exact mem_leaves_graft_halves target p q o win.layout
                · intro hq
                  rw [leaves_graft_halves, List.mem_flatMap]
                  rcases hq with hq | hq
                  · refine ⟨q, hq, ?_⟩
                    split_ifs <;> simp
                  · exact ⟨target, htarget, by simp [hq]⟩
              rw [windowsHold_cons, windowsHold_cons]
              dsimp only
              rw [hmem, hid]
              constructor
              · rintro (⟨hv, hq | hq⟩ | hws)
                · exact Or.inl (Or.inl ⟨hv, hq⟩)
                · exact Or.inr ⟨hq, hv.symm⟩
                · exact Or.inl (Or.inr hws)
              · rintro ((⟨hv, hq⟩ | hws) | ⟨hq, hv⟩)
                · exact Or.inl ⟨hv, Or.inl hq⟩
                · exact Or.inr hws
                · exact Or.inl ⟨hv.symm, Or.inr hq⟩
      · rw [if_neg hid] at h
        simp only [Option.bind_eq_bind, Option.bind_eq_some_iff] at h
        obtain ⟨res, hres, h⟩ := h
        cases res with
        | none => cases h
        | some rest =>
            cases h
            obtain ⟨hids, hnodup, hholds⟩ := ih hres htail hptail
            refine ⟨by simp [hids], ?_, ?_⟩
            · intro win' hwin'
              rcases List.mem_cons.mp hwin' with heq | hwin'
              · rw [heq]
                exact hhead
              · exact hnodup win' hwin'
            · intro q v
              rw [windowsHold_cons, windowsHold_cons, hholds, or_assoc]

/-- INTERNAL: a close takes the pane out of the window it names, and nothing else.
SRC: engine.rs:747-774 -/
theorem closeWindow_spec {p w : Uuid} (ws : List SessionWindow)
    {r : List SessionWindow × Option Uuid} (h : closeWindow p w ws = some r)
    (hids : (ws.map SessionWindow.id).Nodup) (htrees : ∀ win ∈ ws, win.layout.leaves.Nodup) :
    (r.1.map SessionWindow.id).Sublist (ws.map SessionWindow.id) ∧
      (∀ win ∈ r.1, win.layout.leaves.Nodup) ∧
      ∀ q v, WindowsHold r.1 q v ↔ WindowsHold ws q v ∧ ¬ (q = p ∧ v = w) := by
  induction ws generalizing r with
  | nil => cases h
  | cons win ws ih =>
      have htail : ∀ win' ∈ ws, win'.layout.leaves.Nodup := fun win' hw =>
        htrees win' (List.mem_cons_of_mem _ hw)
      have hhead := htrees win List.mem_cons_self
      rw [List.map_cons, List.nodup_cons] at hids
      obtain ⟨hfresh, hids⟩ := hids
      unfold closeWindow at h
      by_cases hid : win.id = w
      · rw [if_pos hid] at h
        have hother : ∀ {q v}, WindowsHold ws q v → v ≠ w := by
          intro q v hq heq
          rw [← hid] at heq
          exact hfresh (heq ▸ hq.mem_ids)
        rcases remove_cases win.layout hhead p with ⟨hleaf, hrem⟩ | ⟨layout, hrem, -, hleaves⟩
        · simp only [hrem, Option.some_inj] at h
          rw [← h]
          refine ⟨by simp, htail, ?_⟩
          intro q v
          rw [windowsHold_cons, hleaf, hid]
          constructor
          · intro hq
            exact ⟨Or.inr hq, fun hboth => hother hq hboth.2⟩
          · rintro ⟨⟨hv, hq⟩ | hq, hnot⟩
            · exact absurd ⟨by simpa [LayoutNode.leaves] using hq, hv.symm⟩ hnot
            · exact hq
        · simp only [hrem, Option.some_inj] at h
          rw [← h]
          refine ⟨by simp, ?_, ?_⟩
          · intro win' hwin'
            rcases List.mem_cons.mp hwin' with heq | hwin'
            · rw [heq]
              exact hleaves ▸ hhead.erase p
            · exact htail win' hwin'
          · intro q v
            rw [windowsHold_cons, windowsHold_cons]
            dsimp only
            rw [hleaves, hhead.mem_erase_iff, hid]
            constructor
            · rintro (⟨hv, hne, hq⟩ | hq)
              · exact ⟨Or.inl ⟨hv, hq⟩, fun hboth => hne hboth.1⟩
              · exact ⟨Or.inr hq, fun hboth => hother hq hboth.2⟩
            · rintro ⟨⟨hv, hq⟩ | hq, hnot⟩
              · exact Or.inl ⟨hv, fun heq => hnot ⟨heq, hv.symm⟩, hq⟩
              · exact Or.inr hq
      · rw [if_neg hid, Option.map_eq_some_iff] at h
        obtain ⟨rest, hrest, rfl⟩ := h
        obtain ⟨hsub, hnodup, hholds⟩ := ih hrest hids htail
        refine ⟨by simpa using hsub, ?_, ?_⟩
        · intro win' hwin'
          rcases List.mem_cons.mp hwin' with heq | hwin'
          · rw [heq]
            exact hhead
          · exact hnodup win' hwin'
        · intro q v
          rw [windowsHold_cons, windowsHold_cons, hholds]
          constructor
          · rintro (⟨hv, hq⟩ | ⟨hq, hnot⟩)
            · exact ⟨Or.inl ⟨hv, hq⟩, fun hboth => hid (hv.trans hboth.2)⟩
            · exact ⟨Or.inr hq, hnot⟩
          · rintro ⟨hv | hq, hnot⟩
            · exact Or.inl hv
            · exact Or.inr ⟨hq, hnot⟩

/-- INTERNAL: one fresh pane is added to a window of the session. -/
theorem layoutInv_add {sessions : Sessions} (h : LayoutInv sessions) {sid p w : Uuid}
    {st : SessionState} (hids : (st.windows.map SessionWindow.id).Nodup)
    (htrees : ∀ win ∈ st.windows, win.layout.leaves.Nodup)
    (hnew : ∀ w ∈ st.windows.map SessionWindow.id, ∀ sid', WindowIn sessions w sid' → sid' = sid)
    (hholds : ∀ q v, Holds (sessions.insert sid st) q v ↔ Holds sessions q v ∨ q = p ∧ v = w)
    (hp : ∀ v, ¬ Holds sessions p v) : LayoutInv (sessions.insert sid st) := by
  apply h.insert hids htrees hnew
  intro q v v' hv hv'
  rw [hholds] at hv hv'
  rcases hv with hv | ⟨hq, hv⟩
  · rcases hv' with hv' | ⟨hq, -⟩
    · exact h.single q v v' hv hv'
    · exact absurd (hq ▸ hv) (hp v)
  · rcases hv' with hv' | ⟨-, hv'⟩
    · exact absurd (hq ▸ hv') (hp v')
    · rw [hv, hv']

/-- SRC: engine.rs:503-504 -/
theorem layout_createSession {sessions : Sessions} (h : LayoutInv sessions) {sid p w : Uuid}
    (hsid : sessions.lookup sid = none) (hw : ∀ sid', ¬ WindowIn sessions w sid')
    (hp : ∀ v, ¬ Holds sessions p v) (active : Uuid) :
    LayoutInv (sessions.insert sid ⟨[newWindow w p], active⟩) ∧
      ∀ q v, Holds (sessions.insert sid ⟨[newWindow w p], active⟩) q v ↔
        Holds sessions q v ∨ q = p ∧ v = w := by
  have hholds : ∀ q v, Holds (sessions.insert sid ⟨[newWindow w p], active⟩) q v ↔
      Holds sessions q v ∨ q = p ∧ v = w := by
    intro q v
    rw [holds_insert, windowsHold_newWindow, holdsElsewhere_of_fresh hsid, or_comm]
  refine ⟨layoutInv_add h (by simp) ?_ ?_ hholds hp, hholds⟩
  · intro win hwin
    rw [List.mem_singleton.mp hwin]
    simp [newWindow, LayoutNode.leaves]
  · intro v hv sid' hin
    have hv' : v = w := by simpa [newWindow] using hv
    exact absurd (hv' ▸ hin) (hw sid')

/-- SRC: engine.rs:689-714 -/
theorem layout_splitPane {sessions : Sessions} (h : LayoutInv sessions) {sid target p w : Uuid}
    {o : Orientation} {st : SessionState} {windows : List SessionWindow}
    (hst : sessions.lookup sid = some st)
    (hsplit : splitWindow target o p w st.windows = some (some windows))
    (hp : ∀ v, ¬ Holds sessions p v) (active : Uuid) :
    LayoutInv (sessions.insert sid ⟨windows, active⟩) ∧
      ∀ q v, Holds (sessions.insert sid ⟨windows, active⟩) q v ↔
        Holds sessions q v ∨ q = p ∧ v = w := by
  obtain ⟨hids, htrees, hwin⟩ := splitWindow_spec st.windows hsplit (h.trees sid st hst)
    fun v hv => hp v ⟨sid, st, hst, hv⟩
  have hholds : ∀ q v, Holds (sessions.insert sid ⟨windows, active⟩) q v ↔
      Holds sessions q v ∨ q = p ∧ v = w := by
    intro q v
    rw [holds_insert, holds_iff_of_lookup hst, hwin, or_right_comm]
  refine ⟨layoutInv_add h (hids ▸ h.ids sid st hst) htrees ?_ hholds hp, hholds⟩
  intro v hv sid' hin
  have hv' : v ∈ st.windows.map SessionWindow.id := by
    rw [← hids]
    exact hv
  exact h.sessionOf v sid' sid hin ⟨st, hst, hv'⟩

/-- SRC: engine.rs:864-871 -/
theorem layout_createWindow {sessions : Sessions} (h : LayoutInv sessions) {sid p w : Uuid}
    {st : SessionState} (hst : sessions.lookup sid = some st)
    (hw : ∀ sid', ¬ WindowIn sessions w sid') (hp : ∀ v, ¬ Holds sessions p v) (active : Uuid) :
    LayoutInv (sessions.insert sid ⟨st.windows ++ [newWindow w p], active⟩) ∧
      ∀ q v, Holds (sessions.insert sid ⟨st.windows ++ [newWindow w p], active⟩) q v ↔
        Holds sessions q v ∨ q = p ∧ v = w := by
  have hholds : ∀ q v, Holds (sessions.insert sid ⟨st.windows ++ [newWindow w p], active⟩) q v ↔
      Holds sessions q v ∨ q = p ∧ v = w := by
    intro q v
    rw [holds_insert, holds_iff_of_lookup hst, windowsHold_append, windowsHold_newWindow,
      or_right_comm]
  have hfresh : w ∉ st.windows.map SessionWindow.id := fun hmem => hw sid ⟨st, hst, hmem⟩
  refine ⟨layoutInv_add h ?_ ?_ ?_ hholds hp, hholds⟩
  · have hold := h.ids sid st hst
    rw [List.map_append, List.nodup_append]
    refine ⟨hold, by simp, ?_⟩
    intro a ha b hb hab
    have hb' : b = w := by simpa [newWindow] using hb
    exact hfresh (hb' ▸ hab ▸ ha)
  · intro win hwin
    rcases List.mem_append.mp hwin with hwin | hwin
    · exact h.trees sid st hst win hwin
    · rw [List.mem_singleton.mp hwin]
      simp [newWindow, LayoutNode.leaves]
  · intro v hv sid' hin
    have hv' : v ∈ st.windows.map SessionWindow.id ∨ v = w := by simpa [newWindow] using hv
    rcases hv' with hv' | hv'
    · exact h.sessionOf v sid' sid hin ⟨st, hst, hv'⟩
    · exact absurd (hv' ▸ hin) (hw sid')

/-- INTERNAL: a close takes the pane out of the layouts, if it was in the window named.
SRC: engine.rs:747-803 -/
theorem layout_closePane {sessions : Sessions} (h : LayoutInv sessions) {sid p w : Uuid}
    {st : SessionState} {r : List SessionWindow × Option Uuid} (hst : sessions.lookup sid = some st)
    (hclose : closeWindow p w st.windows = some r) (hat : ∀ v, Holds sessions p v → v = w)
    (active : Uuid) :
    LayoutInv (sessions.insert sid ⟨r.1, active⟩) ∧
      ∀ q v, Holds (sessions.insert sid ⟨r.1, active⟩) q v ↔ Holds sessions q v ∧ q ≠ p := by
  obtain ⟨hsub, htrees, hwin⟩ := closeWindow_spec st.windows hclose (h.ids sid st hst)
    (h.trees sid st hst)
  have hin : w ∈ st.windows.map SessionWindow.id := by
    by_contra hno
    have hnone : ∀ ws : List SessionWindow, w ∉ ws.map SessionWindow.id →
        closeWindow p w ws = none := by
      intro ws hws
      induction ws with
      | nil => rfl
      | cons win ws ih =>
          rw [List.map_cons, List.mem_cons, not_or] at hws
          unfold closeWindow
          rw [if_neg (fun heq => hws.1 heq.symm), ih hws.2]
          rfl
    rw [hnone st.windows hno] at hclose
    cases hclose
  have hholds : ∀ q v, Holds (sessions.insert sid ⟨r.1, active⟩) q v ↔
      Holds sessions q v ∧ q ≠ p := by
    intro q v
    rw [holds_insert, holds_iff_of_lookup hst, hwin]
    constructor
    · rintro (⟨hq, hnot⟩ | hq)
      · refine ⟨Or.inl hq, ?_⟩
        intro heq
        rw [heq] at hq
        exact hnot ⟨heq, hat v ⟨sid, st, hst, hq⟩⟩
      · refine ⟨Or.inr hq, ?_⟩
        -- the window named is in this session, so no other session has the pane
        rintro rfl
        obtain ⟨sid', st', hne, hst', hq⟩ := hq
        have hv := hat v ⟨sid', st', hst', hq⟩
        rw [hv] at hq
        exact hne (h.sessionOf w sid' sid ⟨st', hst', hq.mem_ids⟩ ⟨st, hst, hin⟩)
    · rintro ⟨hq | hq, hne⟩
      · exact Or.inl ⟨hq, fun hboth => hne hboth.1⟩
      · exact Or.inr hq
  refine ⟨?_, hholds⟩
  apply h.insert (hsub.nodup (h.ids sid st hst)) htrees
  · intro v hv sid' hin'
    exact h.sessionOf v sid' sid hin' ⟨st, hst, hsub.subset hv⟩
  · intro q v v' hv hv'
    rw [hholds] at hv hv'
    exact h.single q v v' hv.1 hv'.1

/-- INTERNAL: a killed session takes its own panes along. -/
theorem layout_killSession {sessions : Sessions} (h : LayoutInv sessions) {sid : Uuid}
    {st : SessionState} (hst : sessions.lookup sid = some st) (q v : Uuid) :
    Holds (sessions.erase sid) q v ↔ Holds sessions q v ∧ q ∉ st.leaves := by
  rw [holds_erase, holds_iff_of_lookup hst]
  constructor
  · intro hq
    refine ⟨Or.inr hq, ?_⟩
    intro hmem
    obtain ⟨v', hv'⟩ := mem_session_leaves.mp hmem
    obtain ⟨sid', st', hne, hst', hq⟩ := hq
    have hvv := h.single q v v' ⟨sid', st', hst', hq⟩ ⟨sid, st, hst, hv'⟩
    rw [hvv] at hq
    exact hne (h.sessionOf v' sid' sid ⟨st', hst', hq.mem_ids⟩ ⟨st, hst, hv'.mem_ids⟩)
  · rintro ⟨hq | hq, hno⟩
    · exact absurd (mem_session_leaves.mpr ⟨v, hq⟩) hno
    · exact hq

end Tymux.Analysis
