import Tymux.Model.Watching
import Tymux.Lib.Keyed
import Tymux.Analysis.EngineLayout
import Tymux.Analysis.LayoutTiling

/-!
# The tree of a window among all others

`treeOf` is the layout tree of a window, wherever its session is. A split, a close or a kill changes
or takes away the trees of the windows it names and leaves every other one alone, and storing the
size of a window leaves all of them alone. The windows of a session that the operations have built
(`BuiltWindow`) never make one of them panic.
-/

set_option autoImplicit false

namespace Tymux.Analysis

open Tymux.Model EngineState

/-! ## In a session -/

/-- The tree of a window among the windows of a session. -/
def treeIn (ws : List SessionWindow) (v : Uuid) : Option LayoutNode :=
  (ws.find? fun w => w.id = v).map fun w => w.layout

theorem treeIn_cons (win : SessionWindow) (ws : List SessionWindow) (v : Uuid) :
    treeIn (win :: ws) v = if win.id = v then some win.layout else treeIn ws v := by
  unfold treeIn
  by_cases hid : win.id = v
  · simp [hid]
  · simp [hid]

theorem treeIn_eq_none_iff {ws : List SessionWindow} {v : Uuid} :
    treeIn ws v = none ↔ v ∉ ws.map SessionWindow.id := by
  unfold treeIn
  simp

/-- A window as the operations build them. -/
structure BuiltWindow (w : SessionWindow) : Prop where
  halved : Halved w.layout
  nodup : w.layout.leaves.Nodup
  rows : w.rows ≤ u16Max
  cols : w.cols ≤ u16Max

/-- INTERNAL: a split touches the window it names.
SRC: engine.rs:689-714 -/
theorem treeIn_split {target p w v : Uuid} {o : Orientation} {ws ws' : List SessionWindow}
    (h : splitWindow target o p w ws = some (some ws')) (hne : v ≠ w) :
    treeIn ws' v = treeIn ws v := by
  induction ws generalizing ws' with
  | nil => cases h
  | cons win ws ih =>
      unfold splitWindow at h
      by_cases hid : win.id = w
      · rw [if_pos hid] at h
        obtain ⟨r, hr, h⟩ := Option.bind_eq_some_iff.mp h
        cases r with
        | error e => cases h
        | ok layout =>
            cases h
            have hother : win.id ≠ v := fun heq => hne (heq.symm.trans hid)
            rw [treeIn_cons, treeIn_cons, if_neg hother, if_neg hother]
      · rw [if_neg hid] at h
        obtain ⟨r, hr, h⟩ := Option.bind_eq_some_iff.mp h
        cases r with
        | none => cases h
        | some rest =>
            cases h
            rw [treeIn_cons, treeIn_cons, ih hr]

/-- INTERNAL: a split of windows that the operations have built does not panic.
SRC: engine.rs:689-714 -/
theorem splitWindow_built {target p w : Uuid} {o : Orientation} {ws : List SessionWindow}
    (hbuilt : ∀ win ∈ ws, BuiltWindow win) :
    ∃ r, splitWindow target o p w ws = some r := by
  induction ws with
  | nil => exact ⟨_, rfl⟩
  | cons win ws ih =>
      have hwin := hbuilt win List.mem_cons_self
      obtain ⟨r, hr⟩ := ih fun win' hwin' => hbuilt win' (List.mem_cons_of_mem _ hwin')
      unfold splitWindow
      by_cases hid : win.id = w
      · rw [if_pos hid]
        obtain ⟨e, he⟩ | ⟨-, he⟩ := split?_cases win.layout hwin.halved hwin.nodup target p o
          win.rows win.cols hwin.rows hwin.cols
        · rw [he]
          exact ⟨_, rfl⟩
        · rw [he]
          exact ⟨_, rfl⟩
      · rw [if_neg hid, hr]
        exact ⟨_, rfl⟩

theorem built_split {target p w : Uuid} {o : Orientation} {ws ws' : List SessionWindow}
    (h : splitWindow target o p w ws = some (some ws')) (hbuilt : ∀ win ∈ ws, BuiltWindow win)
    (hp : ∀ v, ¬ WindowsHold ws p v) : ∀ win ∈ ws', BuiltWindow win := by
  have hnodup := (splitWindow_spec ws h (fun win hwin => (hbuilt win hwin).nodup) hp).2.1
  have hrest : ∀ win ∈ ws', Halved win.layout ∧ win.rows ≤ u16Max ∧ win.cols ≤ u16Max := by
    clear hnodup hp
    induction ws generalizing ws' with
    | nil => cases h
    | cons win ws ih =>
        have hwin := hbuilt win List.mem_cons_self
        have htail : ∀ win' ∈ ws, BuiltWindow win' := fun win' hwin' =>
          hbuilt win' (List.mem_cons_of_mem _ hwin')
        unfold splitWindow at h
        by_cases hid : win.id = w
        · rw [if_pos hid] at h
          obtain ⟨r, hr, h⟩ := Option.bind_eq_some_iff.mp h
          cases r with
          | error e => cases h
          | ok layout =>
              cases h
              intro win' hwin'
              obtain rfl | hwin' := List.mem_cons.mp hwin'
              · exact ⟨halved_split? hwin.halved hr, hwin.rows, hwin.cols⟩
              · have htail' := htail win' hwin'
                exact ⟨htail'.halved, htail'.rows, htail'.cols⟩
        · rw [if_neg hid] at h
          obtain ⟨r, hr, h⟩ := Option.bind_eq_some_iff.mp h
          cases r with
          | none => cases h
          | some rest =>
              cases h
              intro win' hwin'
              obtain rfl | hwin' := List.mem_cons.mp hwin'
              · exact ⟨hwin.halved, hwin.rows, hwin.cols⟩
              · exact ih hr htail win' hwin'
  intro win hwin
  obtain ⟨hhalved, hrows, hcols⟩ := hrest win hwin
  exact ⟨hhalved, hnodup win hwin, hrows, hcols⟩

/-- INTERNAL: a close touches the window it names, which is gone if it is reported closed.
SRC: engine.rs:747-774 -/
theorem treeIn_close {p w : Uuid} {ws ws' : List SessionWindow} {closed : Option Uuid}
    (h : closeWindow p w ws = some (ws', closed)) (hids : (ws.map SessionWindow.id).Nodup) :
    (∀ v, v ≠ w → treeIn ws' v = treeIn ws v) ∧ (closed.isSome ↔ treeIn ws' w = none) ∧
      (treeIn ws w).isSome := by
  induction ws generalizing ws' closed with
  | nil => cases h
  | cons win ws ih =>
      rw [List.map_cons, List.nodup_cons] at hids
      unfold closeWindow at h
      by_cases hid : win.id = w
      · rw [if_pos hid] at h
        have hother : ∀ v, v ≠ w → win.id ≠ v := fun v hne heq => hne (heq.symm.trans hid)
        have hself : (treeIn (win :: ws) w).isSome := by
          rw [treeIn_cons, if_pos hid]
          rfl
        split at h
        · rename_i layout hremove
          cases h
          refine ⟨fun v hne => ?_, ?_, hself⟩
          · rw [treeIn_cons, treeIn_cons, if_neg (hother v hne), if_neg (hother v hne)]
          · rw [treeIn_cons, if_pos hid]
            simp
        · rename_i hremove
          cases h
          refine ⟨fun v hne => ?_, ?_, hself⟩
          · rw [treeIn_cons, if_neg (hother v hne)]
          · rw [treeIn_eq_none_iff]
            simpa [hid] using hids.1
      · rw [if_neg hid] at h
        obtain ⟨⟨rest, closed'⟩, hrest, h⟩ := Option.map_eq_some_iff.mp h
        cases h
        obtain ⟨hothers, hclosed, hself⟩ := ih hrest hids.2
        refine ⟨fun v hne => ?_, ?_, ?_⟩
        · rw [treeIn_cons, treeIn_cons, hothers v hne]
        · rw [treeIn_cons, if_neg hid]
          exact hclosed
        · rw [treeIn_cons, if_neg hid]
          exact hself

/-- INTERNAL: a window is reported closed when its last pane was closed.
SRC: engine.rs:747-774 -/
theorem treeIn_closed {p w closed : Uuid} {ws ws' : List SessionWindow}
    (h : closeWindow p w ws = some (ws', some closed)) (hbuilt : ∀ win ∈ ws, BuiltWindow win) :
    treeIn ws w = some (.leaf p) := by
  induction ws generalizing ws' with
  | nil => cases h
  | cons win ws ih =>
      unfold closeWindow at h
      by_cases hid : win.id = w
      · rw [if_pos hid] at h
        obtain ⟨hleaf, -⟩ | ⟨layout, hremove, -⟩ :=
          remove_cases win.layout (hbuilt win List.mem_cons_self).nodup p
        · rw [treeIn_cons, if_pos hid, hleaf]
        · rw [hremove] at h
          cases h
      · rw [if_neg hid] at h
        obtain ⟨⟨rest, closed'⟩, hrest, h⟩ := Option.map_eq_some_iff.mp h
        cases h
        rw [treeIn_cons, if_neg hid]
        exact ih hrest fun win' hwin' => hbuilt win' (List.mem_cons_of_mem _ hwin')

theorem built_close {p w : Uuid} {ws ws' : List SessionWindow} {closed : Option Uuid}
    (h : closeWindow p w ws = some (ws', closed)) (hbuilt : ∀ win ∈ ws, BuiltWindow win) :
    ∀ win ∈ ws', BuiltWindow win := by
  induction ws generalizing ws' closed with
  | nil => cases h
  | cons win ws ih =>
      have hwin := hbuilt win List.mem_cons_self
      have htail : ∀ win' ∈ ws, BuiltWindow win' := fun win' hwin' =>
        hbuilt win' (List.mem_cons_of_mem _ hwin')
      unfold closeWindow at h
      by_cases hid : win.id = w
      · rw [if_pos hid] at h
        obtain ⟨-, hremove⟩ | ⟨layout, hremove, hhalved, hleaves⟩ :=
          remove_cases win.layout hwin.nodup p
        · rw [hremove] at h
          cases h
          exact htail
        · rw [hremove] at h
          cases h
          intro win' hwin'
          obtain rfl | hwin' := List.mem_cons.mp hwin'
          · exact ⟨hhalved hwin.halved, hleaves ▸ hwin.nodup.erase p, hwin.rows, hwin.cols⟩
          · exact htail win' hwin'
      · rw [if_neg hid] at h
        obtain ⟨⟨rest, closed'⟩, hrest, h⟩ := Option.map_eq_some_iff.mp h
        cases h
        intro win' hwin'
        obtain rfl | hwin' := List.mem_cons.mp hwin'
        · exact hwin
        · exact ih hrest htail win' hwin'

/-- INTERNAL: the size of a window is not part of its tree.
SRC: engine.rs:1307-1313 -/
theorem treeIn_size (window rows cols : ℕ) (ws : List SessionWindow) (v : Uuid) :
    treeIn (Watching.sizeWindow window rows cols ws) v = treeIn ws v := by
  unfold Watching.sizeWindow
  induction ws with
  | nil => rfl
  | cons win ws ih =>
      rw [List.map_cons, treeIn_cons, treeIn_cons, ih]
      by_cases hid : win.id = window
      · rw [if_pos hid]
      · rw [if_neg hid]

theorem ids_size (window rows cols : ℕ) (ws : List SessionWindow) :
    (Watching.sizeWindow window rows cols ws).map SessionWindow.id = ws.map SessionWindow.id := by
  unfold Watching.sizeWindow
  rw [List.map_map]
  apply List.map_congr_left
  intro win _
  by_cases hid : win.id = window
  · simp [hid]
  · simp [hid]

theorem mem_size {window rows cols : ℕ} {ws : List SessionWindow} {win : SessionWindow}
    (h : win ∈ Watching.sizeWindow window rows cols ws) :
    ∃ win' ∈ ws, win.id = win'.id ∧ win.layout = win'.layout ∧
      (win.rows = win'.rows ∧ win.cols = win'.cols ∨ win.rows = rows ∧ win.cols = cols) := by
  obtain ⟨win', hwin', rfl⟩ := List.mem_map.mp h
  refine ⟨win', hwin', ?_⟩
  split
  · exact ⟨rfl, rfl, Or.inr ⟨rfl, rfl⟩⟩
  · exact ⟨rfl, rfl, Or.inl ⟨rfl, rfl⟩⟩

theorem windowsHold_size (window rows cols : ℕ) (ws : List SessionWindow) (p v : Uuid) :
    WindowsHold (Watching.sizeWindow window rows cols ws) p v ↔ WindowsHold ws p v := by
  constructor
  · rintro ⟨win, hwin, hid, hp⟩
    obtain ⟨win', hwin', hid', hlayout, -⟩ := mem_size hwin
    exact ⟨win', hwin', hid'.symm.trans hid, hlayout ▸ hp⟩
  · rintro ⟨win, hwin, hid, hp⟩
    refine ⟨_, List.mem_map_of_mem hwin, ?_, ?_⟩
    · split
      · exact hid
      · exact hid
    · split
      · exact hp
      · exact hp

/-! ## In the engine -/

/-- The tree of a window, wherever its session is. -/
def treeOf (sessions : Sessions) (v : Uuid) : Option LayoutNode :=
  ((sessions.entries.flatMap fun e => e.2.windows).find? fun w => w.id = v).map fun w => w.layout

theorem exists_of_treeOf {sessions : Sessions} {v : Uuid} {t : LayoutNode}
    (h : treeOf sessions v = some t) :
    ∃ sid st win, sessions.lookup sid = some st ∧ win ∈ st.windows ∧ win.id = v ∧ win.layout = t := by
  obtain ⟨win, hfind, rfl⟩ := Option.map_eq_some_iff.mp h
  obtain ⟨⟨sid, st⟩, hmem, hwin⟩ := List.mem_flatMap.mp (List.mem_of_find?_eq_some hfind)
  exact ⟨sid, st, win, AList.mem_lookup_iff.mpr hmem, hwin, by simpa using List.find?_some hfind, rfl⟩

theorem treeOf_isSome_iff {sessions : Sessions} {v : Uuid} :
    (treeOf sessions v).isSome ↔ ∃ sid, WindowIn sessions v sid := by
  constructor
  · intro h
    obtain ⟨t, ht⟩ := Option.isSome_iff_exists.mp h
    obtain ⟨sid, st, win, hst, hwin, rfl, -⟩ := exists_of_treeOf ht
    exact ⟨sid, st, hst, List.mem_map_of_mem hwin⟩
  · rintro ⟨sid, st, hst, hmem⟩
    obtain ⟨win, hwin, hid⟩ := List.mem_map.mp hmem
    unfold treeOf
    rw [Option.isSome_map, List.find?_isSome]
    exact ⟨win, List.mem_flatMap.mpr ⟨⟨sid, st⟩, AList.mem_lookup_iff.mp hst, hwin⟩, by simpa using hid⟩

theorem treeOf_eq_none_iff {sessions : Sessions} {v : Uuid} :
    treeOf sessions v = none ↔ ∀ sid, ¬ WindowIn sessions v sid := by
  rw [← Option.not_isSome_iff_eq_none, treeOf_isSome_iff, not_exists]

/-- As no other window has its id, the tree is the one of its session. -/
theorem treeOf_eq_treeIn {sessions : Sessions} (h : LayoutInv sessions) {v sid : Uuid}
    {st : SessionState} (hst : sessions.lookup sid = some st)
    (hv : v ∈ st.windows.map SessionWindow.id) : treeOf sessions v = treeIn st.windows v := by
  obtain ⟨t, ht⟩ := Option.isSome_iff_exists.mp (treeOf_isSome_iff.mpr ⟨sid, st, hst, hv⟩)
  obtain ⟨sid', st', win, hst', hwin, rfl, rfl⟩ := exists_of_treeOf ht
  obtain rfl := h.sessionOf win.id sid sid' ⟨st, hst, hv⟩ ⟨st', hst', List.mem_map_of_mem hwin⟩
  rw [hst, Option.some_inj] at hst'
  subst hst'
  obtain ⟨win', hfind⟩ : ∃ win', st.windows.find? (fun w => w.id = win.id) = some win' := by
    apply Option.isSome_iff_exists.mp
    rw [List.find?_isSome]
    exact ⟨win, hwin, by simp⟩
  have hsame : win' = win := by
    apply List.inj_on_of_nodup_map (h.ids sid st hst) (List.mem_of_find?_eq_some hfind) hwin
    simpa using List.find?_some hfind
  rw [ht]
  unfold treeIn
  rw [hfind, hsame]
  rfl

/-- INTERNAL: a session is replaced, and the tree of the window is the same in both. -/
theorem treeOf_insert {sessions : Sessions} (h : LayoutInv sessions) {sid : Uuid}
    {st st' : SessionState} (h' : LayoutInv (sessions.insert sid st'))
    (hst : sessions.lookup sid = some st) {v : Uuid}
    (hsame : treeIn st'.windows v = treeIn st.windows v) :
    treeOf (sessions.insert sid st') v = treeOf sessions v := by
  by_cases hv : v ∈ st.windows.map SessionWindow.id
  · have hv' : v ∈ st'.windows.map SessionWindow.id := by
      by_contra hno
      rw [treeIn_eq_none_iff.mpr hno, eq_comm, treeIn_eq_none_iff] at hsame
      exact hsame hv
    rw [treeOf_eq_treeIn h' (AList.lookup_insert _) hv', treeOf_eq_treeIn h hst hv, hsame]
  · have hv' : v ∉ st'.windows.map SessionWindow.id := by
      rw [← treeIn_eq_none_iff, hsame, treeIn_eq_none_iff]
      exact hv
    -- the window is in another session, or in none
    by_cases hin : ∃ sid', WindowIn sessions v sid'
    · obtain ⟨sid', st'', hst'', hmem⟩ := hin
      have hne : sid' ≠ sid := by
        rintro rfl
        rw [hst, Option.some_inj] at hst''
        exact hv (hst'' ▸ hmem)
      rw [treeOf_eq_treeIn h hst'' hmem]
      exact treeOf_eq_treeIn h' (by rw [AList.lookup_insert_ne hne, hst'']) hmem
    · rw [treeOf_eq_none_iff.mpr fun sid' hsid' => hin ⟨sid', hsid'⟩, treeOf_eq_none_iff]
      rintro sid' ⟨st'', hst'', hmem⟩
      by_cases heq : sid' = sid
      · subst heq
        rw [AList.lookup_insert, Option.some_inj] at hst''
        exact hv' (hst'' ▸ hmem)
      · rw [AList.lookup_insert_ne heq] at hst''
        exact hin ⟨sid', st'', hst'', hmem⟩

/-- INTERNAL: a session without the window is removed. -/
theorem treeOf_erase {sessions : Sessions} (h : LayoutInv sessions) {sid : Uuid}
    {st : SessionState} (hst : sessions.lookup sid = some st) {v : Uuid}
    (hv : v ∉ st.windows.map SessionWindow.id) :
    treeOf (sessions.erase sid) v = treeOf sessions v := by
  by_cases hin : ∃ sid', WindowIn sessions v sid'
  · obtain ⟨sid', st', hst', hmem⟩ := hin
    have hne : sid' ≠ sid := by
      rintro rfl
      rw [hst, Option.some_inj] at hst'
      exact hv (hst' ▸ hmem)
    rw [treeOf_eq_treeIn h hst' hmem]
    exact treeOf_eq_treeIn (h.erase sid) (by rw [AList.lookup_erase_ne hne, hst']) hmem
  · rw [treeOf_eq_none_iff.mpr fun sid' hsid' => hin ⟨sid', hsid'⟩, treeOf_eq_none_iff]
    intro sid' hsid'
    exact hin ⟨sid', (windowIn_erase hsid').2⟩

/-- INTERNAL: the sizes of windows are no part of where the panes are.
SRC: engine.rs:1307-1313 -/
theorem layout_sizeWindow {sessions : Sessions} (h : LayoutInv sessions) {sid : Uuid}
    {st : SessionState} (hst : sessions.lookup sid = some st) (window rows cols : ℕ) :
    LayoutInv (sessions.insert sid
        { st with windows := Watching.sizeWindow window rows cols st.windows }) ∧
      ∀ q v, Holds (sessions.insert sid
        { st with windows := Watching.sizeWindow window rows cols st.windows }) q v ↔
          Holds sessions q v := by
  have hholds : ∀ q v, Holds (sessions.insert sid
      { st with windows := Watching.sizeWindow window rows cols st.windows }) q v ↔
        Holds sessions q v := by
    intro q v
    rw [holds_insert, holds_iff_of_lookup hst, windowsHold_size]
  refine ⟨?_, hholds⟩
  apply h.insert
  · rw [ids_size]
    exact h.ids sid st hst
  · intro win hwin
    obtain ⟨win', hwin', -, hlayout, -⟩ := mem_size hwin
    rw [hlayout]
    exact h.trees sid st hst win' hwin'
  · intro v hv sid' hin
    rw [ids_size] at hv
    exact h.sessionOf v sid' sid hin ⟨st, hst, hv⟩
  · intro p v v' hv hv'
    rw [hholds] at hv hv'
    exact h.single p v v' hv hv'

end Tymux.Analysis
