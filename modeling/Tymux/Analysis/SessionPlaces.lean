import Tymux.Model.EngineCalls
import Tymux.Analysis.LayoutTiling
import Tymux.Lib.Keyed

/-!
# Where the panes of a session are

The windows of a session as a list of pairs, a pane and its window, up to order. A split adds one
pair, a close takes one out, and every other change keeps them all.
-/

set_option autoImplicit false

namespace Tymux.Analysis

open Tymux.Model Tymux.Lib LayoutNode

/-- The panes of the windows, each with its window. -/
def places (ws : List NamedWindow) : List (Uuid × Uuid) :=
  ws.flatMap fun w => w.layout.leaves.map (·, w.id)

/-- A window whose layout the operations can have built, with a size that fits its type. -/
structure SoundWindow (w : NamedWindow) : Prop where
  halved : Halved w.layout
  rows : w.rows ≤ u16Max
  cols : w.cols ≤ u16Max

theorem places_cons (w : NamedWindow) (ws : List NamedWindow) :
    places (w :: ws) = w.layout.leaves.map (·, w.id) ++ places ws := rfl

theorem places_append (ws ws' : List NamedWindow) :
    places (ws ++ ws') = places ws ++ places ws' := List.flatMap_append

theorem mem_places {ws : List NamedWindow} {p v : Uuid} :
    (p, v) ∈ places ws ↔ ∃ w ∈ ws, w.id = v ∧ p ∈ w.layout.leaves := by
  unfold places
  simp only [List.mem_flatMap, List.mem_map, Prod.mk.injEq]
  constructor
  · rintro ⟨w, hw, q, hq, rfl, hid⟩
    exact ⟨w, hw, hid, hq⟩
  · rintro ⟨w, hw, hid, hp⟩
    exact ⟨w, hw, p, hp, rfl, hid⟩

theorem mem_ids_of_mem_places {ws : List NamedWindow} {p v : Uuid} (h : (p, v) ∈ places ws) :
    v ∈ ws.map NamedWindow.id := by
  obtain ⟨w, hw, hid, -⟩ := mem_places.mp h
  exact List.mem_map.mpr ⟨w, hw, hid⟩

theorem map_fst_places (ws : List NamedWindow) :
    (places ws).map Prod.fst = ws.flatMap fun w => w.layout.leaves := by
  unfold places
  rw [List.map_flatMap]
  apply List.flatMap_congr
  intro w _
  rw [List.map_map]
  exact List.map_id _

theorem leaves_nodup_of_places {ws : List NamedWindow} (h : ((places ws).map Prod.fst).Nodup)
    {w : NamedWindow} (hw : w ∈ ws) : w.layout.leaves.Nodup := by
  rw [map_fst_places, List.nodup_flatMap] at h
  exact h.1 w hw

/-! ## A split -/

theorem leaves_graft_halves_perm (target newPane : Uuid) (o : Orientation) {t : LayoutNode}
    (hd : t.leaves.Nodup) (hmem : target ∈ t.leaves) :
    (graft target (halves o newPane) t).leaves.Perm (newPane :: t.leaves) := by
  induction t with
  | leaf id =>
      obtain rfl : target = id := by simpa [leaves] using hmem
      simp [graft, halves, leaves, List.Perm.swap]
  | split o' first r₁ second r₂ ih₁ ih₂ =>
      simp only [leaves, List.nodup_append] at hd
      obtain ⟨hd₁, hd₂, hdis⟩ := hd
      simp only [graft, leaves]
      by_cases hfirst : target ∈ first.leaves
      · have hsecond : target ∉ second.leaves := fun h => hdis target hfirst target h rfl
        rw [graft_of_notMem target _ second hsecond]
        exact (ih₁ hd₁ hfirst).append_right _
      · have hsecond : target ∈ second.leaves := by
          rcases List.mem_append.mp hmem with h | h
          · exact absurd h hfirst
          · exact h
        rw [graft_of_notMem target _ first hfirst]
        exact ((ih₂ hd₂ hsecond).append_left _).trans List.perm_middle

theorem splitWindow_total (target pane window : Uuid) (o : Orientation) {ws : List NamedWindow}
    (hd : ∀ w ∈ ws, w.layout.leaves.Nodup) (hsound : ∀ w ∈ ws, SoundWindow w) :
    ∃ r, Engine.splitWindow target o pane window ws = some r := by
  induction ws with
  | nil => exact ⟨_, rfl⟩
  | cons w ws ih =>
      have hw := hsound w List.mem_cons_self
      obtain ⟨r, hr⟩ := ih (fun v hv => hd v (List.mem_cons_of_mem _ hv))
        (fun v hv => hsound v (List.mem_cons_of_mem _ hv))
      unfold Engine.splitWindow
      by_cases hid : w.id = window
      · rw [if_pos hid]
        obtain ⟨e, he⟩ | ⟨-, he⟩ := split?_cases w.layout hw.halved (hd w List.mem_cons_self) target
          pane o w.rows w.cols hw.rows hw.cols
        · rw [he]
          exact ⟨_, rfl⟩
        · rw [he]
          exact ⟨_, rfl⟩
      · rw [if_neg hid, hr]
        cases r with
        | error e => exact ⟨_, rfl⟩
        | ok rest => exact ⟨_, rfl⟩

/-- INTERNAL: a split puts the new pane beside its target, into the window it names.
SRC: engine.rs:689-714 -/
theorem splitWindow_ok {target pane window : Uuid} {o : Orientation} {ws ws' : List NamedWindow}
    (hd : ∀ w ∈ ws, w.layout.leaves.Nodup)
    (h : Engine.splitWindow target o pane window ws = some (.ok ws')) :
    ws'.map NamedWindow.id = ws.map NamedWindow.id ∧
      (places ws').Perm ((pane, window) :: places ws) ∧
      ((∀ w ∈ ws, SoundWindow w) → ∀ w ∈ ws', SoundWindow w) := by
  induction ws generalizing ws' with
  | nil => cases h
  | cons w ws ih =>
      unfold Engine.splitWindow at h
      by_cases hid : w.id = window
      · rw [if_pos hid] at h
        obtain ⟨r, hr, h⟩ := Option.bind_eq_some_iff.mp h
        cases r with
        | error e => cases h
        | ok layout =>
            cases h
            obtain ⟨hmem, rfl⟩ := split?_ok (hd w List.mem_cons_self) hr
            refine ⟨rfl, ?_, ?_⟩
            · have hleaves := leaves_graft_halves_perm target pane o (hd w List.mem_cons_self) hmem
              have hplaced := (hleaves.map (·, w.id)).append_right (places ws)
              rw [List.map_cons, hid] at hplaced
              rw [places_cons, places_cons, hid]
              exact hplaced
            · intro hsound v hv
              rcases List.mem_cons.mp hv with rfl | hv
              · have hw := hsound w List.mem_cons_self
                exact ⟨halved_graft_halves target pane o w.layout hw.halved, hw.rows, hw.cols⟩
              · exact hsound v (List.mem_cons_of_mem _ hv)
      · rw [if_neg hid] at h
        obtain ⟨r, hr, h⟩ := Option.bind_eq_some_iff.mp h
        cases r with
        | error e => cases h
        | ok rest =>
            cases h
            obtain ⟨hids, hplaces, hsound⟩ := ih (fun v hv => hd v (List.mem_cons_of_mem _ hv)) hr
            refine ⟨by rw [List.map_cons, List.map_cons, hids], ?_, ?_⟩
            · rw [places_cons, places_cons]
              exact (hplaces.append_left _).trans List.perm_middle
            · intro hall v hv
              rcases List.mem_cons.mp hv with rfl | hv
              · exact hall v List.mem_cons_self
              · exact hsound (fun u hu => hall u (List.mem_cons_of_mem _ hu)) v hv

/-! ## A close -/

/-- What a close of the pane does to the windows. -/
structure Closes (pane window : Uuid) (ws ws' : List NamedWindow) (closed : Option Uuid) : Prop where
  places : (places ws).Perm ((pane, window) :: places ws')
  ids : closed = none ∧ ws'.map NamedWindow.id = ws.map NamedWindow.id ∨
    closed = some window ∧ (ws.map NamedWindow.id).Perm (window :: ws'.map NamedWindow.id)
  sound : (∀ w ∈ ws, SoundWindow w) → ∀ w ∈ ws', SoundWindow w

theorem closes_head {pane : Uuid} {w : NamedWindow} (ws : List NamedWindow)
    (hd : w.layout.leaves.Nodup) (hmem : pane ∈ w.layout.leaves) :
    ∃ ws' closed, RecordState.closeWindow pane w.id (w :: ws) = some (ws', closed) ∧
      Closes pane w.id (w :: ws) ws' closed := by
  unfold RecordState.closeWindow
  rw [if_pos rfl]
  obtain ⟨hleaf, hremove⟩ | ⟨layout, hremove, hhalved, hleaves⟩ := remove_cases w.layout hd pane
  · rw [hremove]
    refine ⟨ws, some w.id, rfl, ?_, Or.inr ⟨rfl, List.Perm.refl _⟩, ?_⟩
    · rw [places_cons, hleaf]
      exact List.Perm.refl _
    · intro hsound v hv
      exact hsound v (List.mem_cons_of_mem _ hv)
  · rw [hremove]
    refine ⟨{ w with layout } :: ws, none, rfl, ?_, Or.inl ⟨rfl, rfl⟩, ?_⟩
    · have hperm := ((List.perm_cons_erase hmem).map (·, w.id)).append_right (places ws)
      rw [← hleaves] at hperm
      exact hperm
    · intro hsound v hv
      rcases List.mem_cons.mp hv with rfl | hv
      · have hw := hsound w List.mem_cons_self
        exact ⟨hhalved hw.halved, hw.rows, hw.cols⟩
      · exact hsound v (List.mem_cons_of_mem _ hv)

/-- INTERNAL: a close takes the pane out of its window, which closes with its last pane.
SRC: engine.rs:747-774 -/
theorem closeWindow_of_place {pane window : Uuid} {ws : List NamedWindow}
    (hd : ∀ w ∈ ws, w.layout.leaves.Nodup) (hids : (ws.map NamedWindow.id).Nodup)
    (hmem : (pane, window) ∈ places ws) :
    ∃ ws' closed, RecordState.closeWindow pane window ws = some (ws', closed) ∧
      Closes pane window ws ws' closed := by
  induction ws with
  | nil => cases hmem
  | cons w ws ih =>
      obtain ⟨hfresh, hids⟩ := List.nodup_cons.mp hids
      obtain ⟨v, hv, hid, hleaf⟩ := mem_places.mp hmem
      rcases List.mem_cons.mp hv with rfl | hv
      · rw [← hid]
        exact closes_head ws (hd v List.mem_cons_self) hleaf
      · have hne : w.id ≠ window := by
          rintro rfl
          exact hfresh (List.mem_map.mpr ⟨v, hv, hid⟩)
        obtain ⟨ws', closed, hclose, hcloses⟩ := ih (fun u hu => hd u (List.mem_cons_of_mem _ hu))
          hids (mem_places.mpr ⟨v, hv, hid, hleaf⟩)
        unfold RecordState.closeWindow
        rw [if_neg hne, hclose]
        refine ⟨w :: ws', closed, rfl, ?_, ?_, ?_⟩
        · rw [places_cons, places_cons]
          exact (hcloses.places.append_left _).trans List.perm_middle
        · obtain ⟨rfl, heq⟩ | ⟨rfl, hperm⟩ := hcloses.ids
          · exact Or.inl ⟨rfl, by rw [List.map_cons, List.map_cons, heq]⟩
          · exact Or.inr ⟨rfl, (hperm.cons _).trans (List.Perm.swap ..)⟩
        · intro hsound u hu
          rcases List.mem_cons.mp hu with rfl | hu
          · exact hsound u List.mem_cons_self
          · exact hcloses.sound (fun x hx => hsound x (List.mem_cons_of_mem _ hx)) u hu

/-! ## All sessions -/

abbrev NamedSessions := AList fun _ : Uuid => NamedSession

/-- The panes of all sessions, each with its window. -/
def panePlaces (sessions : NamedSessions) : List (Uuid × Uuid) :=
  collect (fun _ st => places st.windows) sessions

/-- The windows of all sessions, each with its session. -/
def windowPlaces (sessions : NamedSessions) : List (Uuid × Uuid) :=
  collect (fun sid st => st.windows.map fun w => (w.id, sid)) sessions

theorem mem_panePlaces {sessions : NamedSessions} {p v : Uuid} :
    (p, v) ∈ panePlaces sessions ↔
      ∃ sid st, sessions.lookup sid = some st ∧ (p, v) ∈ places st.windows := mem_collect

theorem mem_windowPlaces {sessions : NamedSessions} {v sid : Uuid} :
    (v, sid) ∈ windowPlaces sessions ↔
      ∃ st, sessions.lookup sid = some st ∧ v ∈ st.windows.map NamedWindow.id := by
  unfold windowPlaces
  rw [mem_collect]
  constructor
  · rintro ⟨sid', st, hst, hmem⟩
    obtain ⟨w, hw, heq⟩ := List.mem_map.mp hmem
    obtain ⟨rfl, rfl⟩ := Prod.mk.injEq .. ▸ heq
    exact ⟨st, hst, List.mem_map_of_mem hw⟩
  · rintro ⟨st, hst, hmem⟩
    obtain ⟨w, hw, rfl⟩ := List.mem_map.mp hmem
    exact ⟨sid, st, hst, List.mem_map.mpr ⟨w, hw, rfl⟩⟩

section Changes

variable {sessions : NamedSessions} {sid : Uuid} {st : NamedSession}

theorem panePlaces_insert_new (st : NamedSession) (h : sessions.lookup sid = none) :
    (panePlaces (sessions.insert sid st)).Perm (places st.windows ++ panePlaces sessions) :=
  collect_insert_of_none st h

theorem windowPlaces_insert_new (st : NamedSession) (h : sessions.lookup sid = none) :
    (windowPlaces (sessions.insert sid st)).Perm
      ((st.windows.map fun w => (w.id, sid)) ++ windowPlaces sessions) :=
  collect_insert_of_none st h

theorem panePlaces_insert_grow (more : List (Uuid × Uuid)) (st' : NamedSession)
    (hst : sessions.lookup sid = some st) (h : (places st'.windows).Perm (more ++ places st.windows)) :
    (panePlaces (sessions.insert sid st')).Perm (more ++ panePlaces sessions) :=
  collect_insert_grow (f := fun _ (st : NamedSession) => places st.windows) hst h

theorem panePlaces_insert_shrink (less : List (Uuid × Uuid)) (st' : NamedSession)
    (hst : sessions.lookup sid = some st) (h : (places st.windows).Perm (less ++ places st'.windows)) :
    (panePlaces sessions).Perm (less ++ panePlaces (sessions.insert sid st')) :=
  collect_insert_shrink (f := fun _ (st : NamedSession) => places st.windows) hst h

theorem windowPlaces_insert_grow (more : List Uuid) (st' : NamedSession)
    (hst : sessions.lookup sid = some st)
    (h : (st'.windows.map NamedWindow.id).Perm (more ++ st.windows.map NamedWindow.id)) :
    (windowPlaces (sessions.insert sid st')).Perm
      (more.map (·, sid) ++ windowPlaces sessions) := by
  have hpairs := h.map (·, sid)
  rw [List.map_append, List.map_map, List.map_map] at hpairs
  exact collect_insert_grow (f := fun sid (st : NamedSession) =>
    st.windows.map fun w => (w.id, sid)) hst hpairs

theorem windowPlaces_insert_shrink (less : List Uuid) (st' : NamedSession)
    (hst : sessions.lookup sid = some st)
    (h : (st.windows.map NamedWindow.id).Perm (less ++ st'.windows.map NamedWindow.id)) :
    (windowPlaces sessions).Perm
      (less.map (·, sid) ++ windowPlaces (sessions.insert sid st')) := by
  have hpairs := h.map (·, sid)
  rw [List.map_append, List.map_map, List.map_map] at hpairs
  exact collect_insert_shrink (f := fun sid (st : NamedSession) =>
    st.windows.map fun w => (w.id, sid)) hst hpairs

/-- The panes of a session can be taken out first. -/
theorem panePlaces_of_lookup (hst : sessions.lookup sid = some st) :
    (panePlaces sessions).Perm (places st.windows ++ panePlaces (sessions.erase sid)) :=
  collect_of_lookup hst

theorem windowPlaces_of_lookup (hst : sessions.lookup sid = some st) :
    (windowPlaces sessions).Perm
      ((st.windows.map fun w => (w.id, sid)) ++ windowPlaces (sessions.erase sid)) :=
  collect_of_lookup hst

end Changes

/-- The panes of one session are distinct if all of them are. -/
theorem places_nodup_of_lookup {sessions : NamedSessions} {sid : Uuid} {st : NamedSession}
    (h : ((panePlaces sessions).map Prod.fst).Nodup) (hst : sessions.lookup sid = some st) :
    ((places st.windows).map Prod.fst).Nodup := by
  have hperm := (panePlaces_of_lookup hst).map Prod.fst
  rw [List.map_append] at hperm
  exact (hperm.nodup_iff.mp h).of_append_left

/-- The windows of one session are distinct if all of them are. -/
theorem ids_nodup_of_lookup {sessions : NamedSessions} {sid : Uuid} {st : NamedSession}
    (h : ((windowPlaces sessions).map Prod.fst).Nodup) (hst : sessions.lookup sid = some st) :
    (st.windows.map NamedWindow.id).Nodup := by
  have hperm := (windowPlaces_of_lookup hst).map Prod.fst
  rw [List.map_append, List.map_map] at hperm
  exact (hperm.nodup_iff.mp h).of_append_left

end Tymux.Analysis
