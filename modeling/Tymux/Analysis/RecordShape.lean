import Tymux.Analysis.SessionIndexing
import Tymux.Analysis.SessionPlaces

/-!
# The sessions under the engine's calls

Where a pane was made, in which window of which session, never changes (`home`), and a pane is a
leaf nowhere else. The layouts stay as the operations build them, so that a split never panics. This
is kept by each change of a session, whatever the calls in progress are.
-/

set_option autoImplicit false

namespace Tymux.Analysis.Records

open Tymux.Model Tymux.Lib RecordState

/-! ## Windows -/

/-- The windows of a session as the operations build them. -/
structure Sane (ws : List NamedWindow) : Prop where
  sound : ∀ w ∈ ws, SoundWindow w
  ids : (ws.map NamedWindow.id).Nodup
  panes : ((places ws).map Prod.fst).Nodup

theorem Sane.leaves {ws : List NamedWindow} (h : Sane ws) {w : NamedWindow} (hw : w ∈ ws) :
    w.layout.leaves.Nodup :=
  leaves_nodup_of_places h.panes hw

theorem soundWindow_new (window : Uuid) (name : String) (pane : Uuid) :
    SoundWindow (newWindow window name pane) where
  halved := trivial
  rows := by simp [newWindow, defaultRows, u16Max]
  cols := by simp [newWindow, defaultCols, u16Max]

theorem places_new (window : Uuid) (name : String) (pane : Uuid) :
    places [newWindow window name pane] = [(pane, window)] := rfl

theorem sane_new (window : Uuid) (name : String) (pane : Uuid) :
    Sane [newWindow window name pane] where
  sound := by simp [soundWindow_new]
  ids := by simp
  panes := by simp [places_new]

theorem splitWindow_eq (target : Uuid) (o : Orientation) (pane window : Uuid)
    (ws : List NamedWindow) :
    splitWindow target o pane window ws =
      (Engine.splitWindow target o pane window ws).map Except.toOption := by
  induction ws with
  | nil => rfl
  | cons w ws ih =>
      unfold splitWindow Engine.splitWindow
      by_cases hid : w.id = window
      · rw [if_pos hid, if_pos hid]
        cases w.layout.split? target o pane w.rows w.cols with
        | none => rfl
        | some r => cases r <;> rfl
      · rw [if_neg hid, if_neg hid, ih]
        cases Engine.splitWindow target o pane window ws with
        | none => rfl
        | some r => cases r <;> rfl

/-- INTERNAL: a split never panics.
SRC: engine.rs:689-714 -/
theorem Sane.splitWindow_ne_none {ws : List NamedWindow} (h : Sane ws) (target : Uuid)
    (o : Orientation) (pane window : Uuid) : splitWindow target o pane window ws ≠ none := by
  obtain ⟨r, hr⟩ := splitWindow_total target pane window o (fun w hw => h.leaves hw) h.sound
  rw [splitWindow_eq, hr]
  simp

/-- INTERNAL: a split that succeeds adds the new pane to the window it names.
SRC: engine.rs:689-714 -/
theorem Sane.split {ws ws' : List NamedWindow} (h : Sane ws) {target : Uuid} {o : Orientation}
    {pane window : Uuid} (hfresh : pane ∉ (places ws).map Prod.fst)
    (hsplit : splitWindow target o pane window ws = some (some ws')) :
    Sane ws' ∧ ws'.map NamedWindow.id = ws.map NamedWindow.id ∧
      (places ws').Perm ((pane, window) :: places ws) := by
  rw [splitWindow_eq] at hsplit
  obtain ⟨r, hr, hok⟩ := Option.map_eq_some_iff.mp hsplit
  cases r with
  | error e => cases hok
  | ok ws'' =>
      cases hok
      obtain ⟨hids, hplaces, hsound⟩ := splitWindow_ok (fun w hw => h.leaves hw) hr
      refine ⟨⟨hsound h.sound, by rw [hids]; exact h.ids, ?_⟩, hids, hplaces⟩
      rw [(hplaces.map Prod.fst).nodup_iff, List.map_cons]
      exact List.nodup_cons.mpr ⟨hfresh, h.panes⟩

/-- INTERNAL: a pane that is not in the window changes nothing.
SRC: engine.rs:751-774 -/
theorem closeWindow_of_notMem {pane window : Uuid} {ws ws' : List NamedWindow} {closed : Option Uuid}
    (hd : ∀ w ∈ ws, w.layout.leaves.Nodup) (hnot : (pane, window) ∉ places ws)
    (h : closeWindow pane window ws = some (ws', closed)) :
    ws'.map NamedWindow.id = ws.map NamedWindow.id ∧ places ws' = places ws ∧
      ((∀ w ∈ ws, SoundWindow w) → ∀ w ∈ ws', SoundWindow w) := by
  induction ws generalizing ws' with
  | nil => cases h
  | cons w ws ih =>
      unfold closeWindow at h
      rw [places_cons, List.mem_append, not_or] at hnot
      by_cases hid : w.id = window
      · rw [if_pos hid] at h
        have habsent : pane ∉ w.layout.leaves := by
          intro hmem
          exact hnot.1 (List.mem_map.mpr ⟨pane, hmem, by rw [hid]⟩)
        obtain ⟨hleaf, -⟩ | ⟨layout, hremove, hhalved, hleaves⟩ :=
          remove_cases w.layout (hd w List.mem_cons_self) pane
        · rw [hleaf] at habsent
          simp [LayoutNode.leaves] at habsent
        · rw [hremove] at h
          cases h
          rw [List.erase_of_not_mem habsent] at hleaves
          refine ⟨rfl, by rw [places_cons, places_cons, hleaves], ?_⟩
          intro hsound v hv
          rcases List.mem_cons.mp hv with rfl | hv
          · have hw := hsound w List.mem_cons_self
            exact ⟨hhalved hw.halved, hw.rows, hw.cols⟩
          · exact hsound v (List.mem_cons_of_mem _ hv)
      · rw [if_neg hid] at h
        obtain ⟨⟨rest, closed'⟩, hrest, heq⟩ := Option.map_eq_some_iff.mp h
        cases heq
        obtain ⟨hids, hplaces, hsound⟩ :=
          ih (fun v hv => hd v (List.mem_cons_of_mem _ hv)) hnot.2 hrest
        refine ⟨by rw [List.map_cons, List.map_cons, hids], by rw [places_cons, places_cons, hplaces],
          ?_⟩
        intro hall v hv
        rcases List.mem_cons.mp hv with rfl | hv
        · exact hall v List.mem_cons_self
        · exact hsound (fun u hu => hall u (List.mem_cons_of_mem _ hu)) v hv

/-- INTERNAL: after a close the pane is not in the window, and every other pane is where it was.
SRC: engine.rs:747-774 -/
theorem Sane.close {ws ws' : List NamedWindow} (h : Sane ws) {pane window : Uuid}
    {closed : Option Uuid} (hclose : closeWindow pane window ws = some (ws', closed)) :
    Sane ws' ∧ ∀ e ∈ places ws', e ∈ places ws ∧ e ≠ (pane, window) := by
  by_cases hmem : (pane, window) ∈ places ws
  · obtain ⟨ws'', closed', heq, hcloses⟩ := closeWindow_of_place (fun w hw => h.leaves hw) h.ids hmem
    rw [hclose] at heq
    cases heq
    have hnodup := (hcloses.places.map Prod.fst).nodup_iff.mp h.panes
    rw [List.map_cons, List.nodup_cons] at hnodup
    refine ⟨⟨hcloses.sound h.sound, ?_, hnodup.2⟩, ?_⟩
    · obtain ⟨-, hids⟩ | ⟨-, hids⟩ := hcloses.ids
      · rw [hids]
        exact h.ids
      · exact (List.nodup_cons.mp (hids.nodup_iff.mp h.ids)).2
    · intro e he
      refine ⟨hcloses.places.mem_iff.mpr (List.mem_cons_of_mem _ he), ?_⟩
      rintro rfl
      exact hnodup.1 (List.mem_map_of_mem he)
  · obtain ⟨hids, hplaces, hsound⟩ := closeWindow_of_notMem (fun w hw => h.leaves hw) hmem hclose
    refine ⟨⟨hsound h.sound, by rw [hids]; exact h.ids, by rw [hplaces]; exact h.panes⟩, ?_⟩
    intro e he
    rw [hplaces] at he
    refine ⟨he, ?_⟩
    rintro rfl
    exact hmem he

theorem Sane.add {ws : List NamedWindow} (h : Sane ws) {window pane : Uuid} (name : String)
    (hwindow : window ∉ ws.map NamedWindow.id) (hpane : pane ∉ (places ws).map Prod.fst) :
    Sane (ws ++ [newWindow window name pane]) where
  sound := by
    intro w hw
    rcases List.mem_append.mp hw with hw | hw
    · exact h.sound w hw
    · rw [List.mem_singleton] at hw
      rw [hw]
      exact soundWindow_new window name pane
  ids := by
    rw [List.map_append, List.nodup_append]
    refine ⟨h.ids, by simp, ?_⟩
    rintro v hv _ hv' rfl
    obtain rfl := List.mem_singleton.mp hv'
    exact hwindow hv
  panes := by
    rw [places_append, List.map_append, List.nodup_append]
    refine ⟨h.panes, by simp [places_new], ?_⟩
    rintro p hp _ hp' rfl
    obtain rfl := List.mem_singleton.mp hp'
    exact hpane hp

/-- INTERNAL: a resize keeps the layouts.
SRC: engine.rs:1301-1310 -/
theorem Sane.size {st : NamedSession} (h : Sane st.windows) (window : Uuid) {rows cols : ℕ}
    (hrows : rows ≤ u16Max) (hcols : cols ≤ u16Max) :
    Sane (sizeWindow st window rows cols).windows ∧
      places (sizeWindow st window rows cols).windows = places st.windows := by
  have hkeep : ∀ w : NamedWindow, (if w.id = window then { w with rows := rows, cols := cols } else w).id
      = w.id ∧ (if w.id = window then { w with rows := rows, cols := cols } else w).layout
      = w.layout := by
    intro w
    split <;> exact ⟨rfl, rfl⟩
  have hplaces : places (sizeWindow st window rows cols).windows = places st.windows := by
    unfold places sizeWindow
    rw [List.flatMap_map]
    apply List.flatMap_congr
    intro w _
    rw [(hkeep w).1, (hkeep w).2]
  refine ⟨⟨?_, ?_, by rw [hplaces]; exact h.panes⟩, hplaces⟩
  · intro w hw
    obtain ⟨v, hv, rfl⟩ := List.mem_map.mp hw
    have hsound := h.sound v hv
    split
    · exact ⟨hsound.halved, hrows, hcols⟩
    · exact hsound
  · have hids : (sizeWindow st window rows cols).windows.map NamedWindow.id =
        st.windows.map NamedWindow.id := by
      unfold sizeWindow
      rw [List.map_map]
      apply List.map_congr_left
      intro w _
      exact (hkeep w).1
    rw [hids]
    exact h.ids

/-! ## Sessions -/

/-- The panes are leaves where they were made, and the ids that are yet to be drawn are not in
use. -/
structure Shape (s : RecordState) : Prop where
  sane : ∀ sid st, s.sessions.lookup sid = some st → Sane st.windows
  home : ∀ sid st p w, s.sessions.lookup sid = some st → (p, w) ∈ places st.windows →
    s.home.lookup p = some (w, sid)
  functional : ∀ p p' w sid sid', s.home.lookup p = some (w, sid) →
    s.home.lookup p' = some (w, sid') → sid = sid'
  known : ∀ p w sid, s.home.lookup p = some (w, sid) → p < s.nextId ∧ w < s.nextId ∧ sid < s.nextId
  sessions : ∀ sid, s.nextId ≤ sid → s.sessions.lookup sid = none

theorem leaves_ne_nil (t : LayoutNode) : t.leaves ≠ [] := by
  induction t with
  | leaf id => simp [LayoutNode.leaves]
  | split o first r₁ second r₂ ih₁ ih₂ => simp [LayoutNode.leaves, ih₁]

namespace Shape

variable {s s' : RecordState} {sid : Uuid} {st : NamedSession}

theorem notMem_panes (h : Shape s) (hst : s.sessions.lookup sid = some st) {p : Uuid}
    (hp : s.nextId ≤ p) : p ∉ (places st.windows).map Prod.fst := by
  intro hmem
  obtain ⟨⟨q, w⟩, he, rfl⟩ := List.mem_map.mp hmem
  exact absurd (h.known _ _ _ (h.home sid st q w hst he)).1 (Nat.not_lt.mpr hp)

theorem notMem_windows (h : Shape s) (hst : s.sessions.lookup sid = some st) {v : Uuid}
    (hv : s.nextId ≤ v) : v ∉ st.windows.map NamedWindow.id := by
  intro hmem
  obtain ⟨w, hw, rfl⟩ := List.mem_map.mp hmem
  obtain ⟨p, hp⟩ := List.exists_mem_of_ne_nil _ (leaves_ne_nil w.layout)
  have hplace : (p, w.id) ∈ places st.windows := mem_places.mpr ⟨w, hw, rfl, hp⟩
  exact absurd (h.known _ _ _ (h.home sid st p w.id hst hplace)).2.1 (Nat.not_lt.mpr hv)

theorem lookup_lt (h : Shape s) (hst : s.sessions.lookup sid = some st) : sid < s.nextId := by
  by_contra hnot
  rw [h.sessions sid (Nat.not_lt.mp hnot)] at hst
  cases hst

theorem home_fresh (h : Shape s) {p : Uuid} (hp : s.nextId ≤ p) : s.home.lookup p = none := by
  cases hhome : s.home.lookup p with
  | none => rfl
  | some ws => exact absurd (h.known p ws.1 ws.2 hhome).1 (Nat.not_lt.mpr hp)

/-- A step that draws no id and keeps the sessions. -/
theorem of_eq (h : Shape s) (hsessions : s'.sessions = s.sessions) (hhome : s'.home = s.home)
    (hnext : s'.nextId = s.nextId) : Shape s' := by
  refine ⟨?_, ?_, ?_, ?_, ?_⟩
  · rw [hsessions]
    exact h.sane
  · rw [hsessions, hhome]
    exact h.home
  · rw [hhome]
    exact h.functional
  · rw [hhome, hnext]
    exact h.known
  · rw [hsessions, hnext]
    exact h.sessions

/-- A session is changed, and none of its panes is new. -/
theorem change (h : Shape s) (hst : s.sessions.lookup sid = some st) {st' : NamedSession}
    (hsane : Sane st'.windows) (hplaces : ∀ e ∈ places st'.windows, e ∈ places st.windows)
    (hsessions : s'.sessions = s.sessions.insert sid st') (hhome : s'.home = s.home)
    (hnext : s'.nextId = s.nextId) : Shape s' := by
  refine ⟨?_, ?_, ?_, ?_, ?_⟩
  · intro sid' st'' hlookup
    rw [hsessions] at hlookup
    by_cases hsid : sid' = sid
    · subst hsid
      rw [AList.lookup_insert, Option.some_inj] at hlookup
      exact hlookup ▸ hsane
    · rw [AList.lookup_insert_ne hsid] at hlookup
      exact h.sane sid' st'' hlookup
  · intro sid' st'' p w hlookup hmem
    rw [hsessions] at hlookup
    rw [hhome]
    by_cases hsid : sid' = sid
    · subst hsid
      rw [AList.lookup_insert, Option.some_inj] at hlookup
      subst hlookup
      exact h.home sid' st p w hst (hplaces _ hmem)
    · rw [AList.lookup_insert_ne hsid] at hlookup
      exact h.home sid' st'' p w hlookup hmem
  · rw [hhome]
    exact h.functional
  · rw [hhome, hnext]
    exact h.known
  · intro sid' hsid
    rw [hnext] at hsid
    have hne : sid' ≠ sid := by
      rintro rfl
      exact absurd (h.lookup_lt hst) (Nat.not_lt.mpr hsid)
    rw [hsessions, AList.lookup_insert_ne hne]
    exact h.sessions sid' hsid

theorem erase (h : Shape s) (hsessions : s'.sessions = s.sessions.erase sid)
    (hhome : s'.home = s.home) (hnext : s'.nextId = s.nextId) : Shape s' := by
  have hback : ∀ sid' st', s'.sessions.lookup sid' = some st' → s.sessions.lookup sid' = some st' := by
    intro sid' st' hlookup
    rw [hsessions] at hlookup
    by_cases hsid : sid' = sid
    · subst hsid
      rw [AList.lookup_erase] at hlookup
      cases hlookup
    · rwa [AList.lookup_erase_ne hsid] at hlookup
  refine ⟨?_, ?_, ?_, ?_, ?_⟩
  · intro sid' st' hlookup
    exact h.sane sid' st' (hback sid' st' hlookup)
  · intro sid' st' p w hlookup
    rw [hhome]
    exact h.home sid' st' p w (hback sid' st' hlookup)
  · rw [hhome]
    exact h.functional
  · rw [hhome, hnext]
    exact h.known
  · intro sid' hsid
    rw [hnext] at hsid
    cases hlookup : s'.sessions.lookup sid' with
    | none => rfl
    | some st' =>
        have hold := hback sid' st' hlookup
        rw [h.sessions sid' hsid] at hold
        cases hold

/-- A new pane, in a window of the session or in a new one. -/
theorem grow (h : Shape s) {st' : NamedSession} {p w : Uuid} (hp : s.nextId ≤ p)
    (hw : w < s'.nextId) (hw' : ∀ q sid', s.home.lookup q = some (w, sid') → sid' = sid)
    (hnext : p < s'.nextId) (hle : s.nextId ≤ s'.nextId) (hsid : sid < s'.nextId)
    (hsane : Sane st'.windows)
    (hplaces : ∀ e ∈ places st'.windows, e = (p, w) ∨
      ∃ st, s.sessions.lookup sid = some st ∧ e ∈ places st.windows)
    (hsessions : s'.sessions = s.sessions.insert sid st')
    (hhome : s'.home = s.home.insert p (w, sid)) : Shape s' := by
  have hself : s'.home.lookup p = some (w, sid) := by
    rw [hhome]
    exact AList.lookup_insert _
  have hother : ∀ q, q ≠ p → s'.home.lookup q = s.home.lookup q := by
    intro q hq
    rw [hhome, AList.lookup_insert_ne hq]
  have hkeep : ∀ q v, s.home.lookup q = some v → s'.home.lookup q = some v := by
    intro q v hq
    rw [hother q ?_]
    · exact hq
    · rintro rfl
      rw [h.home_fresh hp] at hq
      cases hq
  refine ⟨?_, ?_, ?_, ?_, ?_⟩
  · intro sid' st'' hlookup
    rw [hsessions] at hlookup
    by_cases heq : sid' = sid
    · subst heq
      rw [AList.lookup_insert, Option.some_inj] at hlookup
      exact hlookup ▸ hsane
    · rw [AList.lookup_insert_ne heq] at hlookup
      exact h.sane sid' st'' hlookup
  · intro sid' st'' q v hlookup hmem
    rw [hsessions] at hlookup
    by_cases heq : sid' = sid
    · subst heq
      rw [AList.lookup_insert, Option.some_inj] at hlookup
      subst hlookup
      rcases hplaces _ hmem with hnew | ⟨st, hst, hold⟩
      · cases hnew
        exact hself
      · exact hkeep q _ (h.home sid' st q v hst hold)
    · rw [AList.lookup_insert_ne heq] at hlookup
      exact hkeep q _ (h.home sid' st'' q v hlookup hmem)
  · intro q q' v sid₁ sid₂ h₁ h₂
    by_cases hq : q = p
    · subst hq
      rw [hself] at h₁
      cases h₁
      by_cases hq' : q' = q
      · subst hq'
        rw [hself] at h₂
        cases h₂
        rfl
      · rw [hother q' hq'] at h₂
        exact (hw' q' sid₂ h₂).symm
    · rw [hother q hq] at h₁
      by_cases hq' : q' = p
      · subst hq'
        rw [hself] at h₂
        cases h₂
        exact hw' q sid₁ h₁
      · rw [hother q' hq'] at h₂
        exact h.functional q q' v sid₁ sid₂ h₁ h₂
  · intro q v sid' hq
    by_cases heq : q = p
    · subst heq
      rw [hself] at hq
      cases hq
      exact ⟨hnext, hw, hsid⟩
    · rw [hother q heq] at hq
      obtain ⟨h₁, h₂, h₃⟩ := h.known q v sid' hq
      exact ⟨Nat.lt_of_lt_of_le h₁ hle, Nat.lt_of_lt_of_le h₂ hle, Nat.lt_of_lt_of_le h₃ hle⟩
  · intro sid' hsid'
    have hne : sid' ≠ sid := by
      rintro rfl
      exact absurd hsid (Nat.not_lt.mpr hsid')
    rw [hsessions, AList.lookup_insert_ne hne]
    exact h.sessions sid' (Nat.le_trans hle hsid')

end Shape

end Tymux.Analysis.Records
