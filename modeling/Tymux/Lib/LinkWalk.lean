import Tymux.Lib.UnixPath

/-!
# Walking a path through links

A tree of nodes, told by the names from the root along directories, some of them links to a path. A
walk goes along the elements of a path and, at a link, along those of its target first; how many
links it follows is bounded (`walk`). `Walks` is the same without a bound (`walk_eq_some_iff`), and
a walk along two paths is the one after the other (`walks_append_iff`).
-/

set_option autoImplicit false

namespace Tymux.Lib.LinkWalk

open UnixPath

/-- The names from the root along directories. -/
abbrev Location (α : Type) := List (List α)

/-- What there is at each location. -/
structure Tree (α ι : Type) where
  node : Location α → Option ι
  isDir : ι → Bool
  target : ι → Option (List α)

/-- An element that is still to be walked; it is nested where it is from the target of a link. -/
structure Element (α : Type) where
  name : List α
  nested : Bool
  deriving DecidableEq

/-- A link that has been followed, and whether it was met in the target of another. -/
structure Followed (ι : Type) where
  link : ι
  nested : Bool
  deriving DecidableEq

/-- The links that a walk has followed, and where it has come to. -/
structure Trail (α ι : Type) where
  links : List (Followed ι)
  last : Location α
  deriving DecidableEq

variable {α ι : Type} [DecidableEq α] (tree : Tree α ι) (sep dot : α) (followLast : Bool)

omit [DecidableEq α] in
def Tree.IsDir (cur : Location α) : Prop := (tree.node cur).any tree.isDir = true

instance (cur : Location α) : Decidable (tree.IsDir cur) :=
  inferInstanceAs (Decidable (_ = true))

/-- Where a link in the directory `cur` starts. -/
def origin (cur : Location α) (path : List α) : Location α := if IsAbs sep path then [] else cur

def elements (nested : Bool) (path : List α) : List (Element α) :=
  (path.splitOn sep).map fun name => ⟨name, nested⟩

/-- The walk up to the next link, which `follow` goes on from. -/
def walkElements (follow : Location α → List (Element α) → Option (Trail α ι)) :
    Location α → List (Element α) → Option (Trail α ι)
  | cur, [] => some ⟨[], cur⟩
  | cur, e :: rest =>
      if ¬ tree.IsDir cur then none
      else if e.name = [] ∨ e.name = [dot] then walkElements follow cur rest
      else if e.name = [dot, dot] then walkElements follow cur.dropLast rest
      else
        match tree.node (cur ++ [e.name]) with
        | none => none
        | some i =>
            match tree.target i with
            | none => walkElements follow (cur ++ [e.name]) rest
            | some path =>
                if rest = [] ∧ followLast = false then walkElements follow (cur ++ [e.name]) rest
                else if path = [] then none
                else
                  (follow (origin sep cur path) (elements sep true path ++ rest)).map fun t =>
                    ⟨⟨i, e.nested⟩ :: t.links, t.last⟩

/-- A walk that follows at most so many links; the last element only where `followLast` says so. -/
def walk : ℕ → Location α → List (Element α) → Option (Trail α ι)
  | 0 => walkElements tree sep dot followLast fun _ _ => none
  | bound + 1 => walkElements tree sep dot followLast (walk bound)

/-- A walk, however many links it follows. -/
inductive Walks : Location α → List (Element α) → Trail α ι → Prop
  | done (cur : Location α) : Walks cur [] ⟨[], cur⟩
  | skip {cur : Location α} {e : Element α} {rest : List (Element α)} {t : Trail α ι}
      (hdir : tree.IsDir cur) (hskip : e.name = [] ∨ e.name = [dot]) (h : Walks cur rest t) :
      Walks cur (e :: rest) t
  | up {cur : Location α} {e : Element α} {rest : List (Element α)} {t : Trail α ι}
      (hdir : tree.IsDir cur) (hup : e.name = [dot, dot]) (h : Walks cur.dropLast rest t) :
      Walks cur (e :: rest) t
  | enter {cur : Location α} {e : Element α} {rest : List (Element α)} {t : Trail α ι} {i : ι}
      (hdir : tree.IsDir cur) (hplain : Plain dot e.name)
      (hnode : tree.node (cur ++ [e.name]) = some i)
      (hkeep : tree.target i = none ∨ (rest = [] ∧ followLast = false))
      (h : Walks (cur ++ [e.name]) rest t) : Walks cur (e :: rest) t
  | follow {cur : Location α} {e : Element α} {rest : List (Element α)} {t : Trail α ι} {i : ι}
      {path : List α} (hdir : tree.IsDir cur) (hplain : Plain dot e.name)
      (hnode : tree.node (cur ++ [e.name]) = some i) (htarget : tree.target i = some path)
      (hfollow : rest ≠ [] ∨ followLast = true) (hne : path ≠ [])
      (h : Walks (origin sep cur path) (elements sep true path ++ rest) t) :
      Walks cur (e :: rest) ⟨⟨i, e.nested⟩ :: t.links, t.last⟩

/-! ## The bound -/

variable {tree sep dot followLast} {cur : Location α} {es xs ys : List (Element α)} {t : Trail α ι}

theorem walks_of_walkElements {follow : Location α → List (Element α) → Option (Trail α ι)} {bound : ℕ}
    (hfollow : ∀ cur es t, follow cur es = some t →
      Walks tree sep dot followLast cur es t ∧ t.links.length < bound)
    (h : walkElements tree sep dot followLast follow cur es = some t) :
    Walks tree sep dot followLast cur es t ∧ t.links.length ≤ bound := by
  induction es generalizing cur t with
  | nil =>
      unfold walkElements at h
      rw [← Option.some.inj h]
      exact ⟨.done cur, Nat.zero_le _⟩
  | cons e rest ih =>
      unfold walkElements at h
      split at h
      · cases h
      · rename_i hdir
        rw [not_not] at hdir
        split at h
        · rename_i hskip
          obtain ⟨hwalks, hlen⟩ := ih h
          exact ⟨.skip hdir hskip hwalks, hlen⟩
        · rename_i hskip
          obtain ⟨hne, hdot⟩ := not_or.mp hskip
          split at h
          · rename_i hup
            obtain ⟨hwalks, hlen⟩ := ih h
            exact ⟨.up hdir hup hwalks, hlen⟩
          · rename_i hup
            have hplain : Plain dot e.name := ⟨hne, hdot, hup⟩
            split at h
            · cases h
            · rename_i i hnode
              split at h
              · rename_i htarget
                obtain ⟨hwalks, hlen⟩ := ih h
                exact ⟨.enter hdir hplain hnode (Or.inl htarget) hwalks, hlen⟩
              · rename_i path htarget
                split at h
                · rename_i hkeep
                  obtain ⟨hwalks, hlen⟩ := ih h
                  exact ⟨.enter hdir hplain hnode (Or.inr hkeep) hwalks, hlen⟩
                · rename_i hgo
                  split at h
                  · cases h
                  · rename_i hpath
                    obtain ⟨t', ht', rfl⟩ := Option.map_eq_some_iff.mp h
                    obtain ⟨hwalks, hlen⟩ := hfollow _ _ _ ht'
                    have hfollows : rest ≠ [] ∨ followLast = true := by
                      rw [not_and_or, Bool.not_eq_false] at hgo
                      exact hgo
                    exact ⟨.follow hdir hplain hnode htarget hfollows hpath hwalks, hlen⟩

theorem walkElements_of_walks {follow : Location α → List (Element α) → Option (Trail α ι)} {bound : ℕ}
    (hfollow : ∀ cur es t, Walks tree sep dot followLast cur es t → t.links.length < bound →
      follow cur es = some t)
    (h : Walks tree sep dot followLast cur es t) (hlen : t.links.length ≤ bound) :
    walkElements tree sep dot followLast follow cur es = some t := by
  induction h with
  | done cur => rfl
  | skip hdir hskip h ih =>
      unfold walkElements
      rw [if_neg (not_not.mpr hdir), if_pos hskip]
      exact ih hlen
  | up hdir hup h ih =>
      unfold walkElements
      rw [if_neg (not_not.mpr hdir), if_neg (by rw [hup]; simp), if_pos hup]
      exact ih hlen
  | enter hdir hplain hnode hkeep h ih =>
      unfold walkElements
      rw [if_neg (not_not.mpr hdir), if_neg (not_or.mpr ⟨hplain.ne_nil, hplain.ne_dot⟩),
        if_neg hplain.ne_up, hnode]
      dsimp only
      split
      · exact ih hlen
      · rename_i path htarget
        rw [htarget] at hkeep
        rw [if_pos (hkeep.resolve_left (Option.some_ne_none _))]
        exact ih hlen
  | follow hdir hplain hnode htarget hfollows hne h ih =>
      unfold walkElements
      rw [if_neg (not_not.mpr hdir), if_neg (not_or.mpr ⟨hplain.ne_nil, hplain.ne_dot⟩),
        if_neg hplain.ne_up, hnode]
      dsimp only
      rw [htarget]
      dsimp only
      rw [← Bool.not_eq_false, ← not_and_or] at hfollows
      rw [if_neg hfollows, if_neg hne, hfollow _ _ _ h hlen]
      rfl

/-- A walk with a bound is a walk that follows no more links. -/
theorem walk_eq_some_iff {bound : ℕ} : walk tree sep dot followLast bound cur es = some t ↔
    Walks tree sep dot followLast cur es t ∧ t.links.length ≤ bound := by
  induction bound generalizing cur es t with
  | zero =>
      constructor
      · exact walks_of_walkElements fun _ _ _ h => by cases h
      · exact fun h => walkElements_of_walks (fun _ _ _ _ hlt => by cases hlt) h.1 h.2
  | succ bound ih =>
      constructor
      · exact walks_of_walkElements fun cur es t h => (ih.mp h).imp_right Nat.lt_succ_of_le
      · exact fun h => walkElements_of_walks
          (fun cur es t hwalks hlt => ih.mpr ⟨hwalks, Nat.le_of_lt_succ hlt⟩) h.1 h.2

/-! ## One path behind another -/

/-- Whatever has an element behind it is followed. -/
theorem walks_append_iff (hys : ys ≠ [] ∨ followLast = true) :
    Walks tree sep dot followLast cur (xs ++ ys) t ↔
      ∃ t₁ t₂, Walks tree sep dot true cur xs t₁ ∧ Walks tree sep dot followLast t₁.last ys t₂ ∧
        t = ⟨t₁.links ++ t₂.links, t₂.last⟩ := by
  constructor
  · intro h
    generalize hes : xs ++ ys = es at h
    induction h generalizing xs with
    | done cur =>
        obtain ⟨rfl, rfl⟩ := List.append_eq_nil_iff.mp hes
        exact ⟨_, _, .done cur, .done cur, rfl⟩
    | @skip cur e rest t hdir hskip h ih =>
        cases xs with
        | nil =>
            rw [List.nil_append] at hes
            rw [hes]
            exact ⟨_, _, .done cur, .skip hdir hskip h, rfl⟩
        | cons x xs =>
            obtain ⟨rfl, rfl⟩ := List.cons.inj hes
            obtain ⟨t₁, t₂, h₁, h₂, ht⟩ := ih rfl
            exact ⟨t₁, t₂, .skip hdir hskip h₁, h₂, ht⟩
    | @up cur e rest t hdir hup h ih =>
        cases xs with
        | nil =>
            rw [List.nil_append] at hes
            rw [hes]
            exact ⟨_, _, .done cur, .up hdir hup h, rfl⟩
        | cons x xs =>
            obtain ⟨rfl, rfl⟩ := List.cons.inj hes
            obtain ⟨t₁, t₂, h₁, h₂, ht⟩ := ih rfl
            exact ⟨t₁, t₂, .up hdir hup h₁, h₂, ht⟩
    | @enter cur e rest t i hdir hplain hnode hkeep h ih =>
        cases xs with
        | nil =>
            rw [List.nil_append] at hes
            rw [hes]
            exact ⟨_, _, .done cur, .enter hdir hplain hnode hkeep h, rfl⟩
        | cons x xs =>
            obtain ⟨rfl, rfl⟩ := List.cons.inj hes
            have hnone : tree.target i = none := by
              refine hkeep.resolve_right ?_
              rintro ⟨hnil, hlast⟩
              obtain hne | hfollow := hys
              · exact hne (List.append_eq_nil_iff.mp hnil).2
              · rw [hlast] at hfollow
                cases hfollow
            obtain ⟨t₁, t₂, h₁, h₂, ht⟩ := ih rfl
            exact ⟨t₁, t₂, .enter hdir hplain hnode (Or.inl hnone) h₁, h₂, ht⟩
    | @follow cur e rest t i path hdir hplain hnode htarget hfollow hne h ih =>
        cases xs with
        | nil =>
            rw [List.nil_append] at hes
            rw [hes]
            exact ⟨_, _, .done cur, .follow hdir hplain hnode htarget hfollow hne h, rfl⟩
        | cons x xs =>
            obtain ⟨rfl, rfl⟩ := List.cons.inj hes
            obtain ⟨t₁, t₂, h₁, h₂, ht⟩ := ih (List.append_assoc _ _ _)
            refine ⟨_, t₂, .follow hdir hplain hnode htarget (Or.inr rfl) hne h₁, h₂, ?_⟩
            rw [ht]
            rfl
  · rintro ⟨t₁, t₂, h₁, h₂, rfl⟩
    induction h₁ with
    | done cur => exact h₂
    | skip hdir hskip h ih => exact .skip hdir hskip (ih h₂)
    | up hdir hup h ih => exact .up hdir hup (ih h₂)
    | enter hdir hplain hnode hkeep h ih =>
        have hnone := hkeep.resolve_right fun hlast => Bool.noConfusion hlast.2
        exact .enter hdir hplain hnode (Or.inl hnone) (ih h₂)
    | @follow cur e rest t i path hdir hplain hnode htarget hfollow hne h ih =>
        have hrest : rest ++ ys ≠ [] ∨ followLast = true :=
          hys.imp_left fun hne hnil => hne (List.append_eq_nil_iff.mp hnil).2
        have hwalks := ih h₂
        rw [List.append_assoc] at hwalks
        exact .follow hdir hplain hnode htarget hrest hne hwalks

/-- Along nested elements only nested links are met. -/
theorem Walks.nested (h : Walks tree sep dot followLast cur es t) (hes : ∀ e ∈ es, e.nested = true) :
    ∀ l ∈ t.links, l.nested = true := by
  induction h with
  | done cur => exact fun _ hl => absurd hl List.not_mem_nil
  | skip hdir hskip h ih => exact ih (List.forall_mem_cons.mp hes).2
  | up hdir hup h ih => exact ih (List.forall_mem_cons.mp hes).2
  | enter hdir hplain hnode hkeep h ih => exact ih (List.forall_mem_cons.mp hes).2
  | @follow cur e rest t i path hdir hplain hnode htarget hfollow hne h ih =>
      obtain ⟨he, hrest⟩ := List.forall_mem_cons.mp hes
      rw [List.forall_mem_cons]
      refine ⟨he, ih ?_⟩
      rw [List.forall_mem_append]
      refine ⟨fun x hx => ?_, hrest⟩
      obtain ⟨name, _, rfl⟩ := List.mem_map.mp hx
      rfl

/-! ## Locations without links -/

variable (tree sep dot) in
/-- Each of the names is one in the directory before it, and not of a link. -/
inductive Real : Location α → Prop
  | root : Real []
  | concat {pre : Location α} {name : List α} {i : ι} (h : Real pre) (hdir : tree.IsDir pre)
      (hname : Name sep dot name) (hnode : tree.node (pre ++ [name]) = some i)
      (hlink : tree.target i = none) : Real (pre ++ [name])

omit [DecidableEq α] in
theorem Real.dropLast {loc : Location α} (h : Real tree sep dot loc) :
    Real tree sep dot loc.dropLast := by
  cases h with
  | root => exact .root
  | concat h hdir hname hnode hlink =>
      rw [List.dropLast_concat]
      exact h

omit [DecidableEq α] in
theorem Real.names {loc : Location α} (h : Real tree sep dot loc) : ∀ n ∈ loc, Name sep dot n := by
  induction h with
  | root => exact fun _ hn => absurd hn List.not_mem_nil
  | concat h hdir hname hnode hlink ih =>
      rw [List.forall_mem_append, List.forall_mem_singleton]
      exact ⟨ih, hname⟩

theorem not_mem_elements {nested : Bool} {path : List α} :
    ∀ e ∈ elements sep nested path, sep ∉ e.name := by
  intro e he
  obtain ⟨name, hname, rfl⟩ := List.mem_map.mp he
  exact not_mem_of_mem_splitOn name hname

/-- A walk that follows its last element ends at a location without links. -/
theorem Walks.real (h : Walks tree sep dot true cur es t) (hcur : Real tree sep dot cur)
    (hes : ∀ e ∈ es, sep ∉ e.name) : Real tree sep dot t.last := by
  induction h with
  | done cur => exact hcur
  | skip hdir hskip h ih => exact ih hcur (List.forall_mem_cons.mp hes).2
  | up hdir hup h ih => exact ih hcur.dropLast (List.forall_mem_cons.mp hes).2
  | enter hdir hplain hnode hkeep h ih =>
      obtain ⟨he, hrest⟩ := List.forall_mem_cons.mp hes
      have hnone := hkeep.resolve_right fun hlast => Bool.noConfusion hlast.2
      exact ih (hcur.concat hdir ⟨hplain, he⟩ hnode hnone) hrest
  | @follow cur e rest t i path hdir hplain hnode htarget hfollow hne h ih =>
      refine ih ?_ ?_
      · unfold origin
        split
        · exact .root
        · exact hcur
      · rw [List.forall_mem_append]
        exact ⟨not_mem_elements, (List.forall_mem_cons.mp hes).2⟩

/-- A location without links is walked to by its own names. -/
theorem Real.walks {loc : Location α} (h : Real tree sep dot loc) (nested : Bool) :
    Walks tree sep dot true [] (loc.map fun name => ⟨name, nested⟩) ⟨[], loc⟩ := by
  induction h with
  | root => exact .done []
  | @concat pre name i h hdir hname hnode hlink ih =>
      rw [List.map_append, walks_append_iff (Or.inr rfl)]
      exact ⟨_, _, ih, .enter hdir hname.toPlain hnode (Or.inl hlink) (.done _), rfl⟩

/-- A name is walked in a directory, and only a link is followed from there. -/
theorem Walks.single {name : List α} {nested : Bool} (hname : Name sep dot name)
    (h : Walks tree sep dot true cur [⟨name, nested⟩] t) :
    tree.IsDir cur ∧ ∃ i, tree.node (cur ++ [name]) = some i ∧
      (tree.target i = none → t = ⟨[], cur ++ [name]⟩) := by
  cases h with
  | skip hdir hskip h => exact absurd hskip (not_or.mpr ⟨hname.ne_nil, hname.ne_dot⟩)
  | up hdir hup h => exact absurd hup hname.ne_up
  | enter hdir hplain hnode hkeep h =>
      refine ⟨hdir, _, hnode, fun _ => ?_⟩
      cases h
      rfl
  | follow hdir hplain hnode htarget hfollow hne h =>
      refine ⟨hdir, _, hnode, fun hnone => ?_⟩
      rw [htarget] at hnone
      cases hnone

theorem elements_absolute {ns : List (List α)} (h : ∀ n ∈ ns, Name sep dot n) (nested : Bool) :
    elements sep nested (absolute sep ns) =
      ⟨[], nested⟩ :: (if ns = [] then [[]] else ns).map fun name => ⟨name, nested⟩ := by
  unfold elements
  rw [splitOn_absolute h, List.map_cons]

/-- The path from the root along names is walked along these. -/
theorem walks_absolute_iff {ns : List (List α)} (hns : ∀ n ∈ ns, Name sep dot n)
    (hroot : tree.IsDir []) {nested : Bool} :
    Walks tree sep dot followLast [] (elements sep nested (absolute sep ns)) t ↔
      Walks tree sep dot followLast [] (ns.map fun name => ⟨name, nested⟩) t := by
  have hskip : ∀ (es : List (Element α)),
      Walks tree sep dot followLast [] (⟨[], nested⟩ :: es) t ↔
        Walks tree sep dot followLast [] es t := by
    refine fun es => ⟨fun h => ?_, .skip hroot (Or.inl rfl)⟩
    cases h with
    | skip hdir hskip h => exact h
    | up hdir hup h => cases hup
    | enter hdir hplain hnode hkeep h => exact absurd rfl hplain.ne_nil
    | follow hdir hplain hnode htarget hfollow hne h => exact absurd rfl hplain.ne_nil
  rw [elements_absolute hns, hskip]
  split
  · rename_i hnil
    rw [hnil]
    exact hskip []
  · rfl

end Tymux.Lib.LinkWalk
