import Tymux.Model.SocketTrust

/-!
# Which sockets are trusted

The loop looks at the links that are elements of the path itself; the directory is then resolved
through whatever these lead to. So what the check accepts is trusted but for the links inside the
targets of others (`checkSocketTrust_eq_none_iff`), and it is trusted altogether if and only if none
of these is of somebody else.
-/

set_option autoImplicit false

namespace Tymux.Analysis.TrustedSockets

open Tymux.Model Tymux.Lib FileSystem

/-! ## What trusted means -/

variable {fs : FileSystem} {pol : TrustPolicy} {path : OsString}

/-- The link is of the caller, of root or of somebody trusted. -/
def Allowed (pol : TrustPolicy) (l : LinkWalk.Followed Inode) : Prop :=
  pol.allows l.link.uid.toNat = true

/-- What may be the owners of a directory and of the socket in it: one who is allowed, where nobody
else writes in the directory; or, in a sticky one that everybody writes in, one who is allowed and,
for the socket, not because of being root.
SRC: trust_unix.go:31-36 -/
def OwnersAllowed (pol : TrustPolicy) (dir socket : Inode) : Prop :=
  (dir.mode.perm &&& 0o002 = 0 ∧ dir.mode.perm &&& 0o020 = 0 ∧ socket.uid = dir.uid ∧
    pol.allows dir.uid.toNat = true) ∨
  (dir.mode.perm &&& 0o002 ≠ 0 ∧ dir.mode.sticky = true ∧ pol.allows dir.uid.toNat = true ∧
    pol.allowsNonRoot socket.uid.toNat = true)

/-- The path leads to a socket. -/
def SocketAt (fs : FileSystem) (path : OsString) : Prop :=
  ∃ t i, fs.resolve true maxSymlinks path = some t ∧ fs.node t.last = some i ∧ i.mode.type = .socket

/-- The path is absolute and clean, it is no link itself, the links to its directory that are `Seen`
are allowed, and so are the owners of the directory and of the socket.
SRC: trust_unix.go:27-37 -/
structure Trusted (fs : FileSystem) (pol : TrustPolicy) (path : OsString)
    (Seen : LinkWalk.Followed Inode → Prop) : Prop where
  absolute : UnixPath.IsAbs slash path
  clean : UnixPath.clean slash period path = path
  final : ∃ fi, fs.lstat path = some fi ∧ fi.mode.type ≠ .symlink
  directory : ∃ d t dir socket, fs.resolve true maxSymlinks (UnixPath.dir slash period path) = some d ∧
    fs.resolve true maxSymlinks path = some t ∧ fs.node d.last = some dir ∧
    fs.node t.last = some socket ∧ (∀ l ∈ d.links, Seen l → Allowed pol l) ∧
    OwnersAllowed pol dir socket

/-! ## Walking in the filesystem -/

variable {ns ms : List OsString} {e : OsString} {i : Inode} {t d : LinkWalk.Trail UInt8 Inode}

/-- The elements of the path itself. -/
abbrev own (ns : List OsString) : List (LinkWalk.Element UInt8) := ns.map fun name => ⟨name, false⟩

abbrev Leads (fs : FileSystem) (cur : LinkWalk.Location UInt8)
    (es : List (LinkWalk.Element UInt8)) (t : LinkWalk.Trail UInt8 Inode) : Prop :=
  LinkWalk.Walks fs.tree slash period true cur es t

abbrev Names (ns : List OsString) : Prop := ∀ n ∈ ns, UnixPath.Name slash period n

theorem isDir_root (fs : FileSystem) : fs.tree.IsDir [] := by
  obtain ⟨i, hroot, hdir⟩ := fs.root
  unfold LinkWalk.Tree.IsDir tree
  dsimp only
  rw [hroot, Option.any_some, decide_eq_true hdir]

theorem isDir_iff {cur : LinkWalk.Location UInt8} :
    fs.tree.IsDir cur ↔ ∃ i, fs.node cur = some i ∧ i.mode.type = .directory := by
  unfold LinkWalk.Tree.IsDir tree
  dsimp only
  rw [Option.any_eq_true]
  exact exists_congr fun i => and_congr_right fun _ => decide_eq_true_iff

theorem target_eq_none_iff : fs.tree.target i = none ↔ i.mode.type ≠ .symlink := by
  unfold tree
  dsimp only
  rw [ite_eq_right_iff]
  exact ⟨fun h hlink => Option.some_ne_none _ (h hlink), fun h hlink => absurd hlink h⟩

theorem resolve_absolute {followLast : Bool} {bound : ℕ} (hns : Names ns) :
    fs.resolve followLast bound (UnixPath.absolute slash ns) = some t ↔
      LinkWalk.Walks fs.tree slash period followLast [] (own ns) t ∧ t.links.length ≤ bound := by
  unfold resolve
  rw [LinkWalk.walk_eq_some_iff, LinkWalk.walks_absolute_iff hns (isDir_root fs)]

/-- What `lstat` says of a name in a directory that names lead to. -/
theorem lstat_absolute (hns : Names ns) (he : UnixPath.Name slash period e) (h : Leads fs [] (own ns) t)
    (hlen : t.links.length ≤ maxSymlinks) (hdir : fs.tree.IsDir t.last)
    (hnode : fs.node (t.last ++ [e]) = some i) :
    fs.lstat (UnixPath.absolute slash (ns ++ [e])) = some (info i) := by
  have hall : Names (ns ++ [e]) := by
    rw [Names, List.forall_mem_append, List.forall_mem_singleton]
    exact ⟨hns, he⟩
  have hwalks : LinkWalk.Walks fs.tree slash period false [] (own (ns ++ [e])) ⟨t.links, t.last ++ [e]⟩ := by
    rw [own, List.map_append, List.map_singleton, LinkWalk.walks_append_iff (Or.inl (List.cons_ne_nil _ _))]
    refine ⟨t, ⟨[], t.last ++ [e]⟩, h, ?_, by rw [List.append_nil]⟩
    exact .enter hdir he.toPlain hnode (Or.inr ⟨rfl, rfl⟩) (.done _)
  unfold FileSystem.lstat
  rw [(resolve_absolute hall).mpr ⟨hwalks, hlen⟩, Option.bind_some, hnode, Option.map_some]

/-! ## The loop -/

/-- One round of the loop, where `lstat` finds the inode. -/
theorem checkElements_cons {cur : OsString} {rest : List OsString}
    (h : fs.lstat (UnixPath.join slash period [cur, e]) = some (info i)) :
    checkElements pol fs.osFS cur (e :: rest) =
      if i.mode.type ≠ .symlink then
        checkElements pol fs.osFS (UnixPath.join slash period [cur, e]) rest
      else if rest = [] then some (some (.socketLink (UnixPath.join slash period [cur, e])))
      else if pol.allows i.uid.toNat = true then
        checkElements pol fs.osFS (UnixPath.join slash period [cur, e]) rest
      else some (some (.linkOwner (UnixPath.join slash period [cur, e]) i.uid.toNat)) := by
  have hlstat : fs.osFS.lstat (UnixPath.join slash period [cur, e]) = some (info i) := h
  have howner : ownerUID (info i) = ((i.uid.toNat : ℤ), true) := rfl
  have htype : (info i).mode = i.mode := rfl
  rw [checkElements]
  dsimp only
  rw [hlstat]
  dsimp only
  rw [howner, htype]
  dsimp only
  cases pol.allows i.uid.toNat with
  | true => rfl
  | false => rfl

/-- The loop goes through if and only if the links that are elements themselves are allowed and the
last element is none; and it does not give up. -/
theorem checkElements_eq_none_iff {pre : List OsString} {p : LinkWalk.Trail UInt8 Inode}
    (hpre : Names pre) (hms : Names ms) (he : UnixPath.Name slash period e)
    (hto : Leads fs [] (own pre) p) (hfrom : Leads fs p.last (own ms) d)
    (hlen : p.links.length + d.links.length ≤ maxSymlinks) (hdir : fs.tree.IsDir d.last)
    (hnode : fs.node (d.last ++ [e]) = some i) :
    (checkElements pol fs.osFS (UnixPath.absolute slash pre) (ms ++ [e]) = none ↔
      (∀ l ∈ d.links, l.nested = false → Allowed pol l) ∧ i.mode.type ≠ .symlink) ∧
    checkElements pol fs.osFS (UnixPath.absolute slash pre) (ms ++ [e]) ≠ some none := by
  have hrefused : ∀ (u : Untrusted) (P : Prop), ¬ P →
      ((some (some u) : Option (Option Untrusted)) = none ↔ P) ∧ some (some u) ≠ some none := by
    refine fun u P hP => ⟨iff_of_false (Option.some_ne_none _) hP, ?_⟩
    rw [ne_eq, Option.some_inj]
    exact Option.some_ne_none _
  induction ms generalizing pre p d with
  | nil =>
      cases hfrom
      have hlstat := lstat_absolute hpre he hto hlen hdir hnode
      rw [← UnixPath.join_absolute hpre he] at hlstat
      rw [List.nil_append, checkElements_cons hlstat]
      by_cases hlink : i.mode.type = .symlink
      · rw [if_neg (not_not.mpr hlink), if_pos rfl]
        exact hrefused _ _ fun h => h.2 hlink
      · rw [if_pos hlink]
        exact ⟨iff_of_true rfl ⟨fun l hl => absurd hl List.not_mem_nil, hlink⟩, (Option.some_ne_none _).symm⟩
  | cons r ms ih =>
      obtain ⟨hr, hms⟩ := List.forall_mem_cons.mp hms
      have hnext : Names (pre ++ [r]) := by
        rw [Names, List.forall_mem_append, List.forall_mem_singleton]
        exact ⟨hpre, hr⟩
      have hle : p.links.length ≤ maxSymlinks := (Nat.le_add_right _ _).trans hlen
      cases hfrom with
      | skip hdir' hskip h => exact absurd hskip (not_or.mpr ⟨hr.ne_nil, hr.ne_dot⟩)
      | up hdir' hup h => exact absurd hup hr.ne_up
      | @enter _ _ _ _ j hdir' hplain hnode' hkeep h =>
          have hnone : fs.tree.target j = none := hkeep.resolve_right fun hlast => Bool.noConfusion hlast.2
          have hlstat := lstat_absolute hpre hr hto hle hdir' hnode'
          rw [← UnixPath.join_absolute hpre hr] at hlstat
          have hto' : Leads fs [] (own (pre ++ [r])) ⟨p.links, p.last ++ [r]⟩ := by
            rw [own, List.map_append, List.map_singleton]
            refine LinkWalk.walks_append_iff (Or.inr rfl) |>.mpr
              ⟨p, ⟨[], p.last ++ [r]⟩, hto, ?_, by rw [List.append_nil]⟩
            exact .enter hdir' hr.toPlain hnode' (Or.inl hnone) (.done _)
          rw [List.cons_append, checkElements_cons hlstat, if_pos (target_eq_none_iff.mp hnone),
            UnixPath.join_absolute hpre hr]
          exact ih hnext hms hto' h hlen hdir hnode
      | @follow _ _ _ d' j target hdir' hplain hnode' htarget hfollow hne h =>
          have hlink : j.mode.type = .symlink := by
            by_contra hlink
            rw [target_eq_none_iff.mpr hlink] at htarget
            cases htarget
          have hlstat := lstat_absolute hpre hr hto hle hdir' hnode'
          rw [← UnixPath.join_absolute hpre hr] at hlstat
          -- first the target, along links that are nested, and then the elements that are left
          obtain ⟨d₁, d₂, h₁, h₂, rfl⟩ := (LinkWalk.walks_append_iff (Or.inr rfl)).mp h
          have hnested : ∀ l ∈ d₁.links, l.nested = true := by
            refine h₁.nested fun x hx => ?_
            obtain ⟨name, _, rfl⟩ := List.mem_map.mp hx
            rfl
          have hto' : Leads fs [] (own (pre ++ [r])) ⟨p.links ++ ⟨j, false⟩ :: d₁.links, d₁.last⟩ := by
            rw [own, List.map_append, List.map_singleton]
            refine LinkWalk.walks_append_iff (Or.inr rfl) |>.mpr
              ⟨p, ⟨⟨j, false⟩ :: d₁.links, d₁.last⟩, hto, ?_, rfl⟩
            exact .follow hdir' hr.toPlain hnode' htarget (Or.inr rfl) hne (by rwa [List.append_nil])
          have hlen' : (p.links ++ ⟨j, false⟩ :: d₁.links).length + d₂.links.length ≤ maxSymlinks := by
            simp only [List.length_append, List.length_cons] at hlen ⊢
            omega
          have hlinks : (∀ l ∈ ⟨j, false⟩ :: (d₁.links ++ d₂.links), l.nested = false → Allowed pol l) ↔
              pol.allows j.uid.toNat = true ∧ ∀ l ∈ d₂.links, l.nested = false → Allowed pol l := by
            rw [List.forall_mem_cons, List.forall_mem_append]
            refine and_congr ⟨fun h => h rfl, fun h _ => h⟩ (and_iff_right fun l hl hown => ?_)
            rw [hnested l hl] at hown
            cases hown
          have hrest : ms ++ [e] ≠ [] := List.append_ne_nil_of_right_ne_nil _ (List.cons_ne_nil _ _)
          rw [List.cons_append, checkElements_cons hlstat, if_neg (not_not.mpr hlink), if_neg hrest, hlinks,
            UnixPath.join_absolute hpre hr]
          by_cases hallows : pol.allows j.uid.toNat = true
          · rw [if_pos hallows, and_iff_right hallows]
            exact ih hnext hms hto' h₂ hlen' hdir hnode
          · rw [if_neg hallows]
            exact hrefused _ _ fun h => hallows h.1.1

/-! ## The rest of the check -/

/-- Without the root, the elements of the path are its names. -/
theorem splitOn_trim_absolute (hns : Names ns) (hne : ns ≠ []) :
    (Model.trim slash (UnixPath.absolute slash ns)).splitOn slash = ns := by
  have hfree : ∀ n ∈ ns, slash ∉ n := fun n hn => (hns n hn).sep_not_mem
  have hends : ∀ x : OsString, x ≠ [] → slash ∉ x → ∃ c rest, x = c :: rest ∧ decide (c = slash) = false := by
    intro x hx hslash
    obtain ⟨c, rest, rfl⟩ := List.exists_cons_of_ne_nil hx
    exact ⟨c, rest, rfl, decide_eq_false fun heq => hslash (heq ▸ List.mem_cons_self)⟩
  have hhead : ([slash].intercalate ns).dropWhile (· = slash) = [slash].intercalate ns := by
    obtain ⟨n, others, rfl⟩ := List.exists_cons_of_ne_nil hne
    obtain ⟨c, rest, rfl, hc⟩ := hends n (hns n List.mem_cons_self).ne_nil (hfree n List.mem_cons_self)
    obtain ⟨more, hmore⟩ := intercalate_cons [slash] (c :: rest) others
    rw [hmore, List.cons_append, List.dropWhile_cons_of_neg (by rw [hc]; exact Bool.false_ne_true)]
  have hlast : ([slash].intercalate ns).reverse.dropWhile (· = slash) = ([slash].intercalate ns).reverse := by
    obtain ⟨init, n, rfl⟩ := (List.eq_nil_or_concat ns).resolve_left hne
    have hmem : n ∈ init.concat n := by simp
    have hrev : slash ∉ n.reverse := fun h => hfree n hmem (List.mem_reverse.mp h)
    obtain ⟨c, rest, heq, hc⟩ := hends n.reverse (List.reverse_ne_nil_iff.mpr (hns n hmem).ne_nil) hrev
    rw [List.concat_eq_append, intercalate_concat, List.reverse_append, heq, List.cons_append,
      List.dropWhile_cons_of_neg (by rw [hc]; exact Bool.false_ne_true)]
  have htrim : Model.trim slash (UnixPath.absolute slash ns) = [slash].intercalate ns := by
    unfold Model.trim UnixPath.absolute
    rw [List.dropWhile_cons_of_pos (by simp), hhead, hlast, List.reverse_reverse]
  rw [htrim, List.splitOn_intercalate slash hfree hne]

theorem checkOwners_eq_none_iff {dirPath : OsString} {dir socket : Inode} :
    checkOwners pol path dirPath (info dir) (info socket) = none ↔ OwnersAllowed pol dir socket := by
  have hdir : ownerUID (info dir) = ((dir.uid.toNat : ℤ), true) := rfl
  have hsocket : ownerUID (info socket) = ((socket.uid.toNat : ℤ), true) := rfl
  have hmode : (info dir).mode = dir.mode := rfl
  have hsame : (socket.uid.toNat : ℤ) = (dir.uid.toNat : ℤ) ↔ socket.uid = dir.uid := by
    rw [← UInt32.toNat_inj]
    omega
  unfold checkOwners OwnersAllowed
  dsimp only
  rw [hdir, hsocket, hmode]
  dsimp only
  rw [Bool.not_true, Bool.or_self, if_neg Bool.false_ne_true]
  by_cases hworld : dir.mode.perm &&& 0o002 = 0
  · have hshared : ¬ (dir.mode.perm &&& 0o002 ≠ 0) := not_not.mpr hworld
    rw [if_neg hshared, or_iff_left fun h => hshared h.1, and_iff_right hworld]
    by_cases hgroup : dir.mode.perm &&& 0o020 = 0
    · rw [if_neg (not_not.mpr hgroup), and_iff_right hgroup]
      by_cases howner : socket.uid = dir.uid
      · have hequal : ¬ (socket.uid.toNat : ℤ) ≠ dir.uid.toNat := not_not.mpr (hsame.mpr howner)
        rw [if_neg hequal, and_iff_right howner]
        cases pol.allows dir.uid.toNat <;> simp
      · have hdiffer : (socket.uid.toNat : ℤ) ≠ dir.uid.toNat := mt hsame.mp howner
        rw [if_pos hdiffer]
        exact iff_of_false (Option.some_ne_none _) fun h => howner h.1
    · have hgroup' : dir.mode.perm &&& 0o020 ≠ 0 := hgroup
      rw [if_pos hgroup']
      exact iff_of_false (Option.some_ne_none _) fun h => hgroup h.1
  · have hshared : dir.mode.perm &&& 0o002 ≠ 0 := hworld
    rw [if_pos hshared, or_iff_right fun h => hshared h.1, and_iff_right hshared]
    cases dir.mode.sticky <;> cases pol.allows dir.uid.toNat <;>
      cases pol.allowsNonRoot socket.uid.toNat <;> simp

/-! ## A path that is found -/

variable {dir : Inode}

/-- The names of the path, the directory that they lead to and what is there under the last. -/
structure Found (fs : FileSystem) (path : OsString) (ns : List OsString) (e : OsString)
    (d : LinkWalk.Trail UInt8 Inode) (dir i : Inode) : Prop where
  text : path = UnixPath.absolute slash (ns ++ [e])
  names : Names ns
  name : UnixPath.Name slash period e
  leads : Leads fs [] (own ns) d
  few : d.links.length ≤ maxSymlinks
  directory : fs.node d.last = some dir ∧ dir.mode.type = .directory
  node : fs.node (d.last ++ [e]) = some i
  ends : i.mode.type ≠ .symlink → fs.resolve true maxSymlinks path = some ⟨d.links, d.last ++ [e]⟩

theorem exists_found (hsock : SocketAt fs path) (habs : UnixPath.IsAbs slash path)
    (hclean : UnixPath.clean slash period path = path) : ∃ ns e d dir i, Found fs path ns e d dir i := by
  obtain ⟨t, socket, hresolve, hsocket, htype⟩ := hsock
  obtain ⟨names, rfl, hnames⟩ := UnixPath.exists_absolute habs hclean
  obtain ⟨hwalks, hlen⟩ := (resolve_absolute hnames).mp hresolve
  rcases List.eq_nil_or_concat names with rfl | ⟨ns, e, rfl⟩
  · -- the root is a directory
    cases hwalks
    obtain ⟨root, hroot, hdir⟩ := fs.root
    rw [hroot, Option.some_inj] at hsocket
    rw [hsocket, htype] at hdir
    cases hdir
  · rw [List.concat_eq_append] at hnames hwalks hresolve ⊢
    obtain ⟨hns, he⟩ := List.forall_mem_append.mp hnames
    rw [List.forall_mem_singleton] at he
    rw [own, List.map_append, List.map_singleton] at hwalks
    obtain ⟨d, last, hd, hlast, rfl⟩ := (LinkWalk.walks_append_iff (Or.inr rfl)).mp hwalks
    obtain ⟨hdir, i, hnode, hend⟩ := hlast.single he
    obtain ⟨dir, hdirectory⟩ := isDir_iff.mp hdir
    rw [List.length_append] at hlen
    refine ⟨ns, e, d, dir, i, rfl, hns, he, hd, (Nat.le_add_right _ _).trans hlen, hdirectory, hnode,
      fun hlink => ?_⟩
    rw [hend (target_eq_none_iff.mpr hlink), List.append_nil] at hresolve
    exact hresolve

namespace Found

theorem isAbs (h : Found fs path ns e d dir i) : UnixPath.IsAbs slash path := by
  rw [h.text]
  exact UnixPath.isAbs_absolute

theorem all (h : Found fs path ns e d dir i) : Names (ns ++ [e]) := by
  rw [Names, List.forall_mem_append, List.forall_mem_singleton]
  exact ⟨h.names, h.name⟩

theorem clean_eq (h : Found fs path ns e d dir i) : UnixPath.clean slash period path = path := by
  rw [h.text]
  exact UnixPath.clean_absolute h.all

theorem dir_eq (h : Found fs path ns e d dir i) :
    UnixPath.dir slash period path = UnixPath.absolute slash ns := by
  rw [h.text]
  exact UnixPath.dir_absolute h.names h.name.sep_not_mem

theorem isDir (h : Found fs path ns e d dir i) : fs.tree.IsDir d.last := isDir_iff.mpr ⟨dir, h.directory⟩

theorem lstat_eq (h : Found fs path ns e d dir i) : fs.lstat path = some (info i) := by
  rw [h.text]
  exact lstat_absolute h.names h.name h.leads h.few h.isDir h.node

theorem resolve_dir (h : Found fs path ns e d dir i) {bound : ℕ} (hbound : maxSymlinks ≤ bound) :
    fs.resolve true bound (UnixPath.dir slash period path) = some d := by
  rw [h.dir_eq, resolve_absolute h.names]
  exact ⟨h.leads, h.few.trans hbound⟩

theorem trusted_iff (h : Found fs path ns e d dir i) {Seen : LinkWalk.Followed Inode → Prop} :
    Trusted fs pol path Seen ↔ (∀ l ∈ d.links, Seen l → Allowed pol l) ∧ i.mode.type ≠ .symlink ∧
      OwnersAllowed pol dir i := by
  constructor
  · rintro ⟨_, _, ⟨fi, hfi, hlink⟩, d', t, dir', socket, hd, ht, hdir, hsocket, hlinks, howners⟩
    rw [h.lstat_eq, Option.some_inj] at hfi
    rw [← hfi] at hlink
    rw [h.resolve_dir le_rfl, Option.some_inj] at hd
    rw [h.ends hlink, Option.some_inj] at ht
    rw [← hd, h.directory.1, Option.some_inj] at hdir
    rw [← ht, h.node, Option.some_inj] at hsocket
    rw [← hdir, ← hsocket] at howners
    rw [← hd] at hlinks
    exact ⟨hlinks, hlink, howners⟩
  · rintro ⟨hlinks, hlink, howners⟩
    exact ⟨h.isAbs, h.clean_eq, ⟨info i, h.lstat_eq, hlink⟩, d, _, dir, i, h.resolve_dir le_rfl,
      h.ends hlink, h.directory.1, h.node, hlinks, howners⟩

/-- What the check finds of the directory that the path leads to. -/
theorem check_eq_none_iff (h : Found fs path ns e d dir i) :
    checkSocketTrust path pol fs.osFS = none ↔
      (∀ l ∈ d.links, l.nested = false → Allowed pol l) ∧ i.mode.type ≠ .symlink ∧
        OwnersAllowed pol dir i := by
  have hpath : ¬ (path = [] ∨ ¬ UnixPath.IsAbs slash path ∨ UnixPath.clean slash period path ≠ path) := by
    rintro (rfl | habs | hclean)
    · exact Option.some_ne_none _ h.isAbs.symm
    · exact habs h.isAbs
    · exact hclean h.clean_eq
  have helements : (Model.trim slash path).splitOn slash = ns ++ [e] := by
    rw [h.text]
    exact splitOn_trim_absolute h.all (List.append_ne_nil_of_right_ne_nil _ (List.cons_ne_nil _ _))
  have hroot : Names [] := fun _ hn => absurd hn List.not_mem_nil
  have hloop : (checkElements pol fs.osFS [slash] (ns ++ [e]) = none ↔
      (∀ l ∈ d.links, l.nested = false → Allowed pol l) ∧ i.mode.type ≠ .symlink) ∧
      checkElements pol fs.osFS [slash] (ns ++ [e]) ≠ some none :=
    checkElements_eq_none_iff hroot h.names h.name (.done []) h.leads
      (by rw [List.length_nil, Nat.zero_add]; exact h.few) h.isDir h.node
  have hreal := h.leads.real .root fun x hx => by
    obtain ⟨name, hname, rfl⟩ := List.mem_map.mp hx
    exact (h.names name hname).sep_not_mem
  have heval : fs.osFS.eval (UnixPath.dir slash period path) = some (UnixPath.absolute slash d.last) := by
    have hfew : maxSymlinks ≤ maxLinksWalked := by decide
    change fs.eval _ = _
    unfold FileSystem.eval
    rw [h.resolve_dir hfew, Option.map_some]
  have hstat : fs.osFS.stat (UnixPath.absolute slash d.last) = some (info dir) := by
    change fs.stat _ = _
    unfold FileSystem.stat
    rw [(resolve_absolute hreal.names).mpr ⟨hreal.walks false, Nat.zero_le _⟩, Option.bind_some,
      h.directory.1, Option.map_some]
  have hlstat : fs.osFS.lstat (UnixPath.join slash period
      [UnixPath.absolute slash d.last, UnixPath.base slash period path]) = some (info i) := by
    rw [h.text, UnixPath.base_absolute h.name, UnixPath.join_absolute hreal.names h.name]
    exact lstat_absolute hreal.names h.name (hreal.walks false) (Nat.zero_le _) h.isDir h.node
  unfold checkSocketTrust
  rw [if_neg hpath]
  dsimp only
  rw [helements, ← and_assoc, ← hloop.1]
  cases hresult : checkElements pol fs.osFS [slash] (ns ++ [e]) with
  | some result =>
      refine iff_of_false (fun hnone => hloop.2 ?_) fun hnone => Option.some_ne_none _ hnone.1
      have hsame : result = none := hnone
      rw [hresult, hsame]
  | none =>
      dsimp only
      rw [heval]
      dsimp only
      rw [hstat]
      dsimp only
      rw [hlstat, and_iff_right rfl]
      exact checkOwners_eq_none_iff

end Found

/-! ## The links inside targets -/

/-- A path that is not absolute and clean is refused. -/
theorem refused_of_not_clean (f : TrustFS)
    (h : ¬ (UnixPath.IsAbs slash path ∧ UnixPath.clean slash period path = path)) :
    checkSocketTrust path pol f ≠ none := by
  rw [not_and_or] at h
  unfold checkSocketTrust
  rw [if_pos (Or.inr h)]
  exact Option.some_ne_none _

/-- The check accepts what is trusted as far as the links that are elements of the path itself are
concerned. -/
theorem checkSocketTrust_eq_none_iff (hsock : SocketAt fs path) :
    checkSocketTrust path pol fs.osFS = none ↔ Trusted fs pol path fun l => l.nested = false := by
  by_cases hclean : UnixPath.IsAbs slash path ∧ UnixPath.clean slash period path = path
  · obtain ⟨ns, e, d, dir, i, hfound⟩ := exists_found hsock hclean.1 hclean.2
    rw [hfound.check_eq_none_iff, hfound.trusted_iff]
  · exact iff_of_false (refused_of_not_clean fs.osFS hclean) fun h => hclean ⟨h.absolute, h.clean⟩

/-- The links that are met in the targets of others, on the way to the directory, are allowed. -/
def NestedAllowed (fs : FileSystem) (pol : TrustPolicy) (path : OsString) : Prop :=
  ∀ d, fs.resolve true maxSymlinks (UnixPath.dir slash period path) = some d →
    ∀ l ∈ d.links, l.nested = true → Allowed pol l

/-- INTERNAL: **Trusted sockets.** What the check accepts is trusted, with every link to the
directory, if and only if, where all else is as it should be, the links inside the targets of others
are allowed as well.
SRC: trust_unix.go:27-104 -/
theorem accepted_is_trusted (fs : FileSystem) (pol : TrustPolicy) (path : OsString)
    (hsock : SocketAt fs path) :
    (checkSocketTrust path pol fs.osFS = none → Trusted fs pol path fun _ => True) ↔
      ((Trusted fs pol path fun l => l.nested = false) → NestedAllowed fs pol path) := by
  rw [checkSocketTrust_eq_none_iff hsock]
  refine forall_congr' fun hown => ?_
  obtain ⟨ns, e, d, dir, i, hfound⟩ := exists_found hsock hown.absolute hown.clean
  obtain ⟨howns, hlink, howners⟩ := hfound.trusted_iff.mp hown
  rw [hfound.trusted_iff]
  constructor
  · rintro ⟨hall, _, _⟩ d' hd' l hl _
    rw [hfound.resolve_dir le_rfl, Option.some_inj] at hd'
    rw [← hd'] at hl
    exact hall l hl trivial
  · intro hnested
    refine ⟨fun l hl _ => ?_, hlink, howners⟩
    cases hkind : l.nested with
    | false => exact howns l hl hkind
    | true => exact hnested d (hfound.resolve_dir le_rfl) l hl hkind

/-- The caller is 501, whose link `/home/u/link` leads through `/srv/hop`, which is a link of 666, back
to a directory of the caller. -/
def hop : FileSystem where
  node loc :=
    [([], (⟨⟨.directory, false, 0o755⟩, 0, []⟩ : Inode)),
      ([osString "home"], ⟨⟨.directory, false, 0o755⟩, 0, []⟩),
      ([osString "srv"], ⟨⟨.directory, false, 0o755⟩, 0, []⟩),
      ([osString "home", osString "u"], ⟨⟨.directory, false, 0o700⟩, 501, []⟩),
      ([osString "home", osString "u", osString "link"],
        ⟨⟨.symlink, false, 0o777⟩, 501, osString "/srv/hop/d"⟩),
      ([osString "srv", osString "hop"], ⟨⟨.symlink, false, 0o777⟩, 666, osString "/home/u"⟩),
      ([osString "home", osString "u", osString "d"], ⟨⟨.directory, false, 0o700⟩, 501, []⟩),
      ([osString "home", osString "u", osString "d", osString "s"],
        ⟨⟨.socket, false, 0o600⟩, 501, []⟩)].lookup loc
  root := ⟨_, rfl, rfl⟩

theorem socketAt_hop : SocketAt hop (osString "/home/u/link/s") := by
  refine ⟨⟨[⟨⟨⟨.symlink, false, 0o777⟩, 501, osString "/srv/hop/d"⟩, false⟩,
      ⟨⟨⟨.symlink, false, 0o777⟩, 666, osString "/home/u"⟩, true⟩],
    [osString "home", osString "u", osString "d", osString "s"]⟩, _, ?_, rfl, rfl⟩
  decide +kernel

/-- The check accepts the socket behind a link of somebody else. -/
theorem accepted_is_trusted_hop :
    SocketAt hop (osString "/home/u/link/s") ∧
    checkSocketTrust (osString "/home/u/link/s") ⟨501, []⟩ hop.osFS = none ∧
    ¬ Trusted hop ⟨501, []⟩ (osString "/home/u/link/s") fun _ => True := by
  refine ⟨socketAt_hop, by decide +kernel, fun h => ?_⟩
  obtain ⟨d, _, _, _, hd, _, _, _, hlinks, _⟩ := h.directory
  have hresolve : hop.resolve true maxSymlinks (UnixPath.dir slash period (osString "/home/u/link/s")) =
      some ⟨[⟨⟨⟨.symlink, false, 0o777⟩, 501, osString "/srv/hop/d"⟩, false⟩,
        ⟨⟨⟨.symlink, false, 0o777⟩, 666, osString "/home/u"⟩, true⟩],
        [osString "home", osString "u", osString "d"]⟩ := by
    decide +kernel
  rw [hresolve, Option.some_inj] at hd
  rw [← hd] at hlinks
  have hforeign := hlinks _ (List.mem_cons_of_mem _ List.mem_cons_self) trivial
  revert hforeign
  unfold Allowed
  decide +kernel

theorem accepted_is_trusted_hop_iff :
    (checkSocketTrust (osString "/home/u/link/s") ⟨501, [666]⟩ hop.osFS = none →
      Trusted hop ⟨501, [666]⟩ (osString "/home/u/link/s") fun _ => True) ↔
    ((Trusted hop ⟨501, [666]⟩ (osString "/home/u/link/s") fun l => l.nested = false) →
      NestedAllowed hop ⟨501, [666]⟩ (osString "/home/u/link/s")) :=
  accepted_is_trusted hop ⟨501, [666]⟩ (osString "/home/u/link/s") socketAt_hop

end Tymux.Analysis.TrustedSockets
