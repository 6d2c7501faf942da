import Tymux.Lib.Intercalate
import Mathlib.Data.List.Induction

/-!
# Paths as texts

A path is a text whose elements are separated by `sep`; the element `dot` stands for the directory
itself and `dot dot` for the one above it. `clean` is the lexical normal form of a path: it is told
by what it does to the elements (`cleanElements`), and those that it leaves alone are the normal ones
(`cleanElements_eq_self_iff`). `join` cleans what it joins, `push` only puts a separator between.
-/

set_option autoImplicit false

namespace Tymux.Lib.UnixPath

variable {α : Type} [DecidableEq α] (sep dot : α)

/-- The path begins with the root. -/
def IsAbs (path : List α) : Prop := path.head? = some sep

instance (path : List α) : Decidable (IsAbs sep path) :=
  inferInstanceAs (Decidable (path.head? = some sep))

/-- One element after those on the stack. Above the root is the root. -/
def cleanStep (rooted : Bool) (stack : List (List α)) (e : List α) : List (List α) :=
  if e = [] ∨ e = [dot] then stack
  else if e = [dot, dot] then
    match stack with
    | [] => if rooted then [] else [e]
    | top :: rest => if top = [dot, dot] then e :: top :: rest else rest
  else e :: stack

def cleanElements (rooted : Bool) (es : List (List α)) : List (List α) :=
  (es.foldl (cleanStep dot rooted) []).reverse

/-- The shortest path that is the same lexically. -/
def clean (path : List α) : List α :=
  let es := cleanElements dot (IsAbs sep path) (path.splitOn sep)
  if IsAbs sep path then sep :: [sep].intercalate es
  else if es = [] then [dot] else [sep].intercalate es

/-- Empty elements at the beginning are ignored. -/
def join (es : List (List α)) : List α :=
  match es.dropWhile (· = []) with
  | [] => []
  | rest => clean sep dot ([sep].intercalate rest)

/-- All but the last element. -/
def dir (path : List α) : List α :=
  clean sep dot (path.reverse.dropWhile (· ≠ sep)).reverse

/-- The last element. -/
def base (path : List α) : List α :=
  if path = [] then [dot]
  else
    let last := ((path.reverse.dropWhile (· = sep)).takeWhile (· ≠ sep)).reverse
    if last = [] then [sep] else last

/-- The path put behind a buffer, with a separator between; an absolute one replaces it. -/
def push (buf path : List α) : List α :=
  if IsAbs sep path then path
  else buf ++ (if buf.getLast?.any (· ≠ sep) then [sep] else []) ++ path

/-! ## Normal elements -/

variable {sep dot}

variable (dot) in
/-- An element that is the name of something in a directory. -/
structure Plain (e : List α) : Prop where
  ne_nil : e ≠ []
  ne_dot : e ≠ [dot]
  ne_up : e ≠ [dot, dot]

variable (dot) in
/-- Names, behind as many elements for the directory above as a path that is not rooted may begin
with. -/
structure Normal (rooted : Bool) (es : List (List α)) : Prop where
  split : ∃ ups names, es = List.replicate ups [dot, dot] ++ names ∧ (∀ e ∈ names, Plain dot e) ∧
    (rooted = true → ups = 0)

variable {rooted : Bool} {es : List (List α)} {e : List α}

omit [DecidableEq α] in
theorem normal_nil (rooted : Bool) : Normal dot rooted [] :=
  ⟨0, [], rfl, fun _ he => absurd he List.not_mem_nil, fun _ => rfl⟩

omit [DecidableEq α] in
theorem normal_true_iff : Normal dot true es ↔ ∀ e ∈ es, Plain dot e := by
  constructor
  · rintro ⟨ups, names, rfl, hnames, hups⟩
    rw [hups rfl]
    exact hnames
  · exact fun h => ⟨0, es, rfl, h, fun _ => rfl⟩

omit [DecidableEq α] in
theorem Normal.concat (h : Normal dot rooted es) (he : Plain dot e) : Normal dot rooted (es ++ [e]) := by
  obtain ⟨ups, names, rfl, hnames, hups⟩ := h
  refine ⟨ups, names ++ [e], List.append_assoc .., ?_, hups⟩
  rw [List.forall_mem_append, List.forall_mem_singleton]
  exact ⟨hnames, he⟩

omit [DecidableEq α] in
/-- The last element of a normal path is a name, or all of them lead upwards. -/
theorem Normal.cases_concat (h : Normal dot rooted (es ++ [e])) :
    (Normal dot rooted es ∧ Plain dot e) ∨
      (rooted = false ∧ e = [dot, dot] ∧ ∃ ups, es = List.replicate ups [dot, dot]) := by
  obtain ⟨ups, names, hsplit, hnames, hups⟩ := h
  rcases List.eq_nil_or_concat names with rfl | ⟨init, last, rfl⟩
  · cases ups with
    | zero => simp at hsplit
    | succ ups =>
        rw [List.append_nil, List.replicate_succ'] at hsplit
        obtain ⟨rfl, rfl⟩ := List.append_singleton_inj.mp hsplit
        refine Or.inr ⟨Bool.eq_false_iff.mpr fun hrooted => ?_, rfl, ups, rfl⟩
        cases hups hrooted
  · rw [List.concat_eq_append, ← List.append_assoc] at hsplit
    obtain ⟨rfl, rfl⟩ := List.append_singleton_inj.mp hsplit
    rw [List.concat_eq_append, List.forall_mem_append, List.forall_mem_singleton] at hnames
    exact Or.inl ⟨⟨ups, init, rfl, hnames.1, hups⟩, hnames.2⟩

omit [DecidableEq α] in
theorem normal_replicate (ups : ℕ) : Normal dot false (List.replicate ups [dot, dot]) :=
  ⟨ups, [], (List.append_nil _).symm, fun _ he => absurd he List.not_mem_nil,
    fun h => absurd h Bool.false_ne_true⟩

theorem normal_cleanStep {stack : List (List α)} (h : Normal dot rooted stack.reverse)
    (e : List α) : Normal dot rooted (cleanStep dot rooted stack e).reverse := by
  unfold cleanStep
  split
  · exact h
  · rename_i hskip
    obtain ⟨hne, hdot⟩ := not_or.mp hskip
    split
    · rename_i hup
      cases stack with
      | nil =>
          cases rooted with
          | true => exact h
          | false =>
              rw [hup]
              exact normal_replicate 1
      | cons top rest =>
          rw [List.reverse_cons] at h
          obtain ⟨hrest, htop⟩ | ⟨rfl, rfl, ups, hrest⟩ := h.cases_concat
          · dsimp only
            rw [if_neg htop.ne_up]
            exact hrest
          · dsimp only
            rw [if_pos rfl, List.reverse_cons, List.reverse_cons, hrest, hup, ← List.replicate_succ',
              ← List.replicate_succ']
            exact normal_replicate _
    · rename_i hup
      rw [List.reverse_cons]
      exact h.concat ⟨hne, hdot, hup⟩

theorem normal_foldl_cleanStep (es : List (List α)) {stack : List (List α)}
    (h : Normal dot rooted stack.reverse) :
    Normal dot rooted (es.foldl (cleanStep dot rooted) stack).reverse := by
  induction es generalizing stack with
  | nil => exact h
  | cons e es ih => exact ih (normal_cleanStep h e)

/-- What is left of any elements is normal. -/
theorem normal_cleanElements (rooted : Bool) (es : List (List α)) :
    Normal dot rooted (cleanElements dot rooted es) :=
  normal_foldl_cleanStep es (normal_nil rooted)

theorem cleanElements_append_plain (es : List (List α)) (he : Plain dot e) :
    cleanElements dot rooted (es ++ [e]) = cleanElements dot rooted es ++ [e] := by
  have hskip : ¬ (e = [] ∨ e = [dot]) := not_or.mpr ⟨he.ne_nil, he.ne_dot⟩
  have hpush : ∀ stack, cleanStep dot rooted stack e = e :: stack := by
    intro stack
    unfold cleanStep
    rw [if_neg hskip, if_neg he.ne_up]
  unfold cleanElements
  rw [List.foldl_append, List.foldl_cons, List.foldl_nil, hpush, List.reverse_cons]

theorem cleanElements_skip (es fs : List (List α)) :
    cleanElements dot rooted (es ++ [] :: fs) = cleanElements dot rooted (es ++ fs) := by
  unfold cleanElements
  rw [List.foldl_append, List.foldl_append, List.foldl_cons]
  congr 2

theorem mem_of_mem_foldl_cleanStep {stack : List (List α)}
    (h : e ∈ es.foldl (cleanStep dot rooted) stack) : e ∈ stack ∨ e ∈ es := by
  induction es generalizing stack with
  | nil => exact Or.inl h
  | cons d es ih =>
      obtain hstep | hes := ih h
      · have hstack : e ∈ stack ∨ e = d := by
          unfold cleanStep at hstep
          split at hstep
          · exact Or.inl hstep
          · split at hstep
            · cases stack with
              | nil =>
                  cases rooted with
                  | true => exact Or.inl hstep
                  | false => exact Or.inr (List.mem_singleton.mp hstep)
              | cons top rest =>
                  dsimp only at hstep
                  split at hstep
                  · exact (List.mem_cons.mp hstep).symm
                  · exact Or.inl (List.mem_cons_of_mem _ hstep)
            · exact (List.mem_cons.mp hstep).symm
        obtain hstack | rfl := hstack
        · exact Or.inl hstack
        · exact Or.inr List.mem_cons_self
      · exact Or.inr (List.mem_cons_of_mem _ hes)

theorem mem_of_mem_cleanElements (h : e ∈ cleanElements dot rooted es) : e ∈ es := by
  unfold cleanElements at h
  rw [List.mem_reverse] at h
  exact (mem_of_mem_foldl_cleanStep h).resolve_left List.not_mem_nil

theorem foldl_cleanStep_replicate (ups : ℕ) :
    (List.replicate ups [dot, dot]).foldl (cleanStep dot false) [] =
      List.replicate ups [dot, dot] := by
  induction ups with
  | zero => rfl
  | succ ups ih =>
      rw [List.replicate_succ', List.foldl_append, ih, ← List.replicate_succ', List.replicate_succ]
      cases ups with
      | zero => simp [cleanStep]
      | succ ups => simp [cleanStep, List.replicate_succ]

/-- Normal elements are those that stay as they are. -/
theorem cleanElements_eq_self_iff : cleanElements dot rooted es = es ↔ Normal dot rooted es := by
  constructor
  · intro heq
    rw [← heq]
    exact normal_cleanElements rooted es
  · rintro ⟨ups, names, rfl, hnames, hups⟩
    induction names using List.reverseRecOn with
    | nil =>
        rw [List.append_nil]
        unfold cleanElements
        cases rooted with
        | true =>
            rw [hups rfl]
            rfl
        | false => rw [foldl_cleanStep_replicate, List.reverse_replicate]
    | append_singleton names e ih =>
        rw [List.forall_mem_append, List.forall_mem_singleton] at hnames
        rw [← List.append_assoc, cleanElements_append_plain _ hnames.2, ih hnames.1]

/-! ## The text of a path -/

theorem not_mem_of_mem_splitOn {path : List α} : ∀ e ∈ path.splitOn sep, sep ∉ e := by
  induction path with
  | nil =>
      intro e he
      rw [List.splitOn_nil, List.mem_singleton] at he
      rw [he]
      exact List.not_mem_nil
  | cons c path ih =>
      intro e he
      rw [List.splitOn_cons_eq_if_modifyHead] at he
      split at he
      · obtain rfl | he := List.mem_cons.mp he
        · exact List.not_mem_nil
        · exact ih e he
      · rename_i hc
        obtain ⟨first, rest, hsplit⟩ := List.exists_cons_of_ne_nil (List.splitOn_ne_nil sep path)
        rw [hsplit, List.forall_mem_cons] at ih
        rw [hsplit, List.modifyHead_cons] at he
        obtain rfl | he := List.mem_cons.mp he
        · rw [List.mem_cons, not_or]
          exact ⟨fun heq => hc (by rw [heq, beq_self_eq_true]), ih.1⟩
        · exact ih.2 e he

variable (sep dot) in
/-- The name of something in a directory, which a path may have as an element. -/
structure Name (e : List α) : Prop extends Plain dot e where
  sep_not_mem : sep ∉ e

variable (sep) in
/-- The path from the root along these names. -/
def absolute (ns : List (List α)) : List α := sep :: [sep].intercalate ns

variable {ns : List (List α)}

omit [DecidableEq α] in
theorem isAbs_absolute : IsAbs sep (absolute sep ns) := rfl

theorem splitOn_absolute (h : ∀ n ∈ ns, Name sep dot n) :
    (absolute sep ns).splitOn sep = [] :: if ns = [] then [[]] else ns := by
  have hroot : (absolute sep ns).splitOn sep = [] :: ([sep].intercalate ns).splitOn sep :=
    List.splitOn_append_cons_self_of_not_mem (List.not_mem_nil) _
  rw [hroot]
  split
  · rename_i hns
    rw [hns, List.intercalate_nil, List.splitOn_nil]
  · rename_i hns
    rw [List.splitOn_intercalate sep (fun n hn => (h n hn).sep_not_mem) hns]

/-- An absolute path that is clean goes along names. -/
theorem exists_absolute {path : List α} (habs : IsAbs sep path) (hclean : clean sep dot path = path) :
    ∃ ns, path = absolute sep ns ∧ ∀ n ∈ ns, Name sep dot n := by
  unfold clean at hclean
  dsimp only at hclean
  rw [if_pos habs, decide_eq_true habs] at hclean
  refine ⟨_, hclean.symm, fun n hn => ?_⟩
  have hplain := normal_true_iff.mp (normal_cleanElements true (path.splitOn sep)) n hn
  exact ⟨hplain, not_mem_of_mem_splitOn n (mem_of_mem_cleanElements hn)⟩

theorem clean_absolute (h : ∀ n ∈ ns, Name sep dot n) :
    clean sep dot (absolute sep ns) = absolute sep ns := by
  have hkept : cleanElements dot true ([] :: if ns = [] then [[]] else ns) = ns := by
    have hskip := @cleanElements_skip _ _ dot true [] (if ns = [] then [[]] else ns)
    rw [List.nil_append, List.nil_append] at hskip
    rw [hskip]
    split
    · rename_i hns
      rw [hns]
      rfl
    · exact cleanElements_eq_self_iff.mpr (normal_true_iff.mpr fun n hn => (h n hn).toPlain)
  unfold clean
  dsimp only
  rw [if_pos isAbs_absolute, decide_eq_true isAbs_absolute, splitOn_absolute h, hkept]
  rfl

omit [DecidableEq α] in
/-- The text up to the last separator, and the last name behind it. -/
theorem absolute_concat (ns : List (List α)) (e : List α) :
    absolute sep (ns ++ [e]) = (if ns = [] then [sep] else absolute sep ns ++ [sep]) ++ e := by
  unfold absolute
  rw [intercalate_concat]
  cases ns with
  | nil => rfl
  | cons n ns => simp

theorem join_absolute (h : ∀ n ∈ ns, Name sep dot n) (he : Name sep dot e) :
    join sep dot [absolute sep ns, e] = absolute sep (ns ++ [e]) := by
  have hall : ∀ n ∈ ns ++ [e], Name sep dot n := by
    rw [List.forall_mem_append, List.forall_mem_singleton]
    exact ⟨h, he⟩
  have hkeep : [absolute sep ns, e].dropWhile (· = []) = [absolute sep ns, e] := rfl
  unfold join
  rw [hkeep]
  dsimp only
  rw [List.intercalate_cons_cons, List.intercalate_singleton]
  by_cases hns : ns = []
  · -- the root ends with a separator of its own
    subst hns
    have hroot : absolute sep [] ++ [sep] ++ e = sep :: sep :: e := rfl
    have hsplit : (sep :: sep :: e).splitOn sep = [[], [], e] := by
      have hfirst : (sep :: sep :: e).splitOn sep = [] :: (sep :: e).splitOn sep :=
        List.splitOn_append_cons_self_of_not_mem (List.not_mem_nil) _
      have hsecond : (sep :: e).splitOn sep = [] :: e.splitOn sep :=
        List.splitOn_append_cons_self_of_not_mem (List.not_mem_nil) _
      rw [hfirst, hsecond, List.splitOn_eq_singleton he.sep_not_mem]
    have hkept : cleanElements dot true [[], [], e] = [e] := by
      have hnormal : Normal dot true [e] :=
        normal_true_iff.mpr fun n hn => List.mem_singleton.mp hn ▸ he.toPlain
      have hskip : cleanElements dot true [[], [], e] = cleanElements dot true [e] := rfl
      rw [hskip, cleanElements_eq_self_iff.mpr hnormal]
    have habs : IsAbs sep (sep :: sep :: e) := rfl
    rw [hroot]
    unfold clean
    dsimp only
    rw [if_pos habs, decide_eq_true habs, hsplit, hkept]
    rfl
  · have hconcat : absolute sep (ns ++ [e]) =
        (if ns = [] then [sep] else absolute sep ns ++ [sep]) ++ e := absolute_concat ns e
    rw [if_neg hns] at hconcat
    rw [← hconcat]
    exact clean_absolute hall

theorem dir_absolute (h : ∀ n ∈ ns, Name sep dot n) (he : sep ∉ e) :
    dir sep dot (absolute sep (ns ++ [e])) = absolute sep ns := by
  have hcut : ∀ before : List α, before.getLast? = some sep →
      ((before ++ e).reverse.dropWhile (· ≠ sep)).reverse = before := by
    intro before hlast
    have hall : ∀ c ∈ e.reverse, decide (c ≠ sep) = true := by
      intro c hc
      rw [decide_eq_true_iff]
      exact fun heq => he (heq ▸ List.mem_reverse.mp hc)
    rw [List.reverse_append, List.dropWhile_append_of_pos hall]
    rw [← List.head?_reverse] at hlast
    obtain ⟨rest, hrest⟩ := List.head?_eq_some_iff.mp hlast
    rw [hrest, List.dropWhile_cons_of_neg (by simp), ← hrest, List.reverse_reverse]
  unfold dir
  rw [absolute_concat]
  by_cases hns : ns = []
  · rw [if_pos hns, hcut [sep] rfl, hns]
    exact @clean_absolute _ _ _ _ [] fun n hn => absurd hn List.not_mem_nil
  · rw [if_neg hns, hcut _ (List.getLast?_append_of_ne_nil _ (List.cons_ne_nil _ _))]
    have hsplit : (absolute sep ns ++ [sep]).splitOn sep = [] :: (ns ++ [[]]) := by
      rw [List.splitOn_append_cons_self, splitOn_absolute h, if_neg hns, List.splitOn_nil]
      rfl
    have hkept : cleanElements dot true ([] :: (ns ++ [[]])) = ns := by
      have hfirst := @cleanElements_skip _ _ dot true [] (ns ++ [[]])
      rw [List.nil_append, List.nil_append] at hfirst
      rw [hfirst, cleanElements_skip, List.append_nil]
      exact cleanElements_eq_self_iff.mpr (normal_true_iff.mpr fun n hn => (h n hn).toPlain)
    have habs : IsAbs sep (absolute sep ns ++ [sep]) := rfl
    unfold clean
    dsimp only
    rw [if_pos habs, decide_eq_true habs, hsplit, hkept]
    rfl

theorem base_absolute (he : Name sep dot e) : base sep dot (absolute sep (ns ++ [e])) = e := by
  have hne : absolute sep (ns ++ [e]) ≠ [] := List.cons_ne_nil _ _
  obtain ⟨before, hbefore⟩ : ∃ before, absolute sep (ns ++ [e]) = before ++ [sep] ++ e := by
    rw [absolute_concat]
    split
    · exact ⟨[], rfl⟩
    · exact ⟨_, rfl⟩
  obtain ⟨c, rest, hrest⟩ := List.exists_cons_of_ne_nil (List.reverse_ne_nil_iff.mpr he.ne_nil)
  have hmem : ∀ d ∈ e.reverse, d ≠ sep := fun d hd heq =>
    he.sep_not_mem (heq ▸ List.mem_reverse.mp hd)
  have hc : c ≠ sep := hmem c (hrest ▸ List.mem_cons_self)
  have htake : ((absolute sep (ns ++ [e])).reverse.dropWhile (· = sep)).takeWhile (· ≠ sep) =
      e.reverse := by
    rw [hbefore, List.reverse_append, hrest, List.cons_append,
      List.dropWhile_cons_of_neg (by simpa using hc), ← List.cons_append, ← hrest,
      List.takeWhile_append_of_pos (fun d hd => decide_eq_true (hmem d hd)), List.reverse_append,
      List.reverse_singleton, List.singleton_append, List.takeWhile_cons_of_neg (by simp),
      List.append_nil]
  unfold base
  dsimp only
  rw [if_neg hne, htake, List.reverse_reverse, if_neg he.ne_nil]

/-! ## Joining and pushing -/

variable (sep) in
/-- The elements of a directory, without the root and without a separator at its end. -/
def inner (dir : List α) : List (List α) :=
  let es := if IsAbs sep dir then (dir.splitOn sep).drop 1 else dir.splitOn sep
  if es.getLast? = some [] then es.dropLast else es

variable (sep dot) in
/-- The directory is clean, but for one separator at its end. -/
def Tidy (dir : List α) : Prop := Normal dot (IsAbs sep dir) (inner sep dir)

theorem intercalate_inj {xs ys : List (List α)} (hxs : ∀ x ∈ xs, sep ∉ x) (hys : ∀ y ∈ ys, sep ∉ y)
    (hnx : xs ≠ []) (hny : ys ≠ []) : [sep].intercalate xs = [sep].intercalate ys ↔ xs = ys := by
  constructor
  · intro heq
    rw [← List.splitOn_intercalate sep hxs hnx, heq, List.splitOn_intercalate sep hys hny]
  · exact congrArg _

theorem push_ne_nil (buf : List α) {path : List α} (h : path ≠ []) : push sep buf path ≠ [] := by
  unfold push
  split
  · exact h
  · exact List.append_ne_nil_of_right_ne_nil _ h

/-- Pushing a name on the text of some elements. -/
theorem push_intercalate (hns : ns ≠ []) (hlast : ns.getLast? ≠ some []) (h : ∀ n ∈ ns, sep ∉ n)
    (he : Name sep dot e) : push sep ([sep].intercalate ns) e = [sep].intercalate (ns ++ [e]) := by
  have hrel : ¬ IsAbs sep e := fun habs => he.sep_not_mem (List.mem_of_mem_head? habs)
  obtain ⟨init, last, rfl⟩ := (List.eq_nil_or_concat ns).resolve_left hns
  rw [List.concat_eq_append] at hlast h ⊢
  rw [List.getLast?_append_of_ne_nil _ (List.cons_ne_nil _ _), List.getLast?_singleton, ne_eq,
    Option.some_inj] at hlast
  have hend : ([sep].intercalate (init ++ [last])).getLast? = last.getLast? := by
    rw [intercalate_concat, List.getLast?_append_of_ne_nil _ hlast]
  obtain ⟨c, hc⟩ := Option.ne_none_iff_exists'.mp (mt List.getLast?_eq_none_iff.mp hlast)
  have hne : c ≠ sep := fun heq =>
    h last (List.mem_append_right _ (List.mem_singleton_self _)) (heq ▸ List.mem_of_getLast? hc)
  unfold push
  rw [if_neg hrel, hend, hc, Option.any_some, if_pos (decide_eq_true hne),
    intercalate_concat [sep] (init ++ [last]) e, if_neg (by simp)]

/-- A directory that a name is pushed on: a separator at its end stays one. -/
theorem push_splitOn {path : List α} (hpath : path ≠ []) (he : Name sep dot e) :
    ∃ es, push sep path e = [sep].intercalate (es ++ [e]) ∧ (∀ x ∈ es, sep ∉ x) ∧
      es = if IsAbs sep path then [] :: inner sep path else inner sep path := by
  have hfree : ∀ x ∈ path.splitOn sep, sep ∉ x := not_mem_of_mem_splitOn
  have hback : [sep].intercalate (path.splitOn sep) = path := List.intercalate_splitOn sep
  have hne := List.splitOn_ne_nil sep path
  have hinner : (if (path.splitOn sep).getLast? = some [] then (path.splitOn sep).dropLast
      else path.splitOn sep) = if IsAbs sep path then [] :: inner sep path else inner sep path := by
    unfold inner
    by_cases habs : IsAbs sep path
    · obtain ⟨rest, rfl⟩ := List.head?_eq_some_iff.mp habs
      have hsplit : (sep :: rest).splitOn sep = [] :: rest.splitOn sep :=
        List.splitOn_append_cons_self_of_not_mem (List.not_mem_nil) _
      obtain ⟨first, others, hrest⟩ := List.exists_cons_of_ne_nil (List.splitOn_ne_nil sep rest)
      rw [if_pos habs, if_pos habs, hsplit, List.drop_one, List.tail_cons, hrest,
        List.getLast?_cons_cons, List.dropLast_cons_cons]
      dsimp only
      by_cases hend : (first :: others).getLast? = some []
      · rw [if_pos hend, if_pos hend]
      · rw [if_neg hend, if_neg hend]
    · rw [if_neg habs, if_neg habs]
  refine ⟨_, ?_, ?_, hinner⟩
  · by_cases hend : (path.splitOn sep).getLast? = some []
    · -- the separator is there already
      rw [if_pos hend]
      obtain ⟨init, hinit⟩ := List.getLast?_eq_some_iff.mp hend
      have hinitNe : init ≠ [] := by
        rintro rfl
        rw [hinit] at hback
        exact hpath hback.symm
      have hrel : ¬ IsAbs sep e := fun habs => he.sep_not_mem (List.mem_of_mem_head? habs)
      rw [hinit, List.dropLast_concat]
      rw [hinit, intercalate_concat, List.append_nil, if_neg (by simpa using hinitNe)] at hback
      unfold push
      rw [if_neg hrel, ← hback, List.getLast?_append_of_ne_nil _ (List.cons_ne_nil _ _),
        List.getLast?_singleton, Option.any_some, if_neg (by simp), List.append_nil,
        intercalate_concat [sep] init e, if_neg (by simpa using hinitNe)]
    · rw [if_neg hend]
      conv_lhs => rw [← hback]
      exact push_intercalate hne hend hfree he
  · intro x hx
    split at hx
    · exact hfree x ((List.dropLast_sublist _).subset hx)
    · exact hfree x hx

theorem cleanElements_splitOn (path : List α) :
    cleanElements dot rooted (path.splitOn sep) = cleanElements dot rooted (inner sep path) := by
  have hlast : ∀ es : List (List α), cleanElements dot rooted es =
      cleanElements dot rooted (if es.getLast? = some [] then es.dropLast else es) := by
    intro es
    split
    · rename_i hend
      obtain ⟨init, rfl⟩ := List.getLast?_eq_some_iff.mp hend
      rw [List.dropLast_concat, cleanElements_skip, List.append_nil]
    · rfl
  unfold inner
  rw [← hlast]
  split
  · rename_i habs
    obtain ⟨rest, rfl⟩ := List.head?_eq_some_iff.mp habs
    have hsplit : (sep :: rest).splitOn sep = [] :: rest.splitOn sep :=
      List.splitOn_append_cons_self_of_not_mem (List.not_mem_nil) _
    rw [hsplit, List.drop_one, List.tail_cons]
    exact @cleanElements_skip _ _ dot rooted [] _
  · rfl

/-- INTERNAL: **Pushing and joining.** Two names pushed on a directory are the same text as the three
joined, if and only if the directory is clean but for one separator at its end. -/
theorem push_eq_join_iff {path s t : List α} (hpath : path ≠ []) (hs : Name sep dot s)
    (ht : Name sep dot t) :
    push sep (push sep path s) t = join sep dot [path, s, t] ↔ Tidy sep dot path := by
  obtain ⟨es, hpush, hfree, hes⟩ := push_splitOn hpath hs
  have hfree' : ∀ x ∈ es ++ [s], sep ∉ x := by
    rw [List.forall_mem_append, List.forall_mem_singleton]
    exact ⟨hfree, hs.sep_not_mem⟩
  have hlast : (es ++ [s]).getLast? ≠ some [] := by
    rw [List.getLast?_append_of_ne_nil _ (List.cons_ne_nil _ _), List.getLast?_singleton, ne_eq,
      Option.some_inj]
    exact hs.ne_nil
  have hkeep : [path, s, t].dropWhile (· = []) = [path, s, t] :=
    List.dropWhile_cons_of_neg (by simpa using hpath)
  have htext : [sep].intercalate [path, s, t] = path ++ sep :: (s ++ sep :: t) := by
    simp [List.intercalate_cons_cons]
  have hsplit : (path ++ sep :: (s ++ sep :: t)).splitOn sep = path.splitOn sep ++ [s] ++ [t] := by
    rw [List.splitOn_append_cons_self, List.splitOn_append_cons_self_of_not_mem hs.sep_not_mem,
      List.splitOn_eq_singleton ht.sep_not_mem, List.append_assoc]
    rfl
  have habs : IsAbs sep (path ++ sep :: (s ++ sep :: t)) ↔ IsAbs sep path := by
    unfold IsAbs
    rw [List.head?_append_of_ne_nil _ hpath]
  have hcleaned : ∀ rooted, cleanElements dot rooted (path.splitOn sep ++ [s] ++ [t]) =
      cleanElements dot rooted (inner sep path) ++ [s] ++ [t] := by
    intro rooted
    rw [cleanElements_append_plain _ ht.toPlain, cleanElements_append_plain _ hs.toPlain,
      cleanElements_splitOn]
  have hclean : join sep dot [path, s, t] = [sep].intercalate
      ((if IsAbs sep path then [] :: cleanElements dot (IsAbs sep path) (inner sep path)
        else cleanElements dot (IsAbs sep path) (inner sep path)) ++ [s] ++ [t]) := by
    unfold join
    rw [hkeep]
    dsimp only
    unfold clean
    dsimp only
    rw [htext, hsplit, decide_eq_decide.mpr habs, hcleaned]
    by_cases hrooted : IsAbs sep path
    · rw [if_pos (habs.mpr hrooted), if_pos hrooted]
      simp [List.intercalate_cons_of_ne_nil]
    · rw [if_neg fun h => hrooted (habs.mp h), if_neg hrooted, if_neg (by simp)]
  have hfreeClean : ∀ x ∈ (if IsAbs sep path then
      [] :: cleanElements dot (IsAbs sep path) (inner sep path)
      else cleanElements dot (IsAbs sep path) (inner sep path)) ++ [s] ++ [t], sep ∉ x := by
    have hcleanFree : ∀ x ∈ cleanElements dot (IsAbs sep path) (inner sep path), sep ∉ x := by
      intro x hx
      rw [← cleanElements_splitOn] at hx
      exact not_mem_of_mem_splitOn x (mem_of_mem_cleanElements hx)
    rw [List.forall_mem_append, List.forall_mem_append, List.forall_mem_singleton,
      List.forall_mem_singleton]
    refine ⟨⟨?_, hs.sep_not_mem⟩, ht.sep_not_mem⟩
    split
    · rw [List.forall_mem_cons]
      exact ⟨List.not_mem_nil, hcleanFree⟩
    · exact hcleanFree
  have hfreePushed : ∀ x ∈ es ++ [s] ++ [t], sep ∉ x := by
    rw [List.forall_mem_append, List.forall_mem_singleton]
    exact ⟨hfree', ht.sep_not_mem⟩
  rw [hpush, push_intercalate (by simp) hlast hfree' ht, hclean,
    intercalate_inj hfreePushed hfreeClean (by simp) (by simp), List.append_left_inj,
    List.append_left_inj, hes]
  unfold Tidy
  rw [← cleanElements_eq_self_iff]
  split
  · rw [List.cons.injEq, eq_comm (b := cleanElements _ _ _)]
    exact and_iff_right rfl
  · exact eq_comm

end Tymux.Lib.UnixPath
