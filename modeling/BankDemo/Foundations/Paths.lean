import Mathlib.Data.List.Basic
import Mathlib.Data.List.Infix

/-!
# Absolute paths

A normalised absolute path is the list of the names below the root of the file system. Segments of
a text are followed one by one (`Path.enter`), which is what resolving a text against a directory
means; `resolve` computes it as `path.resolve` of Node does, on one text put together from several.

* `resolve_pair`: resolving a text against a directory follows its segments from there.
* `crossedOut_follow_iff`: where a text leads, read off its segments by crossing some of them out.
* `render_prefix_iff`: when the text of a path begins with the text of another. It is then below
  it, or below a *sibling* whose name begins with the other's.
-/

namespace BankDemo.Paths

/-- The text of a path, or of a part of it. -/
abbrev Text := List Char

/-- Can a segment be the name of an entry? -/
def IsName (s : Text) : Prop := s ≠ [] ∧ s ≠ ['.'] ∧ s ≠ ['.', '.'] ∧ '/' ∉ s

instance (s : Text) : Decidable (IsName s) := inferInstanceAs (Decidable (_ ∧ _ ∧ _ ∧ _))

/-- A normalised absolute path. -/
@[ext]
structure Path where
  names : List Text
  isName : ∀ n ∈ names, IsName n
  deriving DecidableEq

namespace Path

/-- The root of the file system. -/
def root : Path := ⟨[], by simp⟩

/-- The directory that an entry is in. The root is in itself. -/
def parent (p : Path) : Path :=
  ⟨p.names.dropLast, fun n hn => p.isName n (List.mem_of_mem_dropLast hn)⟩

/-- An entry of a directory. -/
def child (p : Path) (n : Text) (hn : IsName n) : Path :=
  ⟨p.names ++ [n], fun m hm => by
    rcases List.mem_append.mp hm with hm | hm
    · exact p.isName m hm
    · rw [List.mem_singleton.mp hm]
      exact hn⟩

/-- Follow one segment: `..` leads to the parent, and an empty segment or `.` nowhere else. -/
def enter (p : Path) (s : Text) : Path :=
  if s = ['.', '.'] then p.parent else if h : IsName s then p.child s h else p

/-- Follow segments. -/
def walk (p : Path) (ss : List Text) : Path := ss.foldl enter p

/-- The text of a path: a slash before each name, and one for the root. -/
def render (p : Path) : Text := if p.names = [] then ['/'] else p.names.flatMap ('/' :: ·)

/-- `q` is `p` or below it. -/
def Within (p q : Path) : Prop := p.names <+: q.names

instance (p q : Path) : Decidable (Within p q) := inferInstanceAs (Decidable (_ <+: _))

/-- `q` is in or below an entry beside `p` whose name is longer than that of `p` and begins with
it. -/
def BesideLonger (p q : Path) : Prop :=
  ∃ dir n ext below, p.names = dir ++ [n] ∧ ext ≠ [] ∧ q.names = dir ++ (n ++ ext) :: below

@[simp] theorem root_names : root.names = [] := rfl

@[simp] theorem parent_names (p : Path) : p.parent.names = p.names.dropLast := rfl

@[simp] theorem child_names (p : Path) (n : Text) (hn : IsName n) :
    (p.child n hn).names = p.names ++ [n] := rfl

@[simp] theorem walk_nil (p : Path) : p.walk [] = p := rfl

@[simp] theorem walk_cons (p : Path) (s : Text) (ss : List Text) :
    p.walk (s :: ss) = (p.enter s).walk ss := rfl

@[simp] theorem enter_empty (p : Path) : p.enter [] = p := by
  rw [enter, if_neg (by decide), dif_neg fun h => h.1 rfl]

theorem walk_append (p : Path) (ss ss' : List Text) : p.walk (ss ++ ss') = (p.walk ss).walk ss' :=
  List.foldl_append

theorem enter_name (p : Path) {n : Text} (hn : IsName n) : p.enter n = p.child n hn := by
  rw [enter, if_neg hn.2.2.1, dif_pos hn]

/-- Following names only adds them. -/
theorem walk_names (ns : List Text) (hns : ∀ n ∈ ns, IsName n) (p : Path) :
    (p.walk ns).names = p.names ++ ns := by
  induction ns generalizing p with
  | nil => simp
  | cons n ns ih =>
    rw [walk_cons, enter_name p (hns n (by simp)), ih (fun m hm => hns m (by simp [hm])),
      child_names, List.append_assoc, List.singleton_append]

theorem enter_here (p : Path) {s : Text} (hs : s = [] ∨ s = ['.']) : p.enter s = p := by
  rcases hs with rfl | rfl
  · exact p.enter_empty
  · rw [enter, if_neg (by decide), dif_neg fun h => h.2.1 rfl]

theorem enter_up (p : Path) : p.enter ['.', '.'] = p.parent := by
  rw [enter, if_pos rfl]

/-- The names of a path lead to it. -/
theorem walk_root (p : Path) : root.walk p.names = p := by
  ext1
  rw [walk_names p.names p.isName, root_names, List.nil_append]

theorem Within.trans {p q r : Path} (h : Within p q) (h' : Within q r) : Within p r :=
  List.IsPrefix.trans h h'

end Path

open Paths.Path

/-! ## Crossing out -/

/-- What is left of segments when all but names are crossed out: empty segments and `.`, a name with
the `..` after it, and a `..` in front. -/
inductive CrossedOut : List Text → List Text → Prop
  | names {ns : List Text} (hns : ∀ n ∈ ns, IsName n) : CrossedOut ns ns
  | here {ss ss' ns : List Text} {s : Text} (hs : s = [] ∨ s = ['.'])
      (h : CrossedOut (ss ++ ss') ns) : CrossedOut (ss ++ s :: ss') ns
  | back {ss ss' ns : List Text} {n : Text} (hn : IsName n) (h : CrossedOut (ss ++ ss') ns) :
      CrossedOut (ss ++ n :: ['.', '.'] :: ss') ns
  | top {ss ns : List Text} (h : CrossedOut ss ns) : CrossedOut (['.', '.'] :: ss) ns

/-- Crossing out does not change where segments lead. -/
theorem CrossedOut.walk {ss ns : List Text} (h : CrossedOut ss ns) : (root.walk ss).names = ns := by
  induction h with
  | names hns => rw [walk_names _ hns, root_names, List.nil_append]
  | here hs _ ih => rw [walk_append, walk_cons, enter_here _ hs, ← walk_append, ih]
  | @back ss ss' _ n hn _ ih =>
    have hback : ((root.walk ss).child n hn).parent = root.walk ss := by
      ext1
      rw [parent_names, child_names, List.dropLast_concat]
    rw [walk_append, walk_cons, walk_cons, enter_name _ hn, enter_up, hback, ← walk_append, ih]
  | top _ ih => rw [walk_cons, enter_up, show root.parent = root from rfl, ih]

/-- Segments after the names of a path are crossed out from the left: each of them is a name, or it
goes, with the last name before it when it is `..`. -/
theorem crossedOut_walk (ss : List Text) (hss : ∀ s ∈ ss, '/' ∉ s) (p : Path) :
    CrossedOut (p.names ++ ss) (p.walk ss).names := by
  induction ss generalizing p with
  | nil => simpa using CrossedOut.names p.isName
  | cons s ss ih =>
    have ih := ih fun s hs => hss s (by simp [hs])
    rw [walk_cons]
    by_cases hup : s = ['.', '.']
    · subst hup
      rw [enter_up]
      have hrest := ih p.parent
      rcases List.eq_nil_or_concat p.names with hp | ⟨dir, n, hp⟩
      · rw [parent_names, hp] at hrest
        rw [hp]
        exact .top hrest
      · have hn : IsName n := p.isName n (by simp [hp])
        rw [List.concat_eq_append] at hp
        rw [parent_names, hp, List.dropLast_concat] at hrest
        rw [hp, List.append_assoc]
        exact .back hn hrest
    · by_cases hs : s = [] ∨ s = ['.']
      · rw [enter_here _ hs]
        exact .here hs (ih p)
      · have hn : IsName s := ⟨fun h => hs (.inl h), fun h => hs (.inr h), hup, hss s (by simp)⟩
        have hrest := ih (p.child s hn)
        rw [child_names, List.append_assoc] at hrest
        rw [enter_name _ hn]
        exact hrest

/-! ## Texts and segments -/

/-- The segments of a text. -/
def segments (t : Text) : List Text := t.splitOn '/'

/-- Does a text start at the root of the file system? -/
def isAbsolute (t : Text) : Bool := t.head? == some '/'

/-- Where a text leads from a directory. -/
def Path.follow (p : Path) (t : Text) : Path := (if isAbsolute t then root else p).walk (segments t)

/-- The path that a text names from the root. -/
def normalize (t : Text) : Path := root.walk (segments t)

/-- The text that `path.resolve` normalises: the last absolute one of its arguments (or the
current directory) and all that follow, with a slash between. Empty ones are ignored. -/
def absoluteText (cwd : Path) (paths : List Text) : Text :=
  paths.foldl (fun acc t => if t = [] then acc else if isAbsolute t then t else acc ++ '/' :: t)
    cwd.render

/-- `path.resolve(...paths)`. -/
def resolve (cwd : Path) (paths : List Text) : Path := normalize (absoluteText cwd paths)

theorem segments_append (s t : Text) : segments (s ++ '/' :: t) = segments s ++ segments t :=
  List.splitOn_append_cons_self s t

theorem segments_name {s : Text} (hs : '/' ∉ s) : segments s = [s] := List.splitOn_eq_singleton hs

/-- The segments of names with a slash before each. -/
theorem segments_slashes (s : Text) (hs : '/' ∉ s) (ns : List Text) (hns : ∀ n ∈ ns, '/' ∉ n) :
    segments (s ++ ns.flatMap ('/' :: ·)) = s :: ns := by
  induction ns generalizing s with
  | nil => simpa using segments_name hs
  | cons n ns ih =>
    have hn : '/' ∉ n := hns n (by simp)
    rw [List.flatMap_cons, List.cons_append, segments_append,
      ih n hn (fun m hm => hns m (by simp [hm]))]
    exact congrArg (· ++ n :: ns) (segments_name hs)

theorem segments_cons (c : Char) (t : Text) : segments (c :: t) =
    if c = '/' then [] :: segments t else (segments t).modifyHead (c :: ·) := by
  rw [segments, List.splitOn_cons_eq_if_modifyHead]
  simp only [beq_iff_eq, segments]

/-- A text is its segments with slashes between. -/
theorem exists_segments (t : Text) :
    ∃ first ns, segments t = first :: ns ∧ t = first ++ ns.flatMap ('/' :: ·) := by
  induction t with
  | nil => exact ⟨[], [], rfl, rfl⟩
  | cons c t ih =>
    obtain ⟨first, ns, hsegs, ht⟩ := ih
    rw [segments_cons]
    split
    · rename_i hc
      exact ⟨[], segments t, rfl, by
        rw [hc, hsegs, List.nil_append, List.flatMap_cons, List.cons_append, ← ht]⟩
    · exact ⟨c :: first, ns, by rw [hsegs]; rfl, by rw [List.cons_append, ← ht]⟩

theorem not_mem_segments {t s : Text} (h : s ∈ segments t) : '/' ∉ s := by
  induction t generalizing s with
  | nil =>
    rw [List.mem_singleton.1 h]
    exact List.not_mem_nil
  | cons c t ih =>
    obtain ⟨first, ns, hsegs, -⟩ := exists_segments t
    rw [segments_cons, hsegs] at h
    rw [hsegs] at ih
    split at h
    · rcases List.mem_cons.1 h with rfl | h
      · exact List.not_mem_nil
      · exact ih h
    · rename_i hc
      rcases List.mem_cons.1 h with rfl | h
      · simpa [Ne.symm hc] using ih List.mem_cons_self
      · exact ih (List.mem_cons_of_mem _ h)

/-- Changing characters other than slashes, to others, changes the segments. -/
theorem segments_map {f : Char → Char} (hf : ∀ c, f c = '/' ↔ c = '/') (t : Text) :
    segments (t.map f) = (segments t).map (List.map f) := by
  induction t with
  | nil => rfl
  | cons c t ih =>
    obtain ⟨first, ns, hsegs, -⟩ := exists_segments t
    rw [List.map_cons, segments_cons, segments_cons, ih, hsegs]
    simp only [hf]
    split <;> rfl

theorem slashes_head (ns : List Text) :
    ns.flatMap ('/' :: ·) = [] ∨ (ns.flatMap ('/' :: ·)).head? = some '/' := by
  cases ns with
  | nil => exact Or.inl rfl
  | cons n ns => exact Or.inr rfl

/-- When the segments of a text begin with these: it begins with their text, and there it ends or a
slash follows. -/
theorem segments_take_iff (first : Text) (ns : List Text) (hfirst : '/' ∉ first)
    (hns : ∀ n ∈ ns, '/' ∉ n) (t : Text) :
    (segments t).take (ns.length + 1) = first :: ns ↔
      ∃ rest, t = first ++ ns.flatMap ('/' :: ·) ++ rest ∧ (rest = [] ∨ rest.head? = some '/') := by
  constructor
  · intro h
    obtain ⟨first', ns', hsegs, ht⟩ := exists_segments t
    rw [hsegs, List.take_succ_cons] at h
    obtain ⟨rfl, htake⟩ := List.cons.inj h
    have hjoin : ns' = ns ++ ns'.drop ns.length := by
      conv_lhs => rw [← List.take_append_drop ns.length ns', htake]
    refine ⟨(ns'.drop ns.length).flatMap ('/' :: ·), ?_, slashes_head _⟩
    rw [ht, hjoin, List.flatMap_append, List.append_assoc, ← hjoin]
  · rintro ⟨rest, rfl, rfl | hrest⟩
    · rw [List.append_nil, segments_slashes first hfirst ns hns]
      exact List.take_of_length_le (by simp)
    · obtain ⟨below, rfl⟩ := List.head?_eq_some_iff.1 hrest
      rw [segments_append, segments_slashes first hfirst ns hns]
      exact List.take_left' (by simp)

/-- The segments from the root of the file system of a text that is read in a directory. -/
def Path.fromTop (p : Path) : List Text → List Text
  | [] :: second :: rest => second :: rest
  | ss => p.names ++ ss

theorem follow_fromTop (p : Path) (t : Text) : p.follow t = root.walk (p.fromTop (segments t)) := by
  rw [follow]
  split
  · rename_i habs
    obtain ⟨below, rfl⟩ := List.head?_eq_some_iff.1 (beq_iff_eq.1 habs)
    obtain ⟨first, ns, hsegs, -⟩ := exists_segments below
    rw [segments_cons, if_pos rfl, hsegs, walk_cons, enter_empty]
    rfl
  · rename_i hrel
    have htop : p.fromTop (segments t) = p.names ++ segments t := by
      obtain ⟨first, ns, hsegs, ht⟩ := exists_segments t
      rw [hsegs]
      cases first with
      | cons c first => rfl
      | nil =>
        cases ns with
        | nil => rfl
        | cons second ns =>
          rw [ht] at hrel
          exact absurd rfl hrel
    rw [htop, walk_append, walk_root]

theorem not_mem_fromTop {p : Path} {t s : Text} (h : s ∈ p.fromTop (segments t)) : '/' ∉ s := by
  unfold Path.fromTop at h
  split at h
  · rename_i hsegs
    exact not_mem_segments (hsegs ▸ List.mem_cons_of_mem [] h : s ∈ segments t)
  · rcases List.mem_append.1 h with h | h
    · exact (p.isName s h).2.2.2
    · exact not_mem_segments h

/-- Where a text leads from a directory: to the names that are left of its segments. -/
theorem crossedOut_follow_iff (p : Path) (t : Text) (ns : List Text) :
    CrossedOut (p.fromTop (segments t)) ns ↔ (p.follow t).names = ns := by
  rw [follow_fromTop]
  refine ⟨CrossedOut.walk, fun h => ?_⟩
  rw [← h]
  exact crossedOut_walk _ (fun s hs => not_mem_fromTop hs) root

/-- The text of a path leads back to it. -/
theorem normalize_render (p : Path) : normalize p.render = p := by
  have hnames : ∀ n ∈ p.names, '/' ∉ n := fun n hn => (p.isName n hn).2.2.2
  by_cases hp : p.names = []
  · ext1
    rw [render, if_pos hp, hp]
    decide
  · have hsegs : segments p.render = [] :: p.names := by
      rw [render, if_neg hp]
      exact segments_slashes [] (by simp) p.names hnames
    rw [normalize, hsegs, walk_cons, enter_empty, walk_root]

theorem isAbsolute_render (p : Path) : isAbsolute p.render = true := by
  rw [render]
  split
  · rfl
  · rename_i hp
    obtain ⟨n, ns, hns⟩ := List.exists_cons_of_ne_nil hp
    rw [hns]
    rfl

/-- Resolving a text against a directory follows it from there. -/
theorem resolve_pair (cwd p : Path) (t : Text) : resolve cwd [p.render, t] = p.follow t := by
  have hp : p.render ≠ [] := fun h => by
    have habs := isAbsolute_render p
    rw [h] at habs
    cases habs
  rw [resolve, absoluteText, List.foldl_cons, List.foldl_cons, List.foldl_nil, if_neg hp,
    if_pos (isAbsolute_render p), follow]
  by_cases ht : t = []
  · subst ht
    rw [if_pos rfl, normalize_render, if_neg (by decide)]
    exact (enter_empty p).symm
  · rw [if_neg ht]
    by_cases habs : isAbsolute t = true
    · rw [if_pos habs, if_pos habs, normalize]
    · rw [if_neg habs, if_neg habs, normalize, segments_append, walk_append]
      exact congrArg (·.walk (segments t)) (normalize_render p)

/-- A text of names leads below the directory. -/
theorem Path.follow_names (p : Path) {first : Text} {ns : List Text} (hfirst : IsName first)
    (hns : ∀ n ∈ ns, IsName n) :
    (p.follow (first ++ ns.flatMap ('/' :: ·))).names = p.names ++ first :: ns := by
  have hsegs : segments (first ++ ns.flatMap ('/' :: ·)) = first :: ns :=
    segments_slashes first hfirst.2.2.2 ns fun n hn => (hns n hn).2.2.2
  have hrel : isAbsolute (first ++ ns.flatMap ('/' :: ·)) = false := by
    cases first with
    | nil => exact (hfirst.1 rfl).elim
    | cons c cs =>
      have hc : c ≠ '/' := fun h => hfirst.2.2.2 (by simp [h])
      simp [isAbsolute, hc]
  rw [follow, hrel, hsegs, if_neg Bool.false_ne_true]
  exact walk_names _ (fun n hn => (List.mem_cons.mp hn).elim (fun h => h ▸ hfirst) (hns n)) p

/-! ## Prefixes of texts -/

/-- Names without slashes, each followed by nothing or by a slash, one text a prefix of the other:
the names agree, or the first ends within the second. -/
theorem prefix_name {n m : Text} (hn : '/' ∉ n) (hm : '/' ∉ m) {x y : Text}
    (hx : x = [] ∨ x.head? = some '/') (hy : y = [] ∨ y.head? = some '/') :
    n ++ x <+: m ++ y ↔ n = m ∧ x <+: y ∨ x = [] ∧ ∃ ext, ext ≠ [] ∧ m = n ++ ext := by
  induction n generalizing m with
  | nil =>
    cases m with
    | nil => simp
    | cons c m =>
      have hc : c ≠ '/' := fun h => hm (by simp [h])
      rcases hx with rfl | hx
      · simp
      · obtain ⟨z, rfl⟩ : ∃ z, x = '/' :: z := by
          cases x with
          | nil => cases hx
          | cons a z => exact ⟨z, by rw [Option.some.inj hx]⟩
        simp [List.cons_prefix_cons, hc.symm]
  | cons a n ih =>
    have ha : a ≠ '/' := fun h => hn (by simp [h])
    cases m with
    | nil =>
      rcases hy with rfl | hy
      · simp
      · obtain ⟨z, rfl⟩ : ∃ z, y = '/' :: z := by
          cases y with
          | nil => cases hy
          | cons b z => exact ⟨z, by rw [Option.some.inj hy]⟩
        simp [List.cons_prefix_cons, ha]
    | cons b m =>
      rw [List.cons_append, List.cons_append, List.cons_prefix_cons,
        ih (fun h => hn (by simp [h])) (fun h => hm (by simp [h]))]
      constructor
      · rintro ⟨rfl, ⟨rfl, h⟩ | ⟨rfl, ext, hext, rfl⟩⟩
        · exact Or.inl ⟨rfl, h⟩
        · exact Or.inr ⟨rfl, ext, hext, rfl⟩
      · rintro (⟨h, hxy⟩ | ⟨rfl, ext, hext, h⟩)
        · obtain ⟨rfl, rfl⟩ := List.cons.inj h
          exact ⟨rfl, Or.inl ⟨rfl, hxy⟩⟩
        · obtain ⟨rfl, rfl⟩ := List.cons.inj h
          exact ⟨rfl, Or.inr ⟨rfl, ext, hext, rfl⟩⟩

/-- When a text of names with slashes begins with another. -/
theorem slashes_prefix_iff {ps qs : List Text} (hps : ∀ n ∈ ps, '/' ∉ n) (hqs : ∀ n ∈ qs, '/' ∉ n) :
    ps.flatMap ('/' :: ·) <+: qs.flatMap ('/' :: ·) ↔
      ps <+: qs ∨
        ∃ dir n ext below, ps = dir ++ [n] ∧ ext ≠ [] ∧ qs = dir ++ (n ++ ext) :: below := by
  induction ps generalizing qs with
  | nil => simp
  | cons n ps ih =>
    cases qs with
    | nil => simp
    | cons m qs =>
      have hn : '/' ∉ n := hps n (by simp)
      have hm : '/' ∉ m := hqs m (by simp)
      have hps' : ∀ k ∈ ps, '/' ∉ k := fun k hk => hps k (by simp [hk])
      have hqs' : ∀ k ∈ qs, '/' ∉ k := fun k hk => hqs k (by simp [hk])
      rw [List.flatMap_cons, List.flatMap_cons, List.cons_append, List.cons_append,
        List.prefix_cons_inj, prefix_name hn hm (slashes_head ps) (slashes_head qs),
        ih hps' hqs',
        List.cons_prefix_cons]
      constructor
      · rintro (⟨rfl, h | ⟨dir, k, ext, below, rfl, hext, rfl⟩⟩ | ⟨hps', ext, hext, rfl⟩)
        · exact Or.inl ⟨rfl, h⟩
        · exact Or.inr ⟨n :: dir, k, ext, below, rfl, hext, rfl⟩
        · cases ps with
          | nil => exact Or.inr ⟨[], n, ext, qs, rfl, hext, rfl⟩
          | cons k ps => cases hps'
      · rintro (⟨rfl, h⟩ | ⟨dir, k, ext, below, h, hext, h'⟩)
        · exact Or.inl ⟨rfl, Or.inl h⟩
        · cases dir with
          | nil =>
            obtain ⟨rfl, rfl⟩ := List.cons.inj h
            obtain ⟨rfl, rfl⟩ := List.cons.inj h'
            exact Or.inr ⟨rfl, ext, hext, rfl⟩
          | cons a dir =>
            obtain ⟨rfl, rfl⟩ := List.cons.inj h
            obtain ⟨rfl, rfl⟩ := List.cons.inj h'
            exact Or.inl ⟨rfl, Or.inr ⟨dir, k, ext, below, rfl, hext, rfl⟩⟩

/-- The text of a path begins with that of another exactly when it is below it or below a sibling
with a longer name. -/
theorem render_prefix_iff (p q : Path) : p.render <+: q.render ↔ Within p q ∨ BesideLonger p q := by
  have hp : ∀ n ∈ p.names, '/' ∉ n := fun n hn => (p.isName n hn).2.2.2
  have hq : ∀ n ∈ q.names, '/' ∉ n := fun n hn => (q.isName n hn).2.2.2
  by_cases hp0 : p.names = []
  · have habs : ['/'] <+: q.render := by
      have h := isAbsolute_render q
      rw [isAbsolute, beq_iff_eq] at h
      cases hr : q.render with
      | nil =>
        rw [hr] at h
        cases h
      | cons a z =>
        rw [hr] at h
        rw [Option.some.inj h]
        exact ⟨z, rfl⟩
    rw [render, if_pos hp0]
    exact ⟨fun _ => Or.inl (by rw [Within, hp0]; exact List.nil_prefix), fun _ => habs⟩
  · by_cases hq0 : q.names = []
    · rw [render, if_neg hp0, render, if_pos hq0]
      obtain ⟨n, ns, hns⟩ := List.exists_cons_of_ne_nil hp0
      have hn : n ≠ [] := (p.isName n (by rw [hns]; simp)).1
      obtain ⟨c, n', rfl⟩ := List.exists_cons_of_ne_nil hn
      constructor
      · intro h
        rw [hns] at h
        simp at h
      · rintro (h | ⟨dir, k, ext, below, -, -, h⟩)
        · rw [Within, hns, hq0] at h
          simp at h
        · rw [hq0] at h
          simp at h
    · rw [render, if_neg hp0, render, if_neg hq0]
      exact slashes_prefix_iff hp hq

/-- A sibling with a longer name is not below the path. -/
theorem Path.BesideLonger.not_within {p q : Path} (h : BesideLonger p q) : ¬ Within p q := by
  obtain ⟨dir, n, ext, below, hp, hext, hq⟩ := h
  rw [Within, hp, hq, List.prefix_append_right_inj, List.cons_prefix_cons]
  rintro ⟨h, -⟩
  exact hext (List.self_eq_append_right.mp h)

end BankDemo.Paths
