import BankDemo.PolicyDocs.Renderer
import BankDemo.Properties.PolicyBlocks
import Mathlib.Data.Rat.Floor

/-!
# The texts of a policy as they are written

A text is cut where it has a first text between marks, and what is behind it is cut in the same way
(`inlineSpans_cut`). Apart from the marks of the little language, nothing that is there to be read
is lost, doubled or moved on the way from the body of a policy to its pages (`ink_written`). The
rows of a table stand on their pages in order, and the names of the columns are not left alone
(`table_on_pages`).
-/

namespace BankDemo.PolicyDocs

open JsString Scanning PageRows

/-! ## Spans -/

theorem boldAt_eq_some {l inner : List Char} : boldAt l = some inner ↔
    inner ≠ [] ∧ '*' ∉ inner ∧ starred inner <+: l := by
  constructor
  · intro h
    unfold boldAt at h
    split at h
    · next rest =>
      simp only [Option.ite_none_right_eq_some, Option.some.injEq] at h
      obtain ⟨⟨hne, hmarks⟩, rfl⟩ := h
      refine ⟨hne, fun hmem => by simpa using List.mem_takeWhile_imp hmem, ?_⟩
      obtain ⟨after, hafter⟩ := List.isPrefixOf_iff_prefix.1 hmarks
      refine ⟨after, ?_⟩
      rw [starred, List.append_assoc, hafter, List.cons_append, List.cons_append,
        List.takeWhile_append_dropWhile]
    · cases h
  · rintro ⟨hne, hmark, after, rfl⟩
    have hstops : (inner ++ ['*', '*'] ++ after).takeWhile (· ≠ '*') = inner ∧
        (inner ++ ['*', '*'] ++ after).dropWhile (· ≠ '*') = ['*', '*'] ++ after := by
      have hinner : ∀ c ∈ inner, decide (c ≠ '*') = true := by
        intro c hc
        exact decide_eq_true fun heq => hmark (heq ▸ hc)
      rw [List.append_assoc, List.takeWhile_append_of_pos hinner,
        List.dropWhile_append_of_pos hinner]
      simp
    simp only [starred, List.cons_append, boldAt]
    rw [hstops.1, hstops.2, if_pos ⟨hne, by simp⟩]

theorem boldAt_starred {inner : List Char} (hne : inner ≠ []) (hmark : '*' ∉ inner)
    (rest : List Char) : boldAt (starred inner ++ rest) = some inner :=
  boldAt_eq_some.2 ⟨hne, hmark, List.prefix_append ..⟩

/-- The spans of a text: what is before the first text between marks, this text, and the spans of
what is behind it. -/
inductive Cut : List Char → List Span → Prop
  | last {p : List Char} (hplain : ∀ k < p.length, boldAt (p.drop k) = none) : Cut p [.plain p]
  | bold {p inner rest : List Char} {spans : List Span}
      (hplain : ∀ k < p.length, boldAt (p.drop k ++ (starred inner ++ rest)) = none)
      (hinner : boldAt (starred inner ++ rest) = some inner) (hrest : Cut rest spans) :
      Cut (p ++ (starred inner ++ rest)) (.plain p :: .bold inner :: spans)

/-- A text is cut in one way only. -/
theorem Cut.unique {l : List Char} {spans spans' : List Span} (h : Cut l spans)
    (h' : Cut l spans') : spans = spans' := by
  induction h generalizing spans' with
  | @last p hplain =>
    generalize hp : p = q at h'
    cases h' with
    | last => rfl
    | @bold p' inner' rest' _ _ hinner' _ =>
      have hshort : p'.length < p.length := by simp [hp, starred]
      have hnone := hplain p'.length hshort
      rw [hp, List.drop_left, hinner'] at hnone
      cases hnone
  | @bold p inner rest spans hplain hinner hrest ih =>
    generalize hl : p ++ (starred inner ++ rest) = l at h'
    cases h' with
    | last hplain' =>
      have hshort : p.length < l.length := by simp [← hl, starred]
      have hnone := hplain' p.length hshort
      rw [← hl, List.drop_left, hinner] at hnone
      cases hnone
    | @bold p' inner' rest' spans' hplain' hinner' hrest' =>
      have hlength : p.length = p'.length := by
        rcases lt_trichotomy p.length p'.length with hlt | heq | hgt
        · have hnone := hplain' p.length hlt
          rw [← List.drop_append_of_le_length hlt.le, ← hl, List.drop_left, hinner] at hnone
          cases hnone
        · exact heq
        · have hnone := hplain p'.length hgt
          rw [← List.drop_append_of_le_length hgt.le, hl, List.drop_left, hinner'] at hnone
          cases hnone
      obtain ⟨rfl, hbehind⟩ := List.append_inj hl hlength
      rw [hbehind, hinner'] at hinner
      cases hinner
      obtain rfl := List.append_cancel_left hbehind
      rw [ih hrest']

theorem boldSplit_skip (skip : ℕ) (l : List Char) :
    boldSplit skip [] l = boldSplit 0 [] (l.drop skip) := by
  induction l generalizing skip with
  | nil => cases skip <;> simp [boldSplit]
  | cons c rest ih =>
    cases skip with
    | zero => rfl
    | succ skip => rw [boldSplit, ih, List.drop_succ_cons]

theorem spanOf_plain {p after : List Char}
    (hplain : ∀ k < p.length, boldAt (p.drop k ++ after) = none) : spanOf p = .plain p := by
  unfold spanOf
  cases hbold : boldAt p with
  | none => rfl
  | some inner =>
    obtain ⟨hne, hmark, hprefix⟩ := boldAt_eq_some.1 hbold
    have hlength : 0 < p.length := by
      have hle := hprefix.length_le
      simp only [starred, List.length_append, List.length_cons] at hle
      omega
    have hsome : boldAt (p.drop 0 ++ after) = some inner :=
      boldAt_eq_some.2 ⟨hne, hmark, hprefix.trans (List.prefix_append ..)⟩
    rw [hplain 0 hlength] at hsome
    cases hsome

theorem spanOf_starred {inner : List Char} (hne : inner ≠ []) (hmark : '*' ∉ inner) :
    spanOf (starred inner) = .bold inner := by
  have hbold := boldAt_starred hne hmark []
  rw [List.append_nil] at hbold
  rw [spanOf, hbold]
  exact if_pos rfl

/-- The loop cuts what it has read since the last match and what is left. -/
theorem boldSplit_cut (l plain : List Char)
    (hplain : ∀ k < plain.length, boldAt (plain.drop k ++ l) = none) :
    Cut (plain ++ l) ((boldSplit 0 plain l).map spanOf) := by
  induction hn : l.length using Nat.strongRecOn generalizing l plain with
  | ind n ih =>
    cases l with
    | nil =>
      simp only [boldSplit, List.map_singleton, spanOf_plain hplain]
      rw [List.append_nil]
      simp only [List.append_nil] at hplain
      exact .last hplain
    | cons c rest =>
      rw [List.length_cons] at hn
      rw [boldSplit]
      cases hbold : boldAt (c :: rest) with
      | some inner =>
        obtain ⟨hne, hmark, after, hafter⟩ := boldAt_eq_some.1 hbold
        have hrest : (c :: rest).drop (inner.length + 4) = after := by
          rw [← hafter, List.drop_left' (by simp [starred])]
        rw [List.drop_succ_cons] at hrest
        have hlater := ih after.length (by
          have hlength := congrArg List.length hafter
          simp only [starred, List.length_append, List.length_cons] at hlength
          omega) after [] (by simp) rfl
        show Cut _ ((plain :: starred inner :: boldSplit (inner.length + 3) [] rest).map spanOf)
        rw [List.map_cons, List.map_cons, spanOf_plain hplain, spanOf_starred hne hmark,
          boldSplit_skip, hrest]
        rw [← hafter] at hplain ⊢
        exact .bold hplain (boldAt_starred hne hmark after) hlater
      | none =>
        have hnext := ih rest.length (by omega) rest (plain ++ [c]) (by
          intro k hk
          rcases Nat.lt_succ_iff_lt_or_eq.1 (by simpa using hk) with hlt | rfl
          · rw [List.drop_append_of_le_length hlt.le, List.append_assoc]
            exact hplain k hlt
          · rw [List.drop_left]
            exact hbold) rfl
        rwa [List.append_assoc] at hnext

theorem spanOf_eq_empty {p : List Char} : spanOf p = .plain [] ↔ p = [] := by
  unfold spanOf
  split
  · next inner hbold =>
    split
    · next hstarred => simp [hstarred, starred]
    · simp
  · simp

/-- **A text is cut at its texts between marks**, from the left; empty spans are not written. -/
theorem inlineSpans_cut (text : String) : ∃ spans, Cut text.toList spans ∧
    (∀ spans', Cut text.toList spans' → spans' = spans) ∧
    inlineSpans text = spans.filter (· ≠ .plain []) := by
  have hcut : Cut ([] ++ text.toList) _ := boldSplit_cut text.toList [] (by simp)
  refine ⟨_, hcut, fun spans' h => h.unique hcut, ?_⟩
  rw [inlineSpans, List.filter_map]
  congr 1
  apply List.filter_congr
  intro p _
  simp [spanOf_eq_empty, List.length_pos_iff]

/-! ## Ink -/

/-- What the little language marks its blocks and spans with. -/
def isMarkup (c : Char) : Bool := ['#', '*', '|', '-', ':'].contains c

/-- What is there to be read, without white space and the marks. -/
def ink (l : List Char) : List Char := l.filter fun c => !isSpace c && !isMarkup c

@[simp] theorem ink_nil : ink [] = [] := rfl

@[simp] theorem ink_append (l m : List Char) : ink (l ++ m) = ink l ++ ink m :=
  List.filter_append ..

theorem ink_cons_of_blank {c : Char} (h : isSpace c = true ∨ isMarkup c = true) (l : List Char) :
    ink (c :: l) = ink l := by
  rw [ink, List.filter_cons_of_neg (by rcases h with h | h <;> simp [h])]
  rfl

theorem ink_eq_nil {l : List Char} (h : ∀ c ∈ l, isSpace c = true ∨ isMarkup c = true) :
    ink l = [] := by
  refine List.filter_eq_nil_iff.2 fun c hc => ?_
  rcases h c hc with h | h <;> simp [h]

theorem ink_dropWhile {p : Char → Bool}
    (hp : ∀ c, p c = true → isSpace c = true ∨ isMarkup c = true) (l : List Char) :
    ink (l.dropWhile p) = ink l := by
  have hblank : ink (l.takeWhile p) = [] :=
    ink_eq_nil fun c hc => hp c (List.mem_takeWhile_imp hc)
  rw [← List.takeWhile_append_dropWhile (p := p) (l := l), ink_append, hblank,
    List.takeWhile_append_dropWhile, List.nil_append]

theorem ink_reverse (l : List Char) : ink l.reverse = (ink l).reverse := List.filter_reverse ..

@[simp] theorem ink_trim (s : String) : ink (trim s).toList = ink s.toList := by
  simp only [trim, String.toList_ofList, ink_reverse]
  rw [ink_dropWhile fun _ h => .inl h, ink_reverse, List.reverse_reverse,
    ink_dropWhile fun _ h => .inl h]

/-- Lists of texts with the same ink. -/
theorem ink_flatten_map {α : Type} {f g : α → List Char} {l : List α}
    (h : ∀ a ∈ l, ink (f a) = ink (g a)) : ink (l.map f).flatten = ink (l.map g).flatten := by
  induction l with
  | nil => rfl
  | cons a l ih =>
    obtain ⟨ha, hl⟩ := List.forall_mem_cons.1 h
    simp only [List.map_cons, List.flatten_cons, ink_append, ha, ih hl]

/-- A separator that is not read. -/
theorem ink_intercalate {c : Char} (h : isSpace c = true ∨ isMarkup c = true)
    (ls : List (List Char)) : ink ([c].intercalate ls) = ink ls.flatten := by
  induction ls with
  | nil => rfl
  | cons l ls ih =>
    cases ls with
    | nil => simp
    | cons l' ls =>
      rw [List.intercalate_cons_cons, List.append_assoc, List.singleton_append, ink_append,
        ink_cons_of_blank h, ih, ← ink_append]
      rfl

theorem ink_split {c : Char} (h : isSpace c = true ∨ isMarkup c = true) (s : String) :
    ink ((split s c).map String.toList).flatten = ink s.toList := by
  have hlists : (split s c).map String.toList = s.toList.splitOn c := by
    rw [split, List.map_map]
    conv_rhs => rw [← List.map_id (s.toList.splitOn c)]
    exact List.map_congr_left fun l _ => String.toList_ofList
  rw [hlists, ← ink_intercalate h, List.intercalate_splitOn]

theorem ink_unixNewlines (l : List Char) : ink (unixNewlines l) = ink l := by
  induction l using unixNewlines.induct with
  | case1 rest ih =>
    rw [unixNewlines, ink_cons_of_blank (.inl rfl), ink_cons_of_blank (.inl rfl),
      ink_cons_of_blank (.inl rfl), ih]
  | case2 c rest hnot ih =>
    rw [unixNewlines.eq_2 c rest hnot]
    exact (ink_append [c] _).trans (by rw [ih, ← ink_append]; rfl)
  | case3 => rfl

/-! ## What is written for a block -/

theorem Cut.ink_eq {l : List Char} {spans : List Span} (h : Cut l spans) :
    ink (spans.map Span.text).flatten = ink l := by
  induction h with
  | last => simp [Span.text]
  | @bold p inner rest spans _ _ _ ih =>
    have hmark : isSpace '*' = true ∨ isMarkup '*' = true := .inr rfl
    simp [Span.text, starred, ih, ink_cons_of_blank hmark]

theorem flatten_filter_text (spans : List Span) :
    ((spans.filter (· ≠ .plain [])).map Span.text).flatten = (spans.map Span.text).flatten := by
  induction spans with
  | nil => rfl
  | cons span spans ih =>
    by_cases hempty : span = .plain []
    · subst hempty
      simp [Span.text, ← ih]
    · simp [hempty, ← ih]

theorem ink_inlineSpans (text : String) :
    ink ((inlineSpans text).map Span.text).flatten = ink text.toList := by
  obtain ⟨spans, hcut, -, hspans⟩ := inlineSpans_cut text
  rw [hspans, flatten_filter_text, hcut.ink_eq]

theorem ink_spacesThenText {l rest : List Char} (h : spacesThenText l = some rest) :
    ink rest = ink l := by
  induction l with
  | nil => cases h
  | cons c l ih =>
    rw [spacesThenText] at h
    split at h
    · next hspace =>
      rw [ink_cons_of_blank (.inl hspace)]
      cases hlater : spacesThenText l with
      | some rest' =>
        rw [hlater] at h
        exact ih (hlater.trans h)
      | none =>
        rw [hlater, Option.none_or, restOfLine] at h
        split at h
        · cases h
          rfl
        · cases h
    · cases h

theorem ink_heading {line text : String} {level : ℕ} (h : heading line = some (level, text)) :
    ink text.toList = ink line.toList := by
  obtain ⟨⟨level', rest⟩, hmatch, heq⟩ := Option.map_eq_some_iff.1 h
  cases heq
  obtain ⟨-, -, ⟨after, hafter⟩, hrest⟩ := afterMarks_eq_some hmatch
  have hmarks : ink (List.replicate level' '#') = [] :=
    ink_eq_nil fun c hc => .inr (List.eq_of_mem_replicate hc ▸ rfl)
  simp only at hafter hrest
  rw [← hafter, List.drop_left' (List.length_replicate ..)] at hrest
  rw [ink_trim, String.toList_ofList, ink_spacesThenText hrest, ← hafter, ink_append, hmarks,
    List.nil_append]

theorem ink_bulletText {line : String} (h : isBulletLine line = true) :
    ink (bulletText line).toList = ink line.toList := by
  have hmark := head?_of_isBulletLine h
  rw [bulletText, if_pos h, String.toList_ofList, ink_dropWhile fun _ h => .inl h]
  cases hline : line.toList with
  | nil => rfl
  | cons c rest =>
    rw [hline, List.head?_cons, Option.some_inj, Option.some_inj] at hmark
    rcases hmark with rfl | rfl
    · rw [ink_cons_of_blank (.inr rfl), List.tail_cons]
    · rw [ink_cons_of_blank (.inr rfl), List.tail_cons]

theorem ink_withoutLastBar (l : List Char) : ink (withoutLastBar l) = ink l := by
  induction l with
  | nil => rfl
  | cons c rest ih =>
    rw [withoutLastBar]
    split
    · next hbar =>
      simp only [Bool.and_eq_true, decide_eq_true_eq, List.all_eq_true] at hbar
      obtain ⟨rfl, hspaces⟩ := hbar
      rw [ink_cons_of_blank (.inr rfl), ink_eq_nil fun c hc => .inl (hspaces c hc)]
      rfl
    · exact (ink_append [c] _).trans (by rw [ih, ← ink_append]; rfl)

/-- The cells of a line, put together. -/
def rowText (cells : List String) : List Char := (cells.map String.toList).flatten

theorem ink_cellsOf (line : String) : ink (rowText (cellsOf line)) = ink line.toList := by
  have htrim : ∀ cells : List String, ink (rowText (cells.map trim)) = ink (rowText cells) := by
    intro cells
    rw [rowText, List.map_map]
    exact ink_flatten_map fun c _ => ink_trim c
  have hbar : isSpace '|' = true ∨ isMarkup '|' = true := .inr rfl
  rw [cellsOf, htrim, rowText, ink_split hbar, String.toList_ofList, ink_withoutLastBar,
    withoutFirstBar]
  cases hline : line.toList with
  | nil => rfl
  | cons c rest =>
    by_cases hfirst : c = '|'
    · subst hfirst
      rw [ink_cons_of_blank hbar]
      rfl
    · rw [if_neg (by simpa using hfirst)]

/-- A rule has nothing to be read. -/
theorem ink_of_isRule {cell : String} (h : isRule cell = true) : ink cell.toList = [] := by
  simp only [isRule, Bool.and_eq_true, decide_eq_true_eq, Bool.or_eq_true] at h
  have hcolon : isSpace ':' = true ∨ isMarkup ':' = true := .inr rfl
  have hend : ∀ l : List Char, l = [] ∨ l = [':'] → ink l = [] := by
    rintro l (rfl | rfl)
    · rfl
    · exact ink_cons_of_blank hcolon []
  have hdash : ∀ c : Char, decide (c = '-') = true → isSpace c = true ∨ isMarkup c = true := by
    intro c hc
    rw [of_decide_eq_true hc]
    exact .inr rfl
  have hbegun := hend _ h.2
  rw [ink_dropWhile hdash] at hbegun
  cases hcell : cell.toList with
  | nil => rfl
  | cons c rest =>
    rw [hcell] at hbegun
    by_cases hfirst : c = ':'
    · subst hfirst
      rw [ink_cons_of_blank hcolon]
      exact hbegun
    · rwa [if_neg (by simpa using hfirst)] at hbegun

theorem map_drawBodyRows {α : Type} (f : List String → α) (s : Slot ℚ) (rIdx : ℕ)
    (rows : List (List String)) :
    (drawBodyRows s rIdx rows).map (fun d => f d.2.cells) = rows.map f := by
  induction rows generalizing s rIdx with
  | nil => rfl
  | cons row rest ih => rw [drawBodyRows, List.map_cons, ih, List.map_cons]

theorem ink_bodyRows (header : List String) (cells : List (List String)) :
    ink ((bodyRows (header :: cells)).map rowText).flatten = ink (cells.map rowText).flatten := by
  cases cells with
  | nil => rfl
  | cons second rest =>
    rw [bodyRows]
    split
    · next hrule =>
      have hnothing : ink (rowText second) = [] := by
        have hcells := ink_flatten_map (f := String.toList) (g := fun _ => []) (l := second)
          fun cell hcell => ink_of_isRule (List.all_eq_true.1 hrule cell hcell)
        rw [rowText, hcells]
        simp
      rw [List.map_cons, List.flatten_cons, ink_append, hnothing, List.nil_append]
    · rfl

/-- What is written for a table has the ink of its lines. -/
theorem ink_drawTable (s : Slot ℚ) {rows : List String} (hne : rows ≠ []) : ∃ drawn,
    drawTable s rows = some drawn ∧ ink (drawn.map fun d => rowText d.2.cells).flatten =
      ink (rows.map String.toList).flatten := by
  have hrows : ∀ lines : List String, ink ((lines.map cellsOf).map rowText).flatten =
      ink (lines.map String.toList).flatten := by
    intro lines
    rw [List.map_map]
    apply ink_flatten_map
    intro line _
    rw [Function.comp_apply, ink_cellsOf]
  cases rows with
  | nil => exact absurd rfl hne
  | cons header rest =>
    refine ⟨_, rfl, ?_⟩
    rw [List.map_cons, List.flatten_cons, map_drawBodyRows, ink_append, List.map_cons, ink_bodyRows,
      ← hrows, List.map_cons, List.map_cons, List.flatten_cons, ink_append]

theorem flatten_map_flatMap {α : Type} (f : α → List (List Char)) (l : List α) :
    (l.flatMap f).flatten = (l.map fun a => (f a).flatten).flatten := by
  induction l with
  | nil => rfl
  | cons a l ih => simp [ih]

/-- What is written for a block has the ink of its lines. -/
theorem ink_block {before after : List String} {block : Block} (h : Fits before block after)
    (s : Slot ℚ) : ∃ texts, written s block = some texts ∧
      ink texts.flatten = ink (block.lines.map String.toList).flatten := by
  cases block with
  | blank line =>
    refine ⟨[], rfl, ?_⟩
    have hblank := ink_trim line
    rw [of_decide_eq_true h] at hblank
    simpa [Block.lines] using hblank
  | heading line level text =>
    exact ⟨_, rfl, by simp [Block.lines, ink_heading h.2]⟩
  | run kind lines =>
    cases kind with
    | table =>
      obtain ⟨drawn, hdrawn, hink⟩ := ink_drawTable s h.nonempty
      refine ⟨_, congrArg (Option.map _) hdrawn, ?_⟩
      rw [flatten_map_flatMap]
      exact hink
    | bullets =>
      refine ⟨_, rfl, ?_⟩
      rw [flatten_map_flatMap]
      exact ink_flatten_map fun line hline =>
        (ink_inlineSpans _).trans (ink_bulletText (h.all line hline))
    | paragraph =>
      refine ⟨_, rfl, ?_⟩
      rw [ink_inlineSpans, String.toList_intercalate]
      exact ink_intercalate (.inl rfl) _

theorem ink_blocks (places : ℕ → Slot ℚ) {blocks : List Block}
    (h : ∀ block ∈ blocks, ∃ before after, Fits before block after) (first : ℕ) :
    ∃ texts, (blocks.zipIdx first).mapM (fun b => written (places b.2) b.1) = some texts ∧
      ink texts.flatten.flatten = ink ((blocks.flatMap Block.lines).map String.toList).flatten := by
  induction blocks generalizing first with
  | nil => exact ⟨[], rfl, rfl⟩
  | cons block rest ih =>
    obtain ⟨⟨before, after, hfits⟩, hrest⟩ := List.forall_mem_cons.1 h
    obtain ⟨texts, hwritten, hink⟩ := ink_block hfits (places first)
    obtain ⟨later, hlater, hinkLater⟩ := ih hrest (first + 1)
    refine ⟨texts :: later, ?_, ?_⟩
    · rw [List.zipIdx_cons, List.mapM_cons, hwritten, hlater]
      rfl
    · rw [List.flatten_cons, List.flatten_append, ink_append, hink, hinkLater, List.flatMap_cons,
        List.map_append, List.flatten_append, ink_append]

/-- **Nothing that is there to be read is lost**, doubled or moved, wherever each block is drawn. -/
theorem ink_written (md : String) (places : ℕ → Slot ℚ) : ∃ blocks texts,
    drawBody (3 * (linesOf md).length + 2) md = some blocks ∧
    blocks.zipIdx.mapM (fun b => written (places b.2) b.1) = some texts ∧
    ink texts.flatten.flatten = ink md.toList := by
  obtain ⟨s, ⟨hpartition, hfits⟩, hloop⟩ := loop_segments (linesOf md)
  have hblocks : ∀ block ∈ s.drawn, ∃ before after, Fits before block after := by
    intro block hmem
    obtain ⟨before, after, hsplit⟩ := List.append_of_mem hmem
    exact ⟨_, _, hfits before block after hsplit⟩
  obtain ⟨texts, hwritten, hink⟩ := ink_blocks places hblocks 0
  refine ⟨s.drawn, texts, ?_, hwritten, ?_⟩
  · rw [drawBody, hloop _ (by omega), Option.map_some]
  · rw [hink, hpartition, linesOf, ink_split (.inl rfl), String.toList_ofList, ink_unixNewlines]

/-! ## The rows of a table -/

/-- The pages of a policy, for the rows of a table. -/
def sheet : Sheet ℚ where
  rowH := rowH
  top := topMargin
  limit := bottom
  top_fits := by norm_num [topMargin, rowH, bottom]

/-- The rows of a table with their places. -/
def placesOf (drawn : List (Slot ℚ × TableRow)) : List (Slot ℚ × List String) :=
  drawn.map fun d => (d.1, d.2.cells)

theorem placesOf_drawBodyRows (s : Slot ℚ) (rIdx : ℕ) (rows : List (List String)) :
    placesOf (drawBodyRows s rIdx rows) = sheet.place s rows := by
  induction rows generalizing s rIdx with
  | nil => rfl
  | cons row rest ih =>
    rw [Sheet.place, ← ih _ (rIdx + 1)]
    rfl

theorem ensureSpace_fits (s : Slot ℚ) : (ensureSpace (rowH * 2) s).y + rowH * 2 ≤ bottom := by
  unfold ensureSpace
  split
  · norm_num [topMargin, rowH, bottom]
  · next hfits => exact not_lt.1 hfits

/-- A row that there is room for goes where it is. -/
theorem slot_of_fits {s : Slot ℚ} (h : s.y + rowH ≤ bottom) : sheet.slot s = s :=
  if_neg (not_lt.2 h)

/-- The number of rows that there is room for. -/
def roomBelow (y : ℚ) : ℕ := ⌊(bottom - y) / rowH⌋₊

theorem room_below (y : ℚ) : sheet.Room y (roomBelow y) :=
  room_floor sheet (show (0 : ℚ) < 22 by norm_num) y

/-- A new page takes 29 rows. -/
theorem room_top : sheet.Room sheet.top (28 + 1) := by
  have htop : roomBelow sheet.top = 28 + 1 := by
    rw [roomBelow, Nat.floor_eq_iff (by norm_num [sheet, topMargin, rowH, bottom])]
    norm_num [sheet, topMargin, rowH, bottom]
  rw [← htop]
  exact room_below sheet.top

/-- The place of the row with the index `i`, the names of the columns being the first, with room for
`left` rows on the first page. -/
def rowSlot (s : Slot ℚ) (left i : ℕ) : Slot ℚ :=
  if i < left then ⟨s.page, s.y + i • rowH⟩
  else ⟨s.page + 1 + (i - left) / 29, topMargin + ((i - left) % 29) • rowH⟩

/-- The names of the columns and the rows of a table that is to begin at `s` and begins at `start`. -/
structure TableOnPages (s start : Slot ℚ) (header : List String) (body : List (List String))
    (drawn : List (Slot ℚ × TableRow)) : Prop where
  /-- Every row is drawn once, with its cells and at its place. -/
  rows : ∀ i : ℕ, (placesOf drawn)[i]? =
    (header :: body)[i]?.map fun cells => (rowSlot start (roomBelow start.y) i, cells)
  fits : ∀ d ∈ drawn, d.1.y + rowH ≤ bottom
  /-- A row is where the table begins or below it, or it is on a later page, below the top margin. -/
  below : ∀ d ∈ drawn, d.1.page = start.page ∧ start.y ≤ d.1.y ∨
    start.page < d.1.page ∧ topMargin ≤ d.1.y
  apart : drawn.Pairwise fun a b => Slot.Before ⟨a.1.page, a.1.y + rowH⟩ b.1
  /-- The first row is on the page of the names. -/
  together : ∀ names first rest, drawn = names :: first :: rest →
    first.1 = ⟨names.1.page, names.1.y + rowH⟩
  /-- The table begins where it is to if two rows fit there, or else at the top of the next page. -/
  begins : start = if s.y + rowH * 2 ≤ bottom then s else ⟨s.page + 1, topMargin⟩

theorem tableOnPages_of_fits {s start : Slot ℚ} (hfits : start.y + rowH * 2 ≤ bottom)
    (hbegins : start = if s.y + rowH * 2 ≤ bottom then s else ⟨s.page + 1, topMargin⟩)
    (header : List String) (body : List (List String)) : TableOnPages s start header body
      ((start, ⟨true, false, header⟩) :: drawBodyRows (sheet.below start) 0 body) := by
  have hsecond : start.y + rowH + rowH ≤ bottom := by rwa [add_assoc, ← mul_two]
  have hfirst : start.y + rowH ≤ bottom :=
    (le_add_of_nonneg_right (show (0 : ℚ) ≤ 22 by norm_num)).trans hsecond
  have hplaces : placesOf ((start, ⟨true, false, header⟩) ::
      drawBodyRows (sheet.below start) 0 body) = sheet.place start (header :: body) := by
    rw [Sheet.place, slot_of_fits hfirst, ← placesOf_drawBodyRows _ 0]
    rfl
  have hrow : (0 : ℚ) ≤ 22 := by norm_num
  have hmem : ∀ d ∈ (start, ⟨true, false, header⟩) :: drawBodyRows (sheet.below start) 0 body,
      (d.1, d.2.cells) ∈ sheet.place start (header :: body) := by
    intro d hd
    rw [← hplaces]
    exact List.mem_map_of_mem hd
  constructor
  · intro i
    rw [hplaces, place_getElem? room_top (room_below start.y)]
    rfl
  · intro d hd
    exact fits_of_mem_place sheet (d.1, d.2.cells) (hmem d hd)
  · intro d hd
    rcases before_of_mem_place sheet hrow (d.1, d.2.cells) (hmem d hd) with hlater | ⟨hpage, hy⟩
    · rcases top_of_mem_place sheet hrow (.inl rfl) (d.1, d.2.cells) (hmem d hd) with hpage | htop
      · exact absurd hpage hlater.ne'
      · exact .inr ⟨hlater, htop⟩
    · exact .inl ⟨hpage.symm, hy⟩
  · have hpairwise := pairwise_place sheet hrow start (header :: body)
    rw [← hplaces, placesOf, List.pairwise_map] at hpairwise
    exact hpairwise
  · intro names first rest heq
    obtain ⟨rfl, hrest⟩ := List.cons_eq_cons.1 heq
    cases body with
    | nil => cases hrest
    | cons row body =>
      rw [drawBodyRows] at hrest
      obtain ⟨rfl, -⟩ := List.cons_eq_cons.1 hrest
      exact if_neg (not_lt.2 hsecond)
  · exact hbegins

/-- **Tables stand on their pages.** -/
theorem table_on_pages (s : Slot ℚ) (line : String) (lines : List String) : ∃ start drawn,
    drawTable s (line :: lines) = some drawn ∧
    TableOnPages s start (cellsOf line) (bodyRows ((line :: lines).map cellsOf)) drawn := by
  refine ⟨_, _, rfl, tableOnPages_of_fits (ensureSpace_fits s) ?_ (cellsOf line) _⟩
  simp only [ensureSpace, ← not_le, ite_not]

end BankDemo.PolicyDocs
