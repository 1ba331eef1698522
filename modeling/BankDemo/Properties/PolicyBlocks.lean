import BankDemo.PolicyDocs.Renderer

/-!
# The blocks of a policy

`drawBody` ends for every text, and the blocks that it draws are the lines of the text, in order:
each line is in one block, the tables and the lists are maximal runs, and a paragraph goes on only
with lines that open nothing else (`drawBody_segments`).

A line that is a mark and white space opens a heading by the test that ends a paragraph, and is
none by the test of the outer loop: it is then the first line of a paragraph.
-/

namespace BankDemo.PolicyDocs

open JsString Scanning

/-! ## What a block is to be -/

/-- A paragraph: the first line is nothing else, and the later ones open nothing else. -/
structure IsParagraph (first : String) (later : List String) : Prop where
  blank : isBlank first = false
  heading : PolicyDocs.heading first = none
  table : isTableLine first = false
  bullet : isBulletLine first = false
  later : ∀ line ∈ later, isBlank line = false ∧ opensHeading line = false ∧
    PolicyDocs.heading line = none ∧ isBulletLine line = false ∧ isTableLine line = false

/-- What a block is to be between the lines before it and those after it. -/
def Fits (before : List String) : Block → List String → Prop
  | .blank line, _ => isBlank line = true
  | .heading line level text, _ => isBlank line = false ∧ heading line = some (level, text)
  | .run .table lines, after => MaximalRun isTableLine before lines after
  | .run .bullets lines, after => MaximalRun isBulletLine before lines after
  | .run .paragraph lines, _ => ∃ first later, lines = first :: later ∧ IsParagraph first later

/-! ## One line is not of two kinds -/

theorem head?_of_isTableLine {line : String} (h : isTableLine line = true) :
    line.toList.head? = some '|' := by
  rw [isTableLine] at h
  split at h
  · next hlist => rw [hlist]; rfl
  · exact absurd h Bool.false_ne_true

theorem head?_of_isBulletLine {line : String} (h : isBulletLine line = true) :
    line.toList.head? = some '-' ∨ line.toList.head? = some '*' := by
  rw [isBulletLine] at h
  split at h
  · next mark c rest hlist =>
    rw [hlist, List.head?_cons, Option.some_inj, Option.some_inj]
    simpa using (Bool.and_eq_true_iff.1 h).1
  · exact absurd h Bool.false_ne_true

theorem afterMarks_eq_some {α : Type} {next : List Char → Option α} {line : String} {h : ℕ × α}
    (heq : afterMarks next line = some h) : line.toList.head? = some '#' ∧ h.1 ∈ [3, 2, 1] ∧
      List.replicate h.1 '#' <+: line.toList ∧ next (line.toList.drop h.1) = some h.2 := by
  obtain ⟨level, hlevel, hmatch⟩ := List.exists_of_findSome?_eq_some heq
  split at hmatch
  · next hprefix =>
    obtain ⟨a, ha, rfl⟩ := Option.map_eq_some_iff.1 hmatch
    have hprefix' := List.isPrefixOf_iff_prefix.1 hprefix
    refine ⟨?_, hlevel, hprefix', ha⟩
    obtain ⟨rest, hrest⟩ := hprefix'
    rw [← hrest]
    simp only [List.mem_cons, List.not_mem_nil, or_false] at hlevel
    rcases hlevel with rfl | rfl | rfl <;> rfl
  · cases hmatch

theorem heading_eq_some {line : String} {h : ℕ × String} (heq : heading line = some h) :
    ∃ text, afterMarks spacesThenText line = some (h.1, text) := by
  obtain ⟨⟨level, text⟩, hmatch, rfl⟩ := Option.map_eq_some_iff.1 heq
  exact ⟨text, hmatch⟩

/-- The test of the outer loop is the stricter one. -/
theorem opensHeading_of_heading {line : String} {h : ℕ × String} (heq : heading line = some h) :
    opensHeading line = true := by
  obtain ⟨text, hmatch⟩ := heading_eq_some heq
  obtain ⟨-, hlevel, hprefix, htext⟩ := afterMarks_eq_some hmatch
  refine List.findSome?_isSome_iff.2 ⟨h.1, hlevel, ?_⟩
  have hspace : (line.toList.drop h.1).head?.any isSpace = true := by
    cases hrest : line.toList.drop h.1 with
    | nil => rw [hrest] at htext; cases htext
    | cons c rest =>
      rw [hrest, spacesThenText] at htext
      split at htext
      · next hc => exact hc
      · cases htext
  simp only [List.isPrefixOf_iff_prefix.2 hprefix, if_true, hspace, Option.map_some,
    Option.isSome_some]

theorem heading_eq_none {line : String} (h : opensHeading line = false) : heading line = none := by
  cases hheading : heading line with
  | none => rfl
  | some value =>
    rw [opensHeading_of_heading hheading] at h
    cases h

theorem isSpace_of_isBlank {line : String} (h : isBlank line = true) :
    ∀ c ∈ line.toList.head?, isSpace c = true := by
  have hempty : (line.toList.dropWhile isSpace).rdropWhile isSpace = [] := by
    have htrim := congrArg String.toList (of_decide_eq_true h)
    rw [trim, String.toList_ofList] at htrim
    exact htrim
  intro c hc
  obtain ⟨rest, hlist⟩ := List.head?_eq_some_iff.1 hc
  by_contra hspace
  rw [hlist, List.dropWhile_cons_of_neg hspace] at hempty
  exact hspace (List.rdropWhile_eq_nil_iff.1 hempty c (by simp))

/-- Neither a row of a table nor an item of a list. -/
def IsPlain (line : String) : Prop := isTableLine line = false ∧ isBulletLine line = false

theorem isPlain_of_head? {line : String} (hbar : line.toList.head? ≠ some '|')
    (hdash : line.toList.head? ≠ some '-') (hstar : line.toList.head? ≠ some '*') :
    IsPlain line := by
  constructor
  · exact Bool.eq_false_iff.2 fun h => hbar (head?_of_isTableLine h)
  · exact Bool.eq_false_iff.2 fun h => (head?_of_isBulletLine h).elim hdash hstar

theorem isPlain_of_isBlank {line : String} (h : isBlank line = true) : IsPlain line := by
  have hspace := isSpace_of_isBlank h
  refine isPlain_of_head? ?_ ?_ ?_ <;> intro hhead <;> exact absurd (hspace _ hhead) (by decide)

theorem isPlain_of_heading {line : String} {h : ℕ × String} (heq : heading line = some h) :
    IsPlain line := by
  obtain ⟨text, hmatch⟩ := heading_eq_some heq
  obtain ⟨hhead, -⟩ := afterMarks_eq_some hmatch
  refine isPlain_of_head? ?_ ?_ ?_ <;> rw [hhead] <;> decide

theorem isBulletLine_of_isTableLine {line : String} (h : isTableLine line = true) :
    isBulletLine line = false := by
  refine Bool.eq_false_iff.2 fun hbullet => ?_
  have hhead := head?_of_isBulletLine hbullet
  rw [head?_of_isTableLine h] at hhead
  exact absurd hhead (by decide)

/-! ## The rounds -/

/-- What a round does. -/
inductive Moves (lines : List String) : Drawing → Drawing → Prop
  | blank {i drawn line} (hline : lines[i]? = some line) (hblank : isBlank line = true) :
    Moves lines ⟨i, drawn, .outer⟩ ⟨i + 1, drawn ++ [.blank line], .outer⟩
  | heading {i drawn line level text} (hline : lines[i]? = some line)
    (hblank : isBlank line = false) (hheading : heading line = some (level, text)) :
    Moves lines ⟨i, drawn, .outer⟩ ⟨i + 1, drawn ++ [.heading line level text], .outer⟩
  | table {i drawn line} (hline : lines[i]? = some line) (htable : isTableLine line = true) :
    Moves lines ⟨i, drawn, .outer⟩ ⟨i, drawn, .gathering .table []⟩
  | bullets {i drawn line} (hline : lines[i]? = some line) (hbullet : isBulletLine line = true) :
    Moves lines ⟨i, drawn, .outer⟩ ⟨i, drawn, .gathering .bullets []⟩
  | paragraph {i drawn line} (hline : lines[i]? = some line) (hfirst : IsParagraph line []) :
    Moves lines ⟨i, drawn, .outer⟩ ⟨i + 1, drawn, .gathering .paragraph [line]⟩
  | push {i drawn kind gathered line} (hline : lines[i]? = some line)
    (hgoes : kind.goesOn line = true) :
    Moves lines ⟨i, drawn, .gathering kind gathered⟩
      ⟨i + 1, drawn, .gathering kind (gathered ++ [line])⟩
  | close {i drawn kind gathered} (hends : ∀ line ∈ lines[i]?, kind.goesOn line = false) :
    Moves lines ⟨i, drawn, .gathering kind gathered⟩
      ⟨i, drawn ++ [.run kind gathered], .outer⟩

theorem moves_of_step {lines : List String} {s s' : Drawing} (h : step lines s = some s') :
    Moves lines s s' := by
  obtain ⟨i, drawn, mode⟩ := s
  cases mode with
  | outer =>
    cases hline : lines[i]? with
    | none => simp [step, hline] at h
    | some line =>
      simp only [step, hline] at h
      split at h
      · next hblank =>
        cases h
        exact .blank hline hblank
      · next hblank =>
        have hblank' := Bool.eq_false_iff.2 hblank
        split at h
        · next level text hheading =>
          cases h
          exact .heading hline hblank' hheading
        · next hheading =>
          split at h
          · next htable =>
            cases h
            exact .table hline htable
          · next htable =>
            split at h
            · next hbullet =>
              cases h
              exact .bullets hline hbullet
            · next hbullet =>
              cases h
              exact .paragraph hline ⟨hblank', hheading, Bool.eq_false_iff.2 htable,
                Bool.eq_false_iff.2 hbullet, by simp⟩
  | gathering kind gathered =>
    simp only [step] at h
    split at h
    · next line hfilter =>
      cases h
      obtain ⟨hline, hgoes⟩ := Option.filter_eq_some_iff.1 hfilter
      exact .push hline hgoes
    · next hfilter =>
      cases h
      refine .close fun line hline => ?_
      exact Bool.eq_false_iff.2 (Option.filter_eq_none_iff.1 hfilter line hline)

theorem over_of_step {lines : List String} {s : Drawing} (h : step lines s = none) :
    s.mode = .outer ∧ lines[s.i]? = none := by
  obtain ⟨i, drawn, mode⟩ := s
  cases mode with
  | outer =>
    cases hline : lines[i]? with
    | none => exact ⟨rfl, rfl⟩
    | some line =>
      simp only [step, hline] at h
      split at h
      · cases h
      · split at h
        · cases h
        · split at h
          · cases h
          · split at h <;> cases h
  | gathering kind gathered =>
    simp only [step] at h
    split at h <;> cases h

/-! ## The invariant -/

/-- No run goes on from the lines before into the rest. -/
def Apart (before rest : List String) : Prop :=
  ∀ last ∈ before.getLast?, ∀ next ∈ rest.head?,
    (isTableLine next = true → isTableLine last = false) ∧
    (isBulletLine next = true → isBulletLine last = false)

/-- What is gathered of a block, between the lines of the blocks drawn and the rest. -/
def Gathers (before : List String) : RunKind → List String → List String → Prop
  | .table, gathered, rest => Gathering isTableLine before gathered rest
  | .bullets, gathered, rest => Gathering isBulletLine before gathered rest
  | .paragraph, gathered, _ => ∃ first later, gathered = first :: later ∧ IsParagraph first later

/-- What holds in each loop. -/
def Stands (before : List String) : Mode → List String → Prop
  | .outer, rest => Apart before rest
  | .gathering kind gathered, rest => Gathers before kind gathered rest

/-- Every line is in a block that is drawn, among those gathered, or still to come. -/
structure Invariant (lines : List String) (s : Drawing) : Prop where
  partition : s.drawn.flatMap Block.lines ++ (s.mode.lines ++ lines.drop s.i) = lines
  fits : AllFit Block.lines Fits s.drawn (s.mode.lines ++ lines.drop s.i)
  stands : Stands (s.drawn.flatMap Block.lines) s.mode (lines.drop s.i)

theorem drop_of_getElem? {α : Type} {l : List α} {i : ℕ} {a : α} (h : l[i]? = some a) :
    i < l.length ∧ l.drop i = a :: l.drop (i + 1) := by
  obtain ⟨hi, rfl⟩ := List.getElem?_eq_some_iff.1 h
  exact ⟨hi, List.drop_eq_getElem_cons hi⟩

theorem apart_append {before run rest : List String} (hne : run ≠ [])
    (h : ∀ last ∈ run, ∀ next ∈ rest.head?,
      (isTableLine next = true → isTableLine last = false) ∧
      (isBulletLine next = true → isBulletLine last = false)) : Apart (before ++ run) rest := by
  intro last hlast
  rw [List.getLast?_append_of_ne_nil _ hne] at hlast
  exact h last (List.mem_of_getLast? hlast)

theorem apart_of_isPlain {before run rest : List String} (hne : run ≠ [])
    (h : ∀ last ∈ run, IsPlain last) : Apart (before ++ run) rest :=
  apart_append hne fun last hlast _ _ => ⟨fun _ => (h last hlast).1, fun _ => (h last hlast).2⟩

theorem apart_of_line {before rest : List String} {line : String} (h : IsPlain line) :
    Apart (before ++ [line]) rest :=
  apart_of_isPlain (List.cons_ne_nil _ _) fun last hlast => by
    rwa [List.mem_singleton.1 hlast]

theorem IsParagraph.isPlain {first : String} {later : List String} (h : IsParagraph first later) :
    ∀ line ∈ first :: later, IsPlain line := by
  intro line hline
  rcases List.mem_cons.1 hline with rfl | hline
  · exact ⟨h.table, h.bullet⟩
  · obtain ⟨-, -, -, hbullet, htable⟩ := h.later line hline
    exact ⟨htable, hbullet⟩

theorem IsParagraph.push {first line : String} {later : List String} (h : IsParagraph first later)
    (hline : RunKind.paragraph.goesOn line = true) : IsParagraph first (later ++ [line]) := by
  simp only [RunKind.goesOn, Bool.and_eq_true, Bool.not_eq_true'] at hline
  obtain ⟨⟨⟨hblank, hopens⟩, hbullet⟩, htable⟩ := hline
  refine { h with later := fun other hother => ?_ }
  rcases List.mem_append.1 hother with hother | hother
  · exact h.later other hother
  · rw [List.mem_singleton.1 hother]
    exact ⟨hblank, hopens, heading_eq_none hopens, hbullet, htable⟩

/-- One more line for the block that is gathered. -/
theorem Gathers.push {before gathered rest : List String} {kind : RunKind} {line : String}
    (h : Gathers before kind gathered (line :: rest)) (hline : kind.goesOn line = true) :
    Gathers before kind (gathered ++ [line]) rest := by
  cases kind with
  | table => exact Gathering.push h hline
  | bullets => exact Gathering.push h hline
  | paragraph =>
    obtain ⟨first, later, rfl, hparagraph⟩ := h
    exact ⟨first, later ++ [line], rfl, hparagraph.push hline⟩

/-- The guard of the inner loop fails: something is gathered, it is a block, and no run goes on
behind it. -/
theorem Gathers.close {before gathered rest : List String} {kind : RunKind}
    (h : Gathers before kind gathered rest)
    (hends : ∀ line ∈ rest.head?, kind.goesOn line = false) :
    gathered ≠ [] ∧ Fits before (.run kind gathered) rest ∧ Apart (before ++ gathered) rest := by
  cases kind with
  | table =>
    have hrun : MaximalRun isTableLine before gathered rest := Gathering.close h hends
    refine ⟨hrun.nonempty, hrun, apart_append hrun.nonempty fun last hlast next hnext => ?_⟩
    refine ⟨fun hnext' => ?_, fun _ => isBulletLine_of_isTableLine (hrun.all last hlast)⟩
    rw [hrun.ends next hnext] at hnext'
    cases hnext'
  | bullets =>
    have hrun : MaximalRun isBulletLine before gathered rest := Gathering.close h hends
    refine ⟨hrun.nonempty, hrun, apart_append hrun.nonempty fun last hlast next hnext => ?_⟩
    refine ⟨fun _ => Bool.eq_false_iff.2 fun htable => ?_, fun hnext' => ?_⟩
    · have hbullet := hrun.all last hlast
      rw [isBulletLine_of_isTableLine htable] at hbullet
      cases hbullet
    · rw [hrun.ends next hnext] at hnext'
      cases hnext'
  | paragraph =>
    obtain ⟨first, later, rfl, hparagraph⟩ := h
    exact ⟨by simp, ⟨first, later, rfl, hparagraph⟩,
      apart_of_isPlain (by simp) hparagraph.isPlain⟩

/-- A block is drawn, and the outer loop goes on. -/
theorem invariant_drawn {lines : List String} {i : ℕ} {drawn : List Block} {block : Block}
    (hpartition : drawn.flatMap Block.lines ++ (block.lines ++ lines.drop i) = lines)
    (hfits : AllFit Block.lines Fits drawn (block.lines ++ lines.drop i))
    (hblock : Fits (drawn.flatMap Block.lines) block (lines.drop i))
    (hapart : Apart (drawn.flatMap Block.lines ++ block.lines) (lines.drop i)) :
    Invariant lines ⟨i, drawn ++ [block], .outer⟩ := by
  have hlines : (drawn ++ [block]).flatMap Block.lines =
      drawn.flatMap Block.lines ++ block.lines := by simp
  refine ⟨?_, hfits.concat hblock, ?_⟩
  · rw [hlines, Mode.lines, List.nil_append, List.append_assoc, hpartition]
  · rwa [hlines]

/-- The rounds that are left: three for a line, and what the place in the loops allows. -/
def roundsLeft (lines : List String) (s : Drawing) : ℕ :=
  3 * (lines.length - s.i) +
    match s.mode with
    | .outer => 1
    | .gathering _ [] => 0
    | .gathering _ (_ :: _) => 2

theorem roundsLeft_gathering {lines gathered : List String} {i : ℕ} {drawn : List Block}
    {kind : RunKind} (hne : gathered ≠ []) :
    roundsLeft lines ⟨i, drawn, .gathering kind gathered⟩ = 3 * (lines.length - i) + 2 := by
  obtain ⟨line, gathered, rfl⟩ := List.exists_cons_of_ne_nil hne
  rfl

theorem roundsLeft_gathering_ge {lines gathered : List String} {i : ℕ} {drawn : List Block}
    {kind : RunKind} :
    3 * (lines.length - i) ≤ roundsLeft lines ⟨i, drawn, .gathering kind gathered⟩ :=
  Nat.le_add_right _ _

/-- Every round keeps the invariant and leaves fewer rounds. -/
theorem invariant_moves {lines : List String} {s s' : Drawing} (hs : Invariant lines s)
    (h : Moves lines s s') : Invariant lines s' ∧ roundsLeft lines s' < roundsLeft lines s := by
  obtain ⟨hpartition, hfits, hstands⟩ := hs
  cases h with
  | @blank i drawn line hline hblank =>
    obtain ⟨hi, hdrop⟩ := drop_of_getElem? hline
    simp only [Mode.lines, List.nil_append, hdrop] at hpartition hfits
    refine ⟨invariant_drawn hpartition hfits hblank
      (apart_of_line (isPlain_of_isBlank hblank)), ?_⟩
    simp only [roundsLeft]
    omega
  | @heading i drawn line level text hline hblank hheading =>
    obtain ⟨hi, hdrop⟩ := drop_of_getElem? hline
    simp only [Mode.lines, List.nil_append, hdrop] at hpartition hfits
    refine ⟨invariant_drawn hpartition hfits ⟨hblank, hheading⟩
      (apart_of_line (isPlain_of_heading hheading)), ?_⟩
    simp only [roundsLeft]
    omega
  | @table i drawn line hline htable =>
    obtain ⟨hi, hdrop⟩ := drop_of_getElem? hline
    refine ⟨⟨hpartition, hfits, ?_⟩, by simp only [roundsLeft]; omega⟩
    have hnext : line ∈ (lines.drop i).head? := by rw [hdrop]; rfl
    rw [hdrop]
    exact Gathering.enter htable fun last hlast => (hstands last hlast line hnext).1 htable
  | @bullets i drawn line hline hbullet =>
    obtain ⟨hi, hdrop⟩ := drop_of_getElem? hline
    refine ⟨⟨hpartition, hfits, ?_⟩, by simp only [roundsLeft]; omega⟩
    have hnext : line ∈ (lines.drop i).head? := by rw [hdrop]; rfl
    rw [hdrop]
    exact Gathering.enter hbullet fun last hlast => (hstands last hlast line hnext).2 hbullet
  | @paragraph i drawn line hline hfirst =>
    obtain ⟨hi, hdrop⟩ := drop_of_getElem? hline
    simp only [Mode.lines, List.nil_append, hdrop] at hpartition hfits
    refine ⟨⟨hpartition, hfits, line, [], rfl, hfirst⟩, ?_⟩
    simp only [roundsLeft]
    omega
  | @push i drawn kind gathered line hline hgoes =>
    obtain ⟨hi, hdrop⟩ := drop_of_getElem? hline
    simp only [Stands, hdrop] at hstands
    have hlines : gathered ++ lines.drop i = gathered ++ [line] ++ lines.drop (i + 1) := by
      rw [hdrop, List.append_assoc, List.singleton_append]
    simp only [Mode.lines, hlines] at hpartition hfits
    refine ⟨⟨hpartition, hfits, hstands.push hgoes⟩, ?_⟩
    have hge : 3 * (lines.length - i) ≤
        roundsLeft lines ⟨i, drawn, .gathering kind gathered⟩ := roundsLeft_gathering_ge
    rw [roundsLeft_gathering (List.concat_ne_nil _ _)]
    omega
  | @close i drawn kind gathered hends =>
    rw [← List.head?_drop] at hends
    obtain ⟨hne, hfit, hapart⟩ := Gathers.close hstands hends
    refine ⟨invariant_drawn hpartition hfits hfit hapart, ?_⟩
    rw [roundsLeft_gathering hne]
    simp only [roundsLeft]
    omega

theorem invariant_start (lines : List String) : Invariant lines ⟨0, [], .outer⟩ :=
  ⟨rfl, allFit_nil _, fun last hlast => by cases hlast⟩

/-- The loops end, with the lines in blocks. -/
theorem loop_segments (lines : List String) : ∃ s, Segments Block.lines Fits lines s.drawn ∧
    ∀ fuel, 3 * lines.length + 1 < fuel → loop (step lines) fuel ⟨0, [], .outer⟩ = some s := by
  obtain ⟨s, ⟨hpartition, hfits, -⟩, hover, hloop⟩ :=
    loop_total (fun hs hstep => invariant_moves hs (moves_of_step hstep)) (invariant_start lines)
  obtain ⟨hmode, hend⟩ := over_of_step hover
  have hdrop : lines.drop s.i = [] := List.drop_eq_nil_of_le (List.getElem?_eq_none_iff.1 hend)
  simp only [hmode, Mode.lines, hdrop, List.append_nil] at hpartition hfits
  exact ⟨s, ⟨hpartition, hfits⟩, hloop⟩

/-- **The body of a policy is drawn, block by block.** -/
theorem drawBody_segments (md : String) : ∃ blocks,
    Segments Block.lines Fits (linesOf md) blocks ∧
    ∀ fuel, 3 * (linesOf md).length + 1 < fuel → drawBody fuel md = some blocks := by
  obtain ⟨s, hsegments, hloop⟩ := loop_segments (linesOf md)
  refine ⟨s.drawn, hsegments, fun fuel hfuel => ?_⟩
  simp only [drawBody, hloop fuel hfuel, Option.map_some]

theorem drawBody_segments_of_sample : ∃ blocks,
    Segments Block.lines Fits (linesOf "# Fees\n\n- one\n- two\nplain") blocks ∧
    drawBody 20 "# Fees\n\n- one\n- two\nplain" = some blocks := by
  obtain ⟨blocks, hsegments, hdraw⟩ := drawBody_segments "# Fees\n\n- one\n- two\nplain"
  exact ⟨blocks, hsegments, hdraw 20 (by decide +kernel)⟩

end BankDemo.PolicyDocs
