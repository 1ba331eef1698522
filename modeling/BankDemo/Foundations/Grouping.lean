import Mathlib.Data.List.Basic

/-!
# Groups of digits

A text in groups from the right, the groups parted by a separator (`Grouped`): there is one such
text for a list of digits (`Grouped.unique`), and without its separators the digits are there again
(`Grouped.filter`).

The usual regular expression for thousands, `/\B(?=(\d{3})+(?!\d))/g`, is spelt out on characters
(`insertCommas`). On a numeral it makes the groups of three (`grouped_insertCommas`).
-/

namespace BankDemo.Grouping

variable {α : Type*}

/-- The text is that of the digits in groups of `k` from the right, with `sep` before every group
but the first. Only the first may be shorter, and it is not empty. -/
def Grouped (sep : α) (k : ℕ) (digits text : List α) : Prop :=
  ∃ (front : List α) (groups : List (List α)), digits = front ++ groups.flatten ∧
    text = front ++ groups.flatMap (sep :: ·) ∧ front ≠ [] ∧ front.length ≤ k ∧
    ∀ group ∈ groups, group.length = k

namespace Grouped

variable {sep : α} {k : ℕ} {digits text : List α}

theorem short (hne : digits ≠ []) (hle : digits.length ≤ k) : Grouped sep k digits digits :=
  ⟨digits, [], by simp, by simp, hne, hle, by simp⟩

/-- One more group on the right. -/
theorem concat (h : Grouped sep k digits text) {group : List α} (hgroup : group.length = k) :
    Grouped sep k (digits ++ group) (text ++ sep :: group) := by
  obtain ⟨front, groups, rfl, rfl, hne, hle, hgroups⟩ := h
  refine ⟨front, groups ++ [group], by simp, by simp, hne, hle, ?_⟩
  intro g hg
  rcases List.mem_append.1 hg with hg | hg
  · exact hgroups g hg
  · rw [List.mem_singleton.1 hg, hgroup]

/-- The text begins with the first digit. -/
theorem head?_eq (h : Grouped sep k digits text) : text.head? = digits.head? := by
  obtain ⟨front, groups, rfl, rfl, hne, -, -⟩ := h
  rw [List.head?_append_of_ne_nil _ hne, List.head?_append_of_ne_nil _ hne]

/-- Without the separators the digits are there as they were. -/
theorem filter [DecidableEq α] (h : Grouped sep k digits text) (hsep : sep ∉ digits) :
    text.filter (· ≠ sep) = digits := by
  obtain ⟨front, groups, rfl, rfl, -, -, -⟩ := h
  have hkeep : ∀ l : List α, sep ∉ l → l.filter (· ≠ sep) = l := by
    intro l hl
    refine List.filter_eq_self.2 fun a ha => decide_eq_true fun heq => hl (heq ▸ ha)
  rw [List.mem_append, not_or] at hsep
  rw [List.filter_append, hkeep front hsep.1, List.filter_flatMap]
  congr 1
  rw [← List.flatMap_id']
  refine List.flatMap_congr fun group hgroup => ?_
  have hmem : sep ∉ group := fun ha => hsep.2 (List.mem_flatten.2 ⟨group, hgroup, ha⟩)
  rw [List.filter_cons_of_neg (by simp), hkeep group hmem]

theorem length_flatten {groups : List (List α)} (hgroups : ∀ group ∈ groups, group.length = k) :
    groups.flatten.length = groups.length * k := by
  rw [List.length_flatten, List.map_congr_left hgroups, List.map_const', List.sum_replicate_nat]

/-- **The digits have one text in groups.** -/
theorem unique {other : List α} (h : Grouped sep k digits text) (h' : Grouped sep k digits other) :
    text = other := by
  obtain ⟨front, groups, rfl, rfl, hne, hle, hgroups⟩ := h
  obtain ⟨front', groups', hdigits, rfl, hne', hle', hgroups'⟩ := h'
  have hpos := List.length_pos_iff.2 hne
  have hpos' := List.length_pos_iff.2 hne'
  have hlength := congrArg List.length hdigits
  rw [List.length_append, List.length_append, length_flatten hgroups, length_flatten hgroups']
    at hlength
  -- The fronts are not empty and not above `k`, so as many groups follow them.
  have hcount : groups.length = groups'.length := by
    rcases Nat.lt_trichotomy groups.length groups'.length with hlt | heq | hgt
    · have := Nat.mul_le_mul_right k (Nat.succ_le_of_lt hlt)
      rw [Nat.succ_mul] at this
      omega
    · exact heq
    · have := Nat.mul_le_mul_right k (Nat.succ_le_of_lt hgt)
      rw [Nat.succ_mul] at this
      omega
  rw [hcount] at hlength
  obtain ⟨rfl, hflatten⟩ := List.append_inj hdigits (by omega)
  have hlengths : groups.map List.length = groups'.map List.length := by
    rw [List.map_congr_left hgroups, List.map_congr_left hgroups', List.map_const',
      List.map_const', hcount]
  rw [List.eq_iff_flatten_eq.2 ⟨hflatten, hlengths⟩]

end Grouped

/-! ## Thousands by a regular expression -/

/-- `\w` in front of a position or behind it; there is none at the ends of the text. -/
def isWord : Option Char → Bool
  | some c => c.isAlphanum || c = '_'
  | none => false

/-- `(\d{3})+(?!\d)`: as many groups of three as there are, one less at a time. -/
def triplesAhead : List Char → Bool
  | a :: b :: c :: rest =>
    a.isDigit && b.isDigit && c.isDigit &&
      (triplesAhead rest || !(rest.head?.any Char.isDigit))
  | _ => false

/-- `\B(?=(\d{3})+(?!\d))` matches between `before` and the rest of the text. -/
def matchesAt (before : Option Char) (rest : List Char) : Bool :=
  isWord before == isWord rest.head? && triplesAhead rest

/-- `replace(/\B(?=(\d{3})+(?!\d))/g, ',')` on the rest of a text: the matches are empty, so every
position is looked at. -/
def insertCommas (before : Option Char) : List Char → List Char
  | [] => if matchesAt before [] then [','] else []
  | c :: rest =>
    if matchesAt before (c :: rest) then ',' :: c :: insertCommas (some c) rest
    else c :: insertCommas (some c) rest

theorem isWord_digit {c : Char} (hc : c.isDigit = true) : isWord (some c) = true := by
  rw [isWord, Char.isAlphanum, hc, Bool.or_true, Bool.true_or]

/-- Among digits the groups come out when their number is a multiple of 3. -/
theorem triplesAhead_iff {digits : List Char} (hdigits : ∀ c ∈ digits, c.isDigit = true) :
    triplesAhead digits = true ↔ digits ≠ [] ∧ digits.length % 3 = 0 := by
  fun_induction triplesAhead digits with
  | case1 a b c rest ih =>
    have hrest : ∀ d ∈ rest, d.isDigit = true := fun d hd => hdigits d (by simp [hd])
    simp only [hdigits a (by simp), hdigits b (by simp), hdigits c (by simp), Bool.true_and,
      Bool.or_eq_true, ih hrest, ne_eq, reduceCtorEq, not_false_eq_true, true_and,
      List.length_cons]
    cases rest with
    | nil => simp
    | cons d rest =>
      simp only [List.head?_cons, Option.any_some, hrest d (by simp), List.length_cons,
        Bool.not_true, Bool.false_eq_true, or_false, reduceCtorEq, not_false_eq_true,
        true_and]
      omega
  | case2 digits hshort =>
    rcases digits with _ | ⟨a, _ | ⟨b, _ | ⟨c, rest⟩⟩⟩
    · simp
    · simp
    · simp
    · exact absurd rfl (hshort a b c rest)

theorem matchesAt_digits {before : Char} (hbefore : before.isDigit = true) {digits : List Char}
    (hdigits : ∀ c ∈ digits, c.isDigit = true) :
    matchesAt (some before) digits = true ↔ digits ≠ [] ∧ digits.length % 3 = 0 := by
  rw [matchesAt, Bool.and_eq_true, triplesAhead_iff hdigits, isWord_digit hbefore]
  refine ⟨fun h => h.2, fun h => ⟨?_, h⟩⟩
  obtain ⟨c, rest, rfl⟩ := List.exists_cons_of_ne_nil h.1
  rw [List.head?_cons, isWord_digit (hdigits c (by simp))]
  rfl

/-- Behind a digit, what is left is cut into groups of three, with a comma before each. -/
theorem insertCommas_digits {before : Char} (hbefore : before.isDigit = true)
    {digits : List Char} (hdigits : ∀ c ∈ digits, c.isDigit = true) :
    ∃ (front : List Char) (groups : List (List Char)), digits = front ++ groups.flatten ∧
      insertCommas (some before) digits = front ++ groups.flatMap (',' :: ·) ∧
      front.length = digits.length % 3 ∧ ∀ group ∈ groups, group.length = 3 := by
  induction digits generalizing before with
  | nil => exact ⟨[], [], rfl, by simp [insertCommas, matchesAt, triplesAhead], rfl, by simp⟩
  | cons c digits ih =>
    obtain ⟨front, groups, hdigits', htext, hfront, hgroups⟩ :=
      ih (hdigits c (by simp)) fun d hd => hdigits d (List.mem_cons_of_mem c hd)
    have hmatch := matchesAt_digits hbefore hdigits
    rw [List.length_cons] at hmatch ⊢
    rw [insertCommas, htext]
    rcases Nat.eq_zero_or_pos ((digits.length + 1) % 3) with hzero | hpos
    · -- Here a group of three is complete.
      refine ⟨[], (c :: front) :: groups, by simp [← hdigits'], ?_, hzero.symm, ?_⟩
      · rw [if_pos (hmatch.2 ⟨by simp, hzero⟩)]
        simp
      · intro group hgroup
        rcases List.mem_cons.1 hgroup with rfl | hgroup
        · rw [List.length_cons, hfront]
          omega
        · exact hgroups group hgroup
    · refine ⟨c :: front, groups, by simp [← hdigits'], ?_, ?_, hgroups⟩
      · rw [if_neg fun h => by have := (hmatch.1 h).2; omega]
        rfl
      · rw [List.length_cons, hfront]
        omega

/-- **The regular expression cuts a numeral into groups of three.** -/
theorem grouped_insertCommas {digits : List Char} (hne : digits ≠ [])
    (hdigits : ∀ c ∈ digits, c.isDigit = true) :
    Grouped ',' 3 digits (insertCommas none digits) := by
  obtain ⟨c, digits, rfl⟩ := List.exists_cons_of_ne_nil hne
  have hc := hdigits c (by simp)
  obtain ⟨front, groups, hdigits', htext, hfront, hgroups⟩ :=
    insertCommas_digits hc fun d hd => hdigits d (List.mem_cons_of_mem c hd)
  -- At the front there is a word boundary.
  have hnone : matchesAt none (c :: digits) = false := by
    rw [matchesAt, List.head?_cons, isWord_digit hc]
    rfl
  have hle : (c :: front).length ≤ 3 := by
    rw [List.length_cons, hfront]
    omega
  refine ⟨c :: front, groups, by rw [List.cons_append, ← hdigits'], ?_, by simp, hle, hgroups⟩
  rw [insertCommas, hnone, htext]
  rfl

end BankDemo.Grouping
