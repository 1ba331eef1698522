import Mathlib.Data.List.DropRight
import Mathlib.Algebra.BigOperators.Group.List.Basic
import Mathlib.Algebra.GroupWithZero.Nat

/-!
# Strings as in JavaScript

The string operations of the source, on the characters of a Lean string: `trim` and the class
`\s` share the set of white space and line terminators of ECMAScript.
-/

namespace BankDemo.JsString

/-- White space and line terminators. -/
def isSpace (c : Char) : Bool :=
  [9, 10, 11, 12, 13, 32, 0xA0, 0x1680, 0x2028, 0x2029, 0x202F, 0x205F, 0x3000, 0xFEFF].contains
      c.toNat ||
    (0x2000 ≤ c.toNat && c.toNat ≤ 0x200A)

/-- `s.trim()`. -/
def trim (s : String) : String :=
  String.ofList ((s.toList.dropWhile isSpace).reverse.dropWhile isSpace).reverse

/-- `s.replace(/\s+/g, '')`. -/
def stripSpaces (s : String) : String := String.ofList (s.toList.filter fun c => !isSpace c)

/-- `s.replace(/\D/g, '')`. -/
def digits (s : String) : String := String.ofList (s.toList.filter Char.isDigit)

/-- `s.length`: the number of UTF-16 code units. -/
def length (s : String) : ℕ := (s.toList.map fun c => if c.toNat < 0x10000 then 1 else 2).sum

/-- The longest beginning of a list of characters with at most `n` UTF-16 code units. -/
def takeUnits : ℕ → List Char → List Char
  | _, [] => []
  | n, c :: cs =>
    let units := if c.toNat < 0x10000 then 1 else 2
    if units ≤ n then c :: takeUnits (n - units) cs else []

/-- `s.slice(0, n)`. Half of a character that is cut in two is dropped. -/
def slice (s : String) (n : ℕ) : String := String.ofList (takeUnits n s.toList)

theorem takeUnits_subset (n : ℕ) (cs : List Char) : takeUnits n cs ⊆ cs := by
  induction cs generalizing n with
  | nil => exact List.nil_subset _
  | cons c cs ih =>
    unfold takeUnits
    generalize (if c.toNat < 0x10000 then 1 else 2) = units
    dsimp only
    split
    · exact List.cons_subset_cons c (ih _)
    · exact List.nil_subset _

/-- `s.startsWith(t)`. -/
def startsWith (s t : String) : Bool := t.toList.isPrefixOf s.toList

/-- `s.split(c)` for a single character. -/
def split (s : String) (c : Char) : List String := (s.toList.splitOn c).map String.ofList

/-- `/t/i.test(s)` for a lower-case ASCII text `t`. -/
def containsIgnoreCase (s t : String) : Bool :=
  (s.toList.map Char.toLower).tails.any fun l => t.toList.isPrefixOf l

/-- `!!s`: the text is there and is not empty. -/
def truthy (s : Option String) : Bool := s.any fun t => t ≠ ""

/-- `s || fallback` on strings that may be absent: the empty string counts as absent. -/
def orElse (s : Option String) (fallback : Option String) : Option String :=
  match s with
  | some "" => fallback
  | none => fallback
  | some t => some t

/-! ## Trimmed texts -/

/-- What is left of the front after its white space is dropped begins with none. -/
theorem dropWhile_beginning {p : Char → Bool} {l m : List Char} (hbegins : m <+: l.dropWhile p) :
    m.dropWhile p = m := by
  cases m with
  | nil => rfl
  | cons c m =>
    obtain ⟨rest, hrest⟩ := hbegins
    have hidem := List.dropWhile_idempotent (p := p) l
    rw [← hrest] at hidem
    cases hc : p c with
    | false => rw [List.dropWhile_cons, hc, if_neg Bool.false_ne_true]
    | true =>
      rw [List.cons_append, List.dropWhile_cons, hc, if_pos rfl] at hidem
      have hlength := congrArg List.length hidem
      have hle := (List.dropWhile_suffix p (l := m ++ rest)).length_le
      rw [List.length_cons] at hlength
      omega

/-- A trimmed text has nothing left to trim. -/
theorem trim_trim (s : String) : trim (trim s) = trim s := by
  have hreverse : ∀ l : List Char, (l.reverse.dropWhile isSpace).reverse = l.rdropWhile isSpace :=
    fun _ => rfl
  simp only [trim, String.toList_ofList, hreverse]
  have hbegins := List.rdropWhile_prefix isSpace (s.toList.dropWhile isSpace)
  rw [dropWhile_beginning hbegins, List.rdropWhile_idempotent]

/-- Trimming commutes with a change of the characters that leaves the white space alone. -/
theorem trim_map {f : Char → Char} (hf : ∀ c, isSpace (f c) = isSpace c) (s : String) :
    trim (String.ofList (s.toList.map f)) = String.ofList ((trim s).toList.map f) := by
  have hp : isSpace ∘ f = isSpace := funext hf
  simp only [trim, String.toList_ofList, List.dropWhile_map, ← List.map_reverse, hp]

/-! ## Lower case -/

/-- A character is in lower case for ASCII, or 32 code points before it. -/
theorem toLower_cases (c : Char) :
    c.toLower = c ∨ (65 ≤ c.toNat ∧ c.toNat ≤ 90 ∧ c.toLower.toNat = c.toNat + 32) := by
  by_cases hupper : c.val ≥ 'A'.val ∧ c.val ≤ 'Z'.val
  · have hrange : 65 ≤ c.toNat ∧ c.toNat ≤ 90 := by
      rw [ge_iff_le, UInt32.le_iff_toNat_le, UInt32.le_iff_toNat_le] at hupper
      simpa using hupper
    refine .inr ⟨hrange.1, hrange.2, ?_⟩
    have hadd : c.toLower.val = c.val + 32 := congrArg Char.val (dif_pos hupper)
    show c.toLower.val.toNat = c.val.toNat + 32
    rw [hadd, UInt32.toNat_add]
    have hval : c.val.toNat = c.toNat := rfl
    simp only [hval, UInt32.reduceToNat]
    omega
  · exact .inl (dif_neg hupper)

theorem toLower_toLower (c : Char) : c.toLower.toLower = c.toLower := by
  rcases toLower_cases c with hsame | ⟨hlow, -, hlower⟩
  · rw [hsame, hsame]
  · rcases toLower_cases c.toLower with hsame | ⟨-, hhigh, -⟩
    · exact hsame
    · omega

/-- No upper-case letter is white space, and neither is its lower-case form. -/
theorem isSpace_toLower (c : Char) : isSpace c.toLower = isSpace c := by
  rcases toLower_cases c with hsame | ⟨hlow, hhigh, hlower⟩
  · rw [hsame]
  · have hspace : isSpace c = false := by
      simp [isSpace]
      omega
    rw [hspace]
    simp [isSpace, hlower]
    omega

end BankDemo.JsString
