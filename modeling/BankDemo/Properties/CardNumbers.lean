import BankDemo.Cards.Service
import BankDemo.Foundations.CheckSums
import BankDemo.Foundations.JsString
import Mathlib.Data.ZMod.Basic

/-!
# The check digit of a card number

The standard test of a card number doubles every second digit from the right and adds the digits of
what comes out; the sum is to be a multiple of 10 (`LuhnValid`). The check digit of a numeral is
the one digit that makes it pass the test, and no single digit of what then stands there can be
changed unnoticed. So every number that `generatePan` makes for a BIN passes
(`check_digit_exact`).
-/

namespace BankDemo.Cards

open CheckSums

/-! ## The test -/

/-- The text consists of decimal digits. -/
def IsNumeral (s : String) : Prop := ∀ c ∈ s.toList, c.isDigit = true

instance (s : String) : Decidable (IsNumeral s) :=
  decidable_of_iff (s.toList.all Char.isDigit = true) List.all_eq_true

/-- The values of the digits of a text. -/
def digitsOf (s : String) : List ℕ := s.toList.map digitValue

/-- The sum of the two digits of the double of a digit. -/
def doubled (d : ℕ) : ℕ := 2 * d / 10 + 2 * d % 10

/-- What a digit counts in the standard test: every second one from the right counts doubled, and
the last one does not. -/
def luhnWeight (place d : ℕ) : ℕ := if place % 2 = 1 then doubled d else d

/-- The sum of the standard test. -/
def luhnSum (digits : List ℕ) : ℕ := checksum luhnWeight digits

/-- The number passes the standard test. -/
def LuhnValid (number : String) : Prop := luhnSum (digitsOf number) % 10 = 0

instance (number : String) : Decidable (LuhnValid number) :=
  inferInstanceAs (Decidable (luhnSum (digitsOf number) % 10 = 0))

/-- `partial + check.toString()`. -/
def withCheckDigit (s : String) : String := s ++ toString (luhnCheckDigit (digitsOf s))

/-- The text of a card number. -/
def panText (pan : List ℕ) : String := String.join (pan.map toString)

/-! ## Digits -/

theorem toNat_digit {c : Char} (hc : c.isDigit = true) : c.toNat = digitValue c + 48 ∧
    digitValue c < 10 := by
  have h := Char.isDigit_iff_toNat.1 hc
  have hmarks : '0'.toNat = 48 ∧ '9'.toNat = 57 := ⟨rfl, rfl⟩
  rw [digitValue]
  omega

theorem digitValue_inj {c c' : Char} (hc : c.isDigit = true) (hc' : c'.isDigit = true)
    (h : digitValue c = digitValue c') : c = c' :=
  Char.toNat_inj.1 (by rw [(toNat_digit hc).1, (toNat_digit hc').1, h])

/-- The text of a digit is one character, with that value. -/
theorem toString_digit : ∀ d < 10, (toString d).toList = [Nat.digitChar d] ∧
    (Nat.digitChar d).isDigit = true ∧ digitValue (Nat.digitChar d) = d := by
  decide +kernel

theorem digitsOf_lt {s : String} (hs : IsNumeral s) : ∀ d ∈ digitsOf s, d < 10 := by
  intro d hd
  obtain ⟨c, hc, rfl⟩ := List.mem_map.1 hd
  exact (toNat_digit (hs c hc)).2

@[simp]
theorem digitsOf_append (s t : String) : digitsOf (s ++ t) = digitsOf s ++ digitsOf t := by
  simp [digitsOf]

theorem isNumeral_append {s t : String} : IsNumeral (s ++ t) ↔ IsNumeral s ∧ IsNumeral t := by
  simp [IsNumeral, or_imp, forall_and]

theorem isNumeral_digit {d : ℕ} (hd : d < 10) : IsNumeral (toString d) := by
  obtain ⟨hlist, hdigit, -⟩ := toString_digit d hd
  rw [IsNumeral, hlist]
  simpa using hdigit

theorem digitsOf_digit {d : ℕ} (hd : d < 10) : digitsOf (toString d) = [d] := by
  obtain ⟨hlist, -, hvalue⟩ := toString_digit d hd
  rw [digitsOf, hlist, List.map_singleton, hvalue]

/-! ## The weights -/

theorem checkWeight_eq {d : ℕ} (hd : d < 10) :
    (if 9 < 2 * d then 2 * d - 9 else 2 * d) = doubled d := by
  rw [doubled]
  split <;> omega

/-- The loop of `luhnCheckDigit` begins with a double: it sees the number as the test does with one
more digit on the right. -/
theorem luhnCheckDigit_eq {digits : List ℕ} (hdigits : ∀ d ∈ digits, d < 10) :
    luhnCheckDigit digits =
      (10 - checksum (fun place => luhnWeight (place + 1)) digits % 10) % 10 := by
  have hloop := sum_zipIdx_reverse
    (fun place d => if place % 2 = 0 then (if 9 < 2 * d then 2 * d - 9 else 2 * d) else d) digits
  have hweights : checksum (fun place d =>
      if place % 2 = 0 then (if 9 < 2 * d then 2 * d - 9 else 2 * d) else d) digits =
      checksum (fun place => luhnWeight (place + 1)) digits := by
    refine checksum_congr fun d hd place => ?_
    rw [luhnWeight, checkWeight_eq (hdigits d hd)]
    rcases Nat.mod_two_eq_zero_or_one place with heven | hodd
    · rw [if_pos heven, if_pos (by omega)]
    · rw [if_neg (by omega), if_neg (by omega)]
  rw [luhnCheckDigit, hloop, hweights]

theorem luhnCheckDigit_lt (digits : List ℕ) : luhnCheckDigit digits < 10 :=
  Nat.mod_lt _ (by omega)

/-- A digit at the end of a numeral passes the test exactly when it is the check digit. -/
theorem luhnSum_concat {digits : List ℕ} (hdigits : ∀ d ∈ digits, d < 10) {d : ℕ} (hd : d < 10) :
    luhnSum (digits ++ [d]) % 10 = 0 ↔ d = luhnCheckDigit digits := by
  have hlast : luhnWeight 0 d = d := rfl
  rw [luhnSum, checksum_concat, hlast, luhnCheckDigit_eq hdigits]
  omega

/-- Modulo 10 the double of a digit still tells it from the others. -/
theorem doubled_inj : ∀ d < 10, ∀ e < 10, doubled d % 10 = doubled e % 10 → d = e := by
  decide

theorem luhnWeight_injOn (place : ℕ) :
    Set.InjOn (fun d => (luhnWeight place d : ZMod 10)) {d | d < 10} := by
  intro d hd e he h
  have hmod := (ZMod.natCast_eq_natCast_iff' _ _ 10).1 h
  rw [luhnWeight, luhnWeight] at hmod
  split at hmod
  · exact doubled_inj d hd e he hmod
  · rwa [Nat.mod_eq_of_lt hd, Nat.mod_eq_of_lt he] at hmod

theorem luhnSum_cast (digits : List ℕ) : ((luhnSum digits : ℕ) : ZMod 10) =
    checksum (fun place d => (luhnWeight place d : ZMod 10)) digits :=
  map_checksum luhnWeight (Nat.castAddMonoidHom (ZMod 10)) digits

/-- A number that passes the test fails it with any one digit changed. -/
theorem luhnSum_set {digits : List ℕ} (hdigits : ∀ d ∈ digits, d < 10)
    (hvalid : luhnSum digits % 10 = 0) {i : ℕ} (hi : i < digits.length) {d : ℕ} (hd : d < 10)
    (hne : digits[i] ≠ d) : luhnSum (digits.set i d) % 10 ≠ 0 := by
  intro hset
  refine checksum_set_ne _ luhnWeight_injOn hdigits hi hd hne ?_
  rw [← luhnSum_cast, ← luhnSum_cast, ZMod.natCast_eq_natCast_iff', hvalid, hset]

/-! ## The text of a number -/

/-- What the check digit does for a numeral. -/
structure Checks (s : String) : Prop where
  one : ∃ c : Char, c.isDigit = true ∧ withCheckDigit s = s.push c
  valid : LuhnValid (withCheckDigit s)
  only : ∀ c : Char, c.isDigit = true → LuhnValid (s.push c) → s.push c = withCheckDigit s
  detects : ∀ (i : ℕ) (hi : i < (withCheckDigit s).toList.length) (c : Char), c.isDigit = true →
    (withCheckDigit s).toList[i] ≠ c →
    ¬ LuhnValid (String.ofList ((withCheckDigit s).toList.set i c))

theorem digitsOf_withCheckDigit (s : String) :
    digitsOf (withCheckDigit s) = digitsOf s ++ [luhnCheckDigit (digitsOf s)] := by
  rw [withCheckDigit, digitsOf_append, digitsOf_digit (luhnCheckDigit_lt _)]

theorem withCheckDigit_valid {s : String} (hs : IsNumeral s) : LuhnValid (withCheckDigit s) := by
  rw [LuhnValid, digitsOf_withCheckDigit]
  exact (luhnSum_concat (digitsOf_lt hs) (luhnCheckDigit_lt _)).2 rfl

theorem isNumeral_withCheckDigit {s : String} (hs : IsNumeral s) : IsNumeral (withCheckDigit s) :=
  isNumeral_append.2 ⟨hs, isNumeral_digit (luhnCheckDigit_lt _)⟩

theorem withCheckDigit_eq_push (s : String) :
    withCheckDigit s = s.push (Nat.digitChar (luhnCheckDigit (digitsOf s))) := by
  obtain ⟨hlist, -, -⟩ := toString_digit _ (luhnCheckDigit_lt (digitsOf s))
  refine String.toList_injective ?_
  rw [withCheckDigit, String.toList_append, hlist, String.toList_push]

theorem checks_of_isNumeral {s : String} (hs : IsNumeral s) : Checks s where
  one := ⟨_, (toString_digit _ (luhnCheckDigit_lt _)).2.1, withCheckDigit_eq_push s⟩
  valid := withCheckDigit_valid hs
  only := by
    intro c hc hvalid
    have hlt := (toNat_digit hc).2
    have hdigits : digitsOf (s.push c) = digitsOf s ++ [digitValue c] := by simp [digitsOf]
    rw [LuhnValid, hdigits, luhnSum_concat (digitsOf_lt hs) hlt] at hvalid
    obtain ⟨-, hdigit, hvalue⟩ := toString_digit _ (luhnCheckDigit_lt (digitsOf s))
    rw [withCheckDigit_eq_push, digitValue_inj hc hdigit (hvalid.trans hvalue.symm)]
  detects := by
    intro i hi c hc hne hvalid
    have hnumeral := isNumeral_withCheckDigit hs
    have hlength : i < (digitsOf (withCheckDigit s)).length := by
      rwa [digitsOf, List.length_map]
    have hvalues : (digitsOf (withCheckDigit s))[i] ≠ digitValue c := by
      intro h
      simp only [digitsOf, List.getElem_map] at h
      exact hne (digitValue_inj (hnumeral _ (List.getElem_mem hi)) hc h)
    refine luhnSum_set (digitsOf_lt hnumeral) (withCheckDigit_valid hs) hlength
      (toNat_digit hc).2 hvalues ?_
    rwa [LuhnValid, digitsOf, String.toList_ofList, List.map_set] at hvalid

/-! ## The numbers that are made -/

theorem panText_append (l m : List ℕ) : panText (l ++ m) = panText l ++ panText m := by
  simp [panText, String.join_append]

theorem toList_panText {l : List ℕ} (hl : ∀ d ∈ l, d < 10) :
    (panText l).toList = l.map Nat.digitChar := by
  induction l with
  | nil => rfl
  | cons d l ih =>
    obtain ⟨hlist, -, -⟩ := toString_digit d (hl d (by simp))
    have hrest := ih fun e he => hl e (List.mem_cons_of_mem d he)
    rw [panText] at hrest ⊢
    rw [List.map_cons, String.join_cons, String.toList_append, hlist, hrest]
    rfl

theorem isNumeral_panText {l : List ℕ} (hl : ∀ d ∈ l, d < 10) : IsNumeral (panText l) := by
  rw [IsNumeral, toList_panText hl]
  intro c hc
  obtain ⟨d, hd, rfl⟩ := List.mem_map.1 hc
  exact (toString_digit d (hl d hd)).2.1

theorem digitsOf_panText {l : List ℕ} (hl : ∀ d ∈ l, d < 10) : digitsOf (panText l) = l := by
  rw [digitsOf, toList_panText hl, List.map_map]
  conv_rhs => rw [← List.map_id l]
  exact List.map_congr_left fun d hd => (toString_digit d (hl d hd)).2.2

theorem panText_digitsOf {s : String} (hs : IsNumeral s) : panText (digitsOf s) = s := by
  refine String.toList_injective ?_
  rw [toList_panText (digitsOf_lt hs), digitsOf, List.map_map]
  conv_rhs => rw [← List.map_id s.toList]
  refine List.map_congr_left fun c hc => ?_
  obtain ⟨hvalue, hlt⟩ := toNat_digit (hs c hc)
  obtain ⟨-, hdigit, hback⟩ := toString_digit _ hlt
  exact digitValue_inj hdigit (hs c hc) hback

/-- **The check digit finds every wrong digit.** The number of a card has 16 digits, begins with
the BIN and passes the test, whatever the digits drawn for it. -/
theorem check_digit_exact :
    (∀ s : String, IsNumeral s → Checks s) ∧
    ∀ (bin : String) (body : List ℕ), isBin bin = true → body.length = 9 →
      (∀ d ∈ body, d < 10) → ∃ pan, generatePan bin body = .ok pan ∧
        (panText pan).length = 16 ∧ IsNumeral (panText pan) ∧
        JsString.startsWith (panText pan) bin = true ∧ LuhnValid (panText pan) := by
  refine ⟨fun s hs => checks_of_isNumeral hs, ?_⟩
  intro bin body hbin hlength hbody
  obtain ⟨hsix, hnumeral⟩ : bin.toList.length = 6 ∧ IsNumeral bin := by
    rw [isBin, Bool.and_eq_true, decide_eq_true_iff, List.all_eq_true] at hbin
    exact hbin
  set digits := digitsOf bin ++ body with hdigits
  have hlt : ∀ d ∈ digits, d < 10 := by
    intro d hd
    rcases List.mem_append.1 hd with hd | hd
    · exact digitsOf_lt hnumeral d hd
    · exact hbody d hd
  have htext : panText (digits ++ [luhnCheckDigit digits]) = withCheckDigit (panText digits) := by
    rw [panText_append, withCheckDigit, digitsOf_panText hlt]
    rfl
  have hpartial := isNumeral_panText hlt
  have hbegins : panText digits = bin ++ panText body := by
    rw [hdigits, panText_append, panText_digitsOf hnumeral]
  refine ⟨digits ++ [luhnCheckDigit digits], if_pos hbin, ?_⟩
  rw [htext]
  refine ⟨?_, isNumeral_withCheckDigit hpartial, ?_, withCheckDigit_valid hpartial⟩
  · rw [withCheckDigit_eq_push, String.length_push, ← String.length_toList, toList_panText hlt,
      List.length_map, hdigits, List.length_append, digitsOf, List.length_map, hsix, hlength]
  · rw [withCheckDigit, hbegins, String.append_assoc, JsString.startsWith, String.toList_append]
    exact List.isPrefixOf_iff_prefix.2 (List.prefix_append _ _)

theorem check_digit_exact_of_samples : Checks "7992739871" ∧
    ∃ pan, generatePan "400000" [1, 2, 3, 4, 5, 6, 7, 8, 9] = .ok pan ∧
      (panText pan).length = 16 ∧ IsNumeral (panText pan) ∧
      JsString.startsWith (panText pan) "400000" = true ∧ LuhnValid (panText pan) :=
  ⟨check_digit_exact.1 "7992739871" (by decide +kernel),
    check_digit_exact.2 "400000" [1, 2, 3, 4, 5, 6, 7, 8, 9] (by decide) rfl (by decide)⟩

end BankDemo.Cards
