import Mathlib.Data.List.Basic
import Mathlib.Data.List.TakeWhile
import Mathlib.Data.Nat.Notation

/-!
# Base64

`buffer.toString('base64url')` and `Buffer.from(text, 'base64url')` of Node. The alphabet is that
of URLs and there is no padding; reading also takes the other alphabet, stops at `=` and skips
whatever else it finds. What was written is read back (`decode_encode`), and three octets take at
least four characters (`length_encode`).

`buffer.toString('base64')` writes the same groups of six bits: its alphabet ends in `+` and `/`, and
`=` fills the text up to a multiple of four characters. One reader serves both alphabets, and what
was written is read back (`Base64.decode_encode`).
-/

namespace BankDemo.Base64Url

/-- The character of a group of six bits. -/
def charOf (n : ℕ) : Char :=
  if n < 26 then Char.ofNat (n + 65)
  else if n < 52 then Char.ofNat (n + 71)
  else if n < 62 then Char.ofNat (n - 4)
  else if n = 62 then '-'
  else '_'

/-- The group of six bits of a character. -/
def sextet? (c : Char) : Option ℕ :=
  if 'A' ≤ c ∧ c ≤ 'Z' then some (c.toNat - 65)
  else if 'a' ≤ c ∧ c ≤ 'z' then some (c.toNat - 71)
  else if '0' ≤ c ∧ c ≤ '9' then some (c.toNat + 4)
  else if c = '-' ∨ c = '+' then some 62
  else if c = '_' ∨ c = '/' then some 63
  else none

/-- The groups of six bits of octets, from the left. -/
def sextets : List UInt8 → List ℕ
  | [] => []
  | [a] => [a.toNat / 4, a.toNat % 4 * 16]
  | [a, b] => [a.toNat / 4, a.toNat % 4 * 16 + b.toNat / 16, b.toNat % 16 * 4]
  | a :: b :: c :: rest =>
    a.toNat / 4 :: (a.toNat % 4 * 16 + b.toNat / 16) :: (b.toNat % 16 * 4 + c.toNat / 64) ::
      c.toNat % 64 :: sextets rest

/-- The whole octets of groups of six bits. -/
def octets : List ℕ → List UInt8
  | a :: b :: c :: d :: rest =>
    UInt8.ofNat (a * 4 + b / 16) :: UInt8.ofNat (b % 16 * 16 + c / 4) ::
      UInt8.ofNat (c % 4 * 64 + d) :: octets rest
  | [a, b, c] => [UInt8.ofNat (a * 4 + b / 16), UInt8.ofNat (b % 16 * 16 + c / 4)]
  | [a, b] => [UInt8.ofNat (a * 4 + b / 16)]
  | _ => []

def encode (bytes : List UInt8) : List Char := (sextets bytes).map charOf

def decode (text : List Char) : List UInt8 :=
  octets ((text.takeWhile fun c => c != '=').filterMap sextet?)

theorem sextets_lt (bytes : List UInt8) : ∀ n ∈ sextets bytes, n < 64 := by
  have hlt : ∀ a : UInt8, a.toNat < 256 := fun a => a.toNat_lt
  fun_induction sextets bytes with
  | case1 => simp
  | case2 a =>
    have ha := hlt a
    simp only [List.mem_cons, List.not_mem_nil, or_false]
    omega
  | case3 a b =>
    have ha := hlt a
    have hb := hlt b
    simp only [List.mem_cons, List.not_mem_nil, or_false]
    omega
  | case4 a b c rest ih =>
    have ha := hlt a
    have hb := hlt b
    simp only [List.mem_cons]
    rintro n (rfl | rfl | rfl | rfl | hn)
    · omega
    · omega
    · have hc := hlt c
      omega
    · omega
    · exact ih n hn

/-- The octets of their groups of six bits. -/
theorem octets_sextets (bytes : List UInt8) : octets (sextets bytes) = bytes := by
  have hlt : ∀ a : UInt8, a.toNat < 256 := fun a => a.toNat_lt
  have hof : ∀ (a : UInt8) (n : ℕ), n = a.toNat → UInt8.ofNat n = a :=
    fun a n h => by rw [h, UInt8.ofNat_toNat]
  fun_induction sextets bytes with
  | case1 => rfl
  | case2 a =>
    simp only [octets]
    rw [hof a _ (by omega)]
  | case3 a b =>
    have hb := hlt b
    simp only [octets]
    rw [hof a _ (by omega), hof b _ (by omega)]
  | case4 a b c rest ih =>
    have hb := hlt b
    have hc := hlt c
    simp only [octets]
    rw [ih, hof a _ (by omega), hof b _ (by omega), hof c _ (by omega)]

theorem sextet?_charOf : ∀ n < 64, sextet? (charOf n) = some n ∧ charOf n ≠ '=' := by
  decide

/-- What was written is read back. -/
theorem decode_encode (bytes : List UInt8) : decode (encode bytes) = bytes := by
  have hlt := sextets_lt bytes
  have hpad : ((sextets bytes).map charOf).takeWhile (fun c => c != '=') =
      (sextets bytes).map charOf := by
    refine List.takeWhile_eq_self_iff.mpr fun c hc => ?_
    obtain ⟨n, hn, rfl⟩ := List.mem_map.mp hc
    exact bne_iff_ne.mpr (sextet?_charOf n (hlt n hn)).2
  have hread : ((sextets bytes).map charOf).filterMap sextet? = sextets bytes := by
    have hsome : (sextets bytes).filterMap (sextet? ∘ charOf) = (sextets bytes).filterMap some :=
      List.filterMap_congr fun n hn => (sextet?_charOf n (hlt n hn)).1
    rw [List.filterMap_map, hsome, List.filterMap_some]
  rw [decode, encode, hpad, hread, octets_sextets]

/-- Three octets take four characters. -/
theorem length_encode (bytes : List UInt8) : 4 * bytes.length ≤ 3 * (encode bytes).length := by
  rw [encode, List.length_map]
  fun_induction sextets bytes with
  | case1 => simp
  | case2 a => simp
  | case3 a b => simp
  | case4 a b c rest ih =>
    simp only [List.length_cons]
    omega

end BankDemo.Base64Url

/-! ## The other alphabet -/

namespace BankDemo.Base64

open Base64Url (sextets octets sextet? sextets_lt octets_sextets)

/-- The character of a group of six bits. -/
def charOf (n : ℕ) : Char :=
  if n < 62 then Base64Url.charOf n else if n = 62 then '+' else '/'

/-- What fills the text up. -/
def padding (bytes : List UInt8) : List Char := List.replicate ((3 - bytes.length % 3) % 3) '='

def encode (bytes : List UInt8) : List Char := (sextets bytes).map charOf ++ padding bytes

def decode (text : List Char) : List UInt8 := Base64Url.decode text

theorem sextet?_charOf : ∀ n < 64, sextet? (charOf n) = some n ∧ charOf n ≠ '=' := by
  decide

/-- What was written is read back. -/
@[simp]
theorem decode_encode (bytes : List UInt8) : decode (encode bytes) = bytes := by
  have hlt := sextets_lt bytes
  have hletters : ∀ c ∈ (sextets bytes).map charOf, (c != '=') = true := by
    intro c hc
    obtain ⟨n, hn, rfl⟩ := List.mem_map.mp hc
    exact bne_iff_ne.mpr (sextet?_charOf n (hlt n hn)).2
  have hpad : (padding bytes).takeWhile (fun c => c != '=') = [] := by
    unfold padding
    cases (3 - bytes.length % 3) % 3 with
    | zero => rfl
    | succ n => simp [List.replicate_succ]
  have hread : ((sextets bytes).map charOf).filterMap sextet? = sextets bytes := by
    have hsome : (sextets bytes).filterMap (sextet? ∘ charOf) = (sextets bytes).filterMap some :=
      List.filterMap_congr fun n hn => (sextet?_charOf n (hlt n hn)).1
    rw [List.filterMap_map, hsome, List.filterMap_some]
  rw [decode, encode, Base64Url.decode, List.takeWhile_append_of_pos hletters, hpad,
    List.append_nil, hread, octets_sextets]

/-! ### Texts -/

/-- `bytes.toString('base64')`. -/
def toText (bytes : List UInt8) : String := String.ofList (encode bytes)

/-- `Buffer.from(text, 'base64')`. -/
def ofText (text : String) : List UInt8 := decode text.toList

@[simp]
theorem ofText_toText (bytes : List UInt8) : ofText (toText bytes) = bytes := by
  rw [ofText, toText, String.toList_ofList, decode_encode]

end BankDemo.Base64
