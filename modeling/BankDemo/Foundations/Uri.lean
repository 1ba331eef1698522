import Mathlib.Data.Nat.Notation
import Mathlib.Data.List.Basic

/-!
# Escapes in URLs

`decodeURIComponent` of ECMAScript: each `%` with two hexadecimal digits is an octet, and runs of
octets are UTF-8. There is no result for a `%` without its digits or for octets that are not UTF-8.
-/

namespace BankDemo.Uri

/-- A character that stands for itself, or an escaped octet. -/
inductive Token
  | char (c : Char)
  | octet (b : ℕ)
  deriving DecidableEq

def hexDigit (c : Char) : Option ℕ :=
  if '0' ≤ c ∧ c ≤ '9' then some (c.toNat - 48)
  else if 'A' ≤ c ∧ c ≤ 'F' then some (c.toNat - 55)
  else if 'a' ≤ c ∧ c ≤ 'f' then some (c.toNat - 87)
  else none

/-- The characters and octets of a text. -/
def tokens : List Char → Option (List Token)
  | [] => some []
  | '%' :: a :: b :: rest => do
    let hi ← hexDigit a
    let lo ← hexDigit b
    return .octet (16 * hi + lo) :: (← tokens rest)
  | '%' :: _ => none
  | c :: rest => do return .char c :: (← tokens rest)

/-- A character whose octets have not all been read: how many are left, the bits so far and the
bounds of the next one. -/
structure Pending where
  left : ℕ
  code : ℕ
  lower : ℕ := 0x80
  upper : ℕ := 0xBF

/-- The first octet of a character that has more. The bounds of the second exclude overlong forms,
surrogates and codes over `0x10FFFF`. -/
def lead (b : ℕ) : Option Pending :=
  if 0xC2 ≤ b ∧ b ≤ 0xDF then some { left := 1, code := b - 0xC0 }
  else if b = 0xE0 then some { left := 2, code := 0, lower := 0xA0 }
  else if b = 0xED then some { left := 2, code := 0xD, upper := 0x9F }
  else if 0xE1 ≤ b ∧ b ≤ 0xEF then some { left := 2, code := b - 0xE0 }
  else if b = 0xF0 then some { left := 3, code := 0, lower := 0x90 }
  else if 0xF1 ≤ b ∧ b ≤ 0xF3 then some { left := 3, code := b - 0xF0 }
  else if b = 0xF4 then some { left := 3, code := 4, upper := 0x8F }
  else none

/-- The text that characters and octets stand for. -/
def assemble : Option Pending → List Token → Option (List Char)
  | none, [] => some []
  | some _, [] => none
  | none, .char c :: rest => do return c :: (← assemble none rest)
  | some _, .char _ :: _ => none
  | none, .octet b :: rest =>
    if b < 0x80 then do return Char.ofNat b :: (← assemble none rest)
    else match lead b with
      | none => none
      | some p => assemble (some p) rest
  | some p, .octet b :: rest =>
    if p.lower ≤ b ∧ b ≤ p.upper then
      let code := p.code * 64 + (b - 0x80)
      if p.left ≤ 1 then do return Char.ofNat code :: (← assemble none rest)
      else assemble (some { left := p.left - 1, code }) rest
    else none

/-- `decodeURIComponent(text)`, which throws where there is no result. -/
def decodeURIComponent (text : List Char) : Option (List Char) := (tokens text).bind (assemble none)

theorem tokens_char {c : Char} (hc : c ≠ '%') (rest : List Char) :
    tokens (c :: rest) = (tokens rest).map (.char c :: ·) := by
  rw [tokens]
  · cases tokens rest <;> rfl
  · exact fun _ _ _ h => (hc h).elim
  · exact hc

/-- Without a `%` there is nothing to decode. -/
theorem decodeURIComponent_plain {text : List Char} (h : '%' ∉ text) :
    decodeURIComponent text = some text := by
  induction text with
  | nil => rfl
  | cons c rest ih =>
    have hc : c ≠ '%' := fun hc => h (by simp [hc])
    have ih : (tokens rest).bind (assemble none) = some rest := ih fun hr => h (by simp [hr])
    rw [decodeURIComponent, tokens_char hc]
    cases ht : tokens rest with
    | none =>
      rw [ht] at ih
      cases ih
    | some ts =>
      rw [ht, Option.bind_some] at ih
      simp [assemble, ih]

example : decodeURIComponent "a%2fb%C3%A9".toList = some "a/bé".toList := by decide +kernel

example : decodeURIComponent "%ED%A0%80".toList = none := by decide +kernel

end BankDemo.Uri
