import BankDemo.Schema
import BankDemo.Foundations.Base64Url
import BankDemo.Foundations.JsDate
import BankDemo.Foundations.JsString
import BankDemo.Foundations.UuidText

/-!
# Cursors

`encodeCursor` and `decodeCursor` of `transactions/cursor.util.ts`, and the rule of the two list
DTOs that read a cursor back. A cursor is JSON under `base64url`. The parsers of the language are
parameters (`Parsers`); what is assumed of them is that they read what its writers write.
-/

namespace BankDemo.Transactions

open JsDate UuidText

structure TxCursor where
  occurredAt : String
  id : String
  deriving DecidableEq

/-- `Partial<TxCursor>`. -/
structure PartialTxCursor where
  occurredAt : Option String
  id : Option String
  deriving DecidableEq

/-- The parsers of the language: `JSON.parse` of bytes in UTF-8, as far as the fields of a cursor
go, and `Date.parse`. They give nothing where the language throws or gives `NaN`. -/
structure Parsers where
  json : List UInt8 → Option PartialTxCursor
  date : String → Option Instant

/-- A character in a JSON string. -/
def jsonEscape (c : Char) : List Char :=
  if c = '\x22' then ['\\', '\x22']
  else if c = '\\' then ['\\', '\\']
  else if c = '\x08' then ['\\', 'b']
  else if c = '\t' then ['\\', 't']
  else if c = '\n' then ['\\', 'n']
  else if c = '\x0c' then ['\\', 'f']
  else if c = '\r' then ['\\', 'r']
  else if c.toNat < 32 then
    ['\\', 'u', '0', '0', Nat.digitChar (c.toNat / 16), Nat.digitChar (c.toNat % 16)]
  else [c]

/-- A JSON string. -/
def jsonString (s : String) : List Char := '\x22' :: (s.toList.flatMap jsonEscape ++ ['\x22'])

/-- `JSON.stringify(c)`. -/
def stringify (c : TxCursor) : List Char :=
  "\x7b\x22occurredAt\x22:".toList ++ jsonString c.occurredAt ++ ",\x22id\x22:".toList ++
    jsonString c.id ++ ['\x7d']

/-- `Buffer.from(text, 'utf8')`. -/
def utf8 (text : List Char) : List UInt8 := text.flatMap String.utf8EncodeChar

def encodeCursor (c : TxCursor) : String := String.ofList (Base64Url.encode (utf8 (stringify c)))

def decodeCursor (p : Parsers) (raw : String) : Option TxCursor :=
  match p.json (Base64Url.decode raw.toList) with
  | some ⟨some occurredAt, some id⟩ =>
    if occurredAt = "" ∨ id = "" then none
    else if (p.date occurredAt).isNone then none
    else some ⟨occurredAt, id⟩
  | _ => none

/-- The cursor of a transaction, as both lists make it. -/
def cursorOf (occurredAt : Instant) (id : Uuid) : TxCursor :=
  { occurredAt := toISOString occurredAt, id := uuidText id }

/-! ## Validation -/

/-- `@MaxLength(n)`. -/
def maxLength (n : ℕ) (value : String) : Bool := value.length ≤ n

/-- `@IsOptional() @IsString() @MaxLength(64) cursor` of `ListTransactionsDto`. -/
def ListTransactionsDto.cursorValid (cursor : String) : Bool := maxLength 64 cursor

/-- `@IsOptional() @IsString() @MaxLength(64) cursor` of `ListAdminTransactionsDto`. -/
def ListAdminTransactionsDto.cursorValid (cursor : String) : Bool := maxLength 64 cursor

/-! ## Sizes -/

theorem length_le_flatMap {α β : Type} (f : α → List β) (hf : ∀ a, 1 ≤ (f a).length) (l : List α) :
    l.length ≤ (l.flatMap f).length := by
  induction l with
  | nil => simp
  | cons a l ih =>
    have ha := hf a
    rw [List.flatMap_cons, List.length_append, List.length_cons]
    omega

theorem length_jsonEscape (c : Char) : 1 ≤ (jsonEscape c).length := by
  unfold jsonEscape
  split_ifs <;> simp

theorem length_jsonString (s : String) : s.length + 2 ≤ (jsonString s).length := by
  have h := length_le_flatMap jsonEscape length_jsonEscape s.toList
  rw [jsonString, List.length_cons, List.length_append, List.length_singleton]
  rw [String.length_toList] at h
  omega

theorem length_utf8 (text : List Char) : text.length ≤ (utf8 text).length := by
  refine length_le_flatMap String.utf8EncodeChar (fun c => ?_) text
  have hpos := c.utf8Size_pos
  rw [String.length_utf8EncodeChar]
  omega

theorem length_five (a b c d e : List Char) :
    (a ++ b ++ c ++ d ++ e).length = a.length + b.length + c.length + d.length + e.length := by
  simp only [List.length_append]

/-- The text of a cursor is longer than its fields and the names of the fields. -/
theorem length_stringify (c : TxCursor) :
    c.occurredAt.length + c.id.length + 25 ≤ (stringify c).length := by
  have h := length_jsonString c.occurredAt
  have h' := length_jsonString c.id
  have hfirst : "\x7b\x22occurredAt\x22:".toList.length = 14 := by simp
  have hsecond : ",\x22id\x22:".toList.length = 6 := by simp
  have hsum : (stringify c).length = _ := length_five ..
  rw [hfirst, hsecond, List.length_singleton] at hsum
  clear hfirst hsecond
  omega

/-- A cursor takes a third more than that. -/
theorem length_encodeCursor (c : TxCursor) :
    4 * (c.occurredAt.length + c.id.length + 25) ≤ 3 * (encodeCursor c).length := by
  have hbytes := length_utf8 (stringify c)
  have htext := length_stringify c
  have hencode := Base64Url.length_encode (utf8 (stringify c))
  rw [encodeCursor, String.length_ofList]
  omega

/-! ## Reading back -/

/-- The parsers read what is written for a cursor. -/
structure Parsers.Reads (p : Parsers) (occurredAt : Instant) (id : Uuid) : Prop where
  json : p.json (utf8 (stringify (cursorOf occurredAt id))) =
    some ⟨some (toISOString occurredAt), some (uuidText id)⟩
  date : p.date (toISOString occurredAt) = some occurredAt

theorem ne_empty_of_length {s : String} (h : 0 < s.length) : s ≠ "" := by
  rintro rfl
  cases h

/-- A cursor is read back as it was. -/
theorem decodeCursor_encodeCursor {p : Parsers} {occurredAt : Instant} {id : Uuid}
    (h : p.Reads occurredAt id) :
    decodeCursor p (encodeCursor (cursorOf occurredAt id)) = some (cursorOf occurredAt id) := by
  have hdate : toISOString occurredAt ≠ "" :=
    ne_empty_of_length (Nat.lt_of_lt_of_le (by omega) (length_toISOString occurredAt))
  have hid : uuidText id ≠ "" :=
    ne_empty_of_length (Nat.lt_of_lt_of_le (by omega) (length_uuidText id))
  rw [decodeCursor, encodeCursor, String.toList_ofList, Base64Url.decode_encode, h.json]
  simp [h.date, hdate, hid, cursorOf]

end BankDemo.Transactions
