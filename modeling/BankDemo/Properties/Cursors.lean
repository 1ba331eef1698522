import BankDemo.Transactions.Cursor

/-!
# Cursors and the rules that read them back

Both list DTOs admit cursors of at most 64 characters. A cursor has a date of at least 24 characters
and an id of at least 36 in it, and so 114 characters or more: the one that a page gives with its
rows is always refused (`cursor_never_survives`), though `decodeCursor` would read it
(`decodeCursor_encodeCursor`).
-/

namespace BankDemo.Transactions

open JsDate UuidText

/-- The cursor of a transaction comes back: both DTOs admit it, and it is read as it was. -/
structure Survives (p : Parsers) (occurredAt : Instant) (id : Uuid) : Prop where
  customer : ListTransactionsDto.cursorValid (encodeCursor (cursorOf occurredAt id)) = true
  admin : ListAdminTransactionsDto.cursorValid (encodeCursor (cursorOf occurredAt id)) = true
  decodes : decodeCursor p (encodeCursor (cursorOf occurredAt id)) = some (cursorOf occurredAt id)

/-- Every cursor is longer than the rules admit. -/
theorem cursor_too_long (occurredAt : Instant) (id : Uuid) :
    114 ≤ (encodeCursor (cursorOf occurredAt id)).length := by
  have hdate : 24 ≤ (cursorOf occurredAt id).occurredAt.length := length_toISOString occurredAt
  have hid : 36 ≤ (cursorOf occurredAt id).id.length := length_uuidText id
  have h := length_encodeCursor (cursorOf occurredAt id)
  omega

theorem cursor_refused (occurredAt : Instant) (id : Uuid) :
    maxLength 64 (encodeCursor (cursorOf occurredAt id)) = false := by
  have hlong := cursor_too_long occurredAt id
  exact decide_eq_false (by omega)

theorem not_survives {p : Parsers} {occurredAt : Instant} {id : Uuid} :
    ¬ Survives p occurredAt id := by
  intro h
  have hadmitted : maxLength 64 (encodeCursor (cursorOf occurredAt id)) = true := h.customer
  rw [cursor_refused] at hadmitted
  cases hadmitted

/-- **No cursor survives the wire**: whatever the transaction, both DTOs refuse its cursor. -/
theorem cursor_never_survives (p : Parsers) (occurredAt : Instant) (id : Uuid) :
    ListTransactionsDto.cursorValid (encodeCursor (cursorOf occurredAt id)) = false ∧
      ListAdminTransactionsDto.cursorValid (encodeCursor (cursorOf occurredAt id)) = false ∧
      ¬ Survives p occurredAt id :=
  ⟨cursor_refused occurredAt id, cursor_refused occurredAt id, not_survives⟩

/-- The transaction of the codec's own test, whose cursor is read back as it was, is no exception. -/
theorem test_cursor_refused : ¬ ∀ (p : Parsers) (occurredAt : Instant) (id : Uuid),
    p.Reads occurredAt id → Survives p occurredAt id := by
  intro h
  -- 2026-04-01T10:00:00Z and 11111111-1111-1111-1111-111111111111
  have hreads : Parsers.Reads
      { json := fun _ => some ⟨toISOString 1775037600000, uuidText ((16 ^ 32 - 1) / 15)⟩
        date := fun _ => some 1775037600000 }
      1775037600000 ((16 ^ 32 - 1) / 15) := ⟨rfl, rfl⟩
  exact not_survives (h _ _ _ hreads)

end BankDemo.Transactions
