import BankDemo.Foundations.ForeignKeys
import BankDemo.Store

/-!
# The relations of the schema

The tables that `AdminUsersService.hardDelete` deletes from are referred to by others. No relation
between them declares an `onDelete`: where the column is required, the database refuses to delete a
row as long as another refers to it (`Parent.relations`); the two optional ones, of documents, are
set to null (`dropUser`, `dropSignups`). The messages of a support thread, which go with it, are
left out.
-/

namespace BankDemo.Admin

open ForeignKeys

/-- The tables that required relations refer to. -/
inductive Parent
  | user | account | transaction | device | signupSession
  deriving DecidableEq

/-- The required relations to these tables. -/
inductive Relation
  | contactOwner | goalUser | autosaveConfigUser | accountUser | deviceUser | sessionUser
  | mfaChallengeUser | passwordResetUser | kycRecordUser
  | cardAccount | transactionAccount | accountLimitsAccount
  | overrideTransaction | sessionDevice | verificationSignup
  deriving DecidableEq

/-- The required relations to a table. -/
def Parent.relations : Parent → List Relation
  | .user => [.contactOwner, .goalUser, .autosaveConfigUser, .accountUser, .deviceUser,
      .sessionUser, .mfaChallengeUser, .passwordResetUser, .kycRecordUser]
  | .account => [.cardAccount, .transactionAccount, .accountLimitsAccount]
  | .transaction => [.overrideTransaction]
  | .device => [.sessionDevice]
  | .signupSession => [.verificationSignup]

/-- The owners of the rows of one of the other tables. -/
def owners (table : OwnedTable) (db : Db) : List Uuid :=
  db.owned.values fun k owner => if k.1 = table then some owner else none

/-- What the column of a relation holds. -/
def refs : Relation → Db → List Uuid
  | .contactOwner, db => owners .contact db
  | .goalUser, db => db.goals.values fun _ g => some g.userId
  | .autosaveConfigUser, db => db.autosaveConfigs.values fun userId _ => some userId
  | .accountUser, db => db.accounts.values fun _ a => some a.userId
  | .deviceUser, db => owners .device db
  | .sessionUser, db => db.sessions.values fun _ s => some s.userId
  | .mfaChallengeUser, db => owners .mfaChallenge db
  | .passwordResetUser, db => db.passwordResets.values fun _ c => some c.userId
  | .kycRecordUser, db => owners .kycRecord db
  | .cardAccount, db => owners .card db
  | .transactionAccount, db => db.transactions.values fun _ row => some row.accountId
  | .accountLimitsAccount, db => owners .accountLimits db
  | .overrideTransaction, db => db.overrides.values fun id _ => some id
  | .sessionDevice, db => db.sessions.values fun _ s => some s.deviceId
  | .verificationSignup, db => db.verifications.values fun _ signupSessionId => some signupSessionId

/-- A statement that deletes from the table the rows `gone`, which rows of others may forbid. -/
def referencedBy {α : Type} (table : Parent) (gone : Db → Uuid → Bool) (statement : Tx α) : Tx α :=
  referenced refs table.relations .foreignKey gone statement

theorem referencedBy_ok {α : Type} {table : Parent} {gone : Db → Uuid → Bool} {statement : Tx α}
    {db : Db} {r : α × Db} (h : referencedBy table gone statement db = .ok r) :
    (∀ k ∈ table.relations, Clear refs k (gone db) db) ∧ statement db = .ok r :=
  referenced_ok h

theorem mem_owners {table : OwnedTable} {db : Db} {owner : Uuid} :
    owner ∈ owners table db ↔ ∃ id, db.owned.lookup (table, id) = some owner := by
  unfold owners
  rw [Table.mem_values]
  constructor
  · rintro ⟨⟨table', id⟩, owner', hrow, howner⟩
    split at howner
    · rename_i htable
      dsimp only at htable
      obtain rfl := Option.some.inj howner
      exact ⟨id, by rw [← htable]; exact hrow⟩
    · cases howner
  · rintro ⟨id, hrow⟩
    exact ⟨(table, id), owner, hrow, if_pos rfl⟩

end BankDemo.Admin
