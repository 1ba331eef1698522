import BankDemo.Foundations.DoubleEntry
import BankDemo.Foundations.Table
import Mathlib.Data.Rat.Defs

/-!
# The database schema

The tables of `prisma/schema.prisma` that money movement reads and writes, with the columns the
modelled services use. Identifiers are natural numbers (`Uuid`), instants are milliseconds, money
is in integer cents as in the source's `bigint`.

A ledger account is known by its `code`, which the schema makes unique, and the postings of a
journal entry are kept inside the entry: the source's `LedgerAccount.id` and `Posting` rows are
these up to renaming. The texts of ledger codes and of journal sources are recovered by
`LedgerCode.text` and `JournalSource.text`.
-/

namespace BankDemo

/-- Identifiers. -/
abbrev Uuid := ℕ

/-- Instants, in milliseconds since the epoch. -/
abbrev Instant := ℤ

/-! ## Enumerations -/

inductive UserRole
  | customer | admin | superadmin
  deriving DecidableEq

inductive AccountType
  | checking | savings
  deriving DecidableEq

inductive AccountStatus
  | active | frozen | closed
  deriving DecidableEq

inductive TransactionStatus
  | pending | posted | declined | reversed
  deriving DecidableEq

inductive TransactionCategory
  | groceries | dining | transport | entertainment | shopping | bills | health | travel
  | utilities | transfer | income | other
  deriving DecidableEq

inductive TransactionKind
  | cardPurchase | achIn | achOut | p2pIn | p2pOut | fee | interest | deposit | refund
  | adjustment
  deriving DecidableEq

inductive LedgerAccountType
  | asset | liability | equity | revenue | expense
  deriving DecidableEq

inductive TransferKind
  | internal | achIn | achOut | wireIn | wireOut | p2p
  deriving DecidableEq

/-- The kind as the source spells it. -/
def TransferKind.text : TransferKind → String
  | .internal => "internal"
  | .achIn => "ach_in"
  | .achOut => "ach_out"
  | .wireIn => "wire_in"
  | .wireOut => "wire_out"
  | .p2p => "p2p"

inductive ReviewDecision
  | approved | rejected
  deriving DecidableEq

inductive OverrideStatus
  | pending | settled | declined | reversed | hidden
  deriving DecidableEq

inductive PaymentRequestStatus
  | pending | paid | declined | expired
  deriving DecidableEq

inductive CheckDepositStatus
  | pending | approved | rejected
  deriving DecidableEq

/-- The status as the source spells it. -/
def CheckDepositStatus.text : CheckDepositStatus → String
  | .pending => "pending"
  | .approved => "approved"
  | .rejected => "rejected"

inductive WireBeneficiaryType
  | local_ | international
  deriving DecidableEq

inductive RateSource
  | live | peg
  deriving DecidableEq

/-! ## Ledger codes and journal sources -/

/-- The codes of the ledger accounts: `SYSTEM_LEDGER_CODES`, the adjustments account of the admin
overrides and the sub-ledger of each customer account. -/
inductive LedgerCode
  | cash | pendingOut | pendingIn | feeRevenue | interestExpense | adjustments
  | account (id : Uuid)
  deriving DecidableEq

/-- The code as the source spells it. -/
def LedgerCode.text : LedgerCode → String
  | .cash => "CASH"
  | .pendingOut => "PENDING_OUT"
  | .pendingIn => "PENDING_IN"
  | .feeRevenue => "FEE_REV"
  | .interestExpense => "INT_EXP"
  | .adjustments => "ADJUSTMENTS"
  | .account id => s!"ACCT_{id}"

/-- The sub-ledger of a customer account. -/
def accountSubLedgerCode (accountId : Uuid) : LedgerCode := .account accountId

/-- The `source` of a journal entry: the movement that wrote it. -/
inductive JournalSource
  | pending (transferId : Uuid)
  | settle (transferId : Uuid)
  | reject (transferId : Uuid)
  | adminReverse (transferId : Uuid)
  | override (transactionId : Uuid)
  deriving DecidableEq

/-- The source as the code spells it. -/
def JournalSource.text : JournalSource → String
  | .pending id => s!"transfer:{id}:pending"
  | .settle id => s!"transfer:{id}:settle"
  | .reject id => s!"transfer:{id}:reject"
  | .adminReverse id => s!"transfer:{id}:admin-reverse"
  | .override id => s!"transaction:{id}:override"

/-! ## Rows -/

structure User where
  email : String
  firstName : Option String
  lastName : Option String
  novaTag : Option String
  role : UserRole
  transfersDisabled : Bool
  phoneE164 : Option String
  deriving DecidableEq

structure Account where
  userId : Uuid
  type : AccountType
  label : String
  balanceCents : ℤ
  status : AccountStatus
  deriving DecidableEq

/-- An FX conversion: `FxConversion`, with the rate taken as a rational. -/
structure FxConversion where
  from_ : String
  to_ : String
  rate : ℚ
  asOf : String
  source : RateSource
  fromAmountMinor : ℤ
  toAmountMinor : ℤ
  deriving DecidableEq

/-- `Transaction.metadata`, with the keys the modelled services write. -/
structure TransactionMetadata where
  transferId : Option Uuid
  fx : Option FxConversion
  reversedByAdmin : Option Uuid
  deriving DecidableEq

structure Transaction where
  accountId : Uuid
  kind : TransactionKind
  status : TransactionStatus
  amountCents : ℤ
  description : String
  category : TransactionCategory
  note : Option String
  occurredAt : Instant
  postedAt : Option Instant
  metadata : Option TransactionMetadata
  deriving DecidableEq

/-- An override of a transaction, kept under the transaction's id, which the schema makes
unique. -/
structure TransactionOverride where
  overrideAmountCents : Option ℤ
  overrideOccurredAt : Option Instant
  overrideDescription : Option String
  overrideCategory : Option TransactionCategory
  overrideStatus : Option OverrideStatus
  compensatingEntryId : Option ℕ
  appliedByUserId : Uuid
  reason : Option String
  deriving DecidableEq

structure LedgerAccount where
  type : LedgerAccountType
  normalBalance : Direction
  ownerUserId : Option Uuid
  deriving DecidableEq

structure JournalEntry where
  description : String
  occurredAt : Instant
  source : JournalSource
  referenceId : Option Uuid
  postings : List (Posting LedgerCode)
  deriving DecidableEq

structure Transfer where
  kind : TransferKind
  status : TransactionStatus
  fromAccountId : Uuid
  toAccountId : Option Uuid
  externalRef : Option String
  amountCents : ℤ
  feeCents : ℤ
  instant : Bool
  initiatedByUserId : Uuid
  settledAt : Option Instant
  failureReason : Option String
  idempotencyKey : String
  pendingTransactionId : Option Uuid
  settledTransactionId : Option Uuid
  requiresReview : Bool
  reviewDecision : Option ReviewDecision
  reviewedAt : Option Instant
  reviewedByUserId : Option Uuid
  reviewReason : Option String
  deriving DecidableEq

structure WireBeneficiary where
  type : WireBeneficiaryType
  name : String
  bankName : String
  routingNumber : Option String
  accountNumber : Option String
  swiftBic : Option String
  iban : Option String
  country : Option String
  beneficiaryAddress : Option String
  notes : Option String
  createdByUserId : Uuid
  archivedAt : Option Instant
  deriving DecidableEq

structure LinkedAccount where
  userId : Uuid
  institutionId : String
  institutionName : String
  mask : String
  accountType : String
  deriving DecidableEq

structure PaymentRequest where
  requesterUserId : Uuid
  payerUserId : Option Uuid
  amountCents : ℤ
  note : String
  status : PaymentRequestStatus
  expiresAt : Instant
  paidAt : Option Instant
  paidTransferId : Option Uuid
  deriving DecidableEq

structure Goal where
  userId : Uuid
  name : String
  currentCents : ℤ
  archivedAt : Option Instant
  deriving DecidableEq

/-- An entry of `AutosaveConfig.splits`. -/
structure GoalSplit where
  goalId : Uuid
  percent : ℤ
  deriving DecidableEq

/-- An autosave configuration, kept under the id of its user. -/
structure AutosaveConfig where
  enabled : Bool
  roundUpEnabled : Bool
  roundUpSourceAccountId : Option Uuid
  splits : List GoalSplit
  weeklyContributionCents : Option ℤ
  deriving DecidableEq

/-- A row of `RoundUpLedger`. -/
structure RoundUp where
  userId : Uuid
  transactionId : Uuid
  amountCents : ℤ
  appliedAt : Option Instant
  deriving DecidableEq

structure CheckDeposit where
  userId : Uuid
  accountId : Uuid
  amountCents : ℤ
  status : CheckDepositStatus
  decidedAt : Option Instant
  decidedByUserId : Option Uuid
  decisionReason : Option String
  transactionId : Option Uuid
  deriving DecidableEq

/-- A session, as the user and the device it is of. -/
structure Session where
  userId : Uuid
  deviceId : Uuid
  deriving DecidableEq

/-- A document, as the user or the sign-up it was handed in for. -/
structure Document where
  ownerSignupId : Option Uuid
  ownerUserId : Option Uuid
  deriving DecidableEq

structure PasswordResetChallenge where
  userId : Uuid
  emailHash : String
  codeHash : String
  expiresAt : Instant
  attempts : ℕ
  consumedAt : Option Instant
  supersededAt : Option Instant
  deriving DecidableEq

/-- The tables that nothing but the deletion of a user touches here. -/
inductive OwnedTable
  | statement | card | accountLimits | cardOrder | activatedDeal | biometricChallenge
  | biometricEnrollment | contact | directDeposit | idempotencyKey | kycRecord | mfaChallenge
  | notification | notificationPreference | recurringTransfer | referral | taxForm | totpSecret
  | userPreference | supportThread | device
  deriving DecidableEq

/-! ## The database -/

structure Db where
  users : Table Uuid User
  accounts : Table Uuid Account
  transactions : Table Uuid Transaction
  overrides : Table Uuid TransactionOverride
  ledgerAccounts : Table LedgerCode LedgerAccount
  /-- In the order of their creation; an entry's id is its place. -/
  journal : List JournalEntry
  transfers : Table Uuid Transfer
  wireBeneficiaries : Table Uuid WireBeneficiary
  linkedAccounts : Table Uuid LinkedAccount
  paymentRequests : Table Uuid PaymentRequest
  goals : Table Uuid Goal
  autosaveConfigs : Table Uuid AutosaveConfig
  roundUps : Table Uuid RoundUp
  checkDeposits : Table Uuid CheckDeposit
  sessions : Table Uuid Session
  documents : Table Uuid Document
  passwordResets : Table Uuid PasswordResetChallenge
  /-- The rows of the other tables: the id of the user or the account that owns each. -/
  owned : Table (OwnedTable × Uuid) Uuid
  /-- The e-mail addresses of unfinished sign-ups. -/
  signupSessions : Table Uuid String
  /-- The sign-up session of each verification. -/
  verifications : Table Uuid Uuid

namespace Db

/-- The balance of an account, zero when there is no such account. -/
def balance (db : Db) (a : Uuid) : ℤ :=
  match db.accounts.lookup a with
  | some acct => acct.balanceCents
  | none => 0

/-- All the postings, entry by entry. -/
def postings (db : Db) : List (Posting LedgerCode) :=
  (db.journal.map JournalEntry.postings).flatten

/-- Credits minus debits of a ledger code over the whole journal. -/
def net (db : Db) (c : LedgerCode) : ℤ := DoubleEntry.net db.postings c

/-- The entries with a given source. -/
def entriesOf (db : Db) (src : JournalSource) : List JournalEntry :=
  db.journal.filter fun e => e.source = src

end Db

end BankDemo
