import BankDemo.Kyc.Service
import Mathlib.Data.List.Sort

/-!
# Opening accounts

`AccountsService.provisionForUser` opens a checking account with its limits and a savings account, in
one transaction, unless the user has both. Whether the user has is read before the transaction.

The number of an account is drawn, and drawn again when it is taken. But the attempts run in one
transaction, and the first unique violation aborts it: `statement` refuses everything from there on.
-/

namespace BankDemo.Accounts

/-- An account, with the columns that are set when it is opened. -/
structure Account extends BankDemo.Account where
  apyBps : Option ℤ
  mockRoutingNumber : String
  mockAccountNumber : String
  openedAt : Instant
  deriving DecidableEq

structure AccountLimits where
  atmDailyCents : ℤ
  cardPurchasesDailyCents : ℤ
  cashDepositCents : ℤ
  mobileCheckCents : ℤ
  outgoingWireCents : ℤ
  deriving DecidableEq

inductive CardType
  | virtual | physical
  deriving DecidableEq

/-- A card, without its number. -/
structure Card where
  accountId : Uuid
  type : CardType
  last4 : String
  expMonth : ℤ
  expYear : ℤ
  spendingLimitCents : ℤ
  deriving DecidableEq

/-- The KYC records, the accounts and what belongs to them. -/
structure Branch where
  office : Kyc.Office
  accounts : Table Uuid Account
  limits : Table Uuid AccountLimits
  cards : Table Uuid Card

/-- The office, as a part of the branch. -/
def Branch.officePart : Prog.Part Branch Kyc.Office where
  get := Branch.office
  put o b := { b with office := o }
  get_put _ _ := rfl
  put_get _ := rfl
  put_put _ _ _ := rfl

/-- A request or event handler over the branch. -/
abbrev Handler (α : Type) := Prog Branch Error α

/-- A query outside a transaction. -/
def query {α : Type} (f : Branch → α) : Handler α := .read f

/-- A row with its id. -/
abbrev AccountRow := Uuid × Account

/-- The configuration, with the values used when the environment sets none. -/
structure Config where
  savingsApyBps : ℤ := 450
  limits : AccountLimits := ⟨50000, 10000000, 5000000, 50000000, 500000000⟩
  cardDemoBin : String := "499999"
  cardDefaultSpendingLimitCents : ℤ := 500000

/-- What a provisioning draws: ids, the account number of each attempt, and the digits of the card. It
reads the clock when it opens the accounts, when it announces them and when the card is issued. -/
structure Draws where
  checkingId : Uuid
  savingsId : Uuid
  cardId : Uuid
  mockAccountNumber : AccountType → ℕ → String
  panBody : List ℕ
  openedAt : Instant
  announcedAt : Instant
  issuedAt : Instant

/-! ## Transactions -/

/-- The tables in a transaction, which a statement that fails aborts. -/
structure Tx where
  accounts : Table Uuid Account
  limits : Table Uuid AccountLimits
  aborted : Bool

/-- The code in a transaction. -/
abbrev InTx (α : Type) := Prog Tx Error α

/-- A statement in a transaction. -/
def statement {α : Type} (body : Tx → Except Error (α × Tx)) : InTx α :=
  .act (fun _ => true)
    (fun t =>
      if t.aborted then t
      else match body t with
        | .ok r => r.2
        | .error _ => { t with aborted := true })
    fun t =>
      if t.aborted then throw (.internal "current transaction is aborted")
      else match body t with
        | .ok r => pure r.1
        | .error e => throw e

/-- `$transaction`: all of it or, when the code in it throws or it is aborted, nothing. -/
def transaction {α : Type} (p : InTx α) : Handler α :=
  .attempt (fun _ => true) fun b =>
    match p.run ⟨b.accounts, b.limits, false⟩ with
    | (.ok a, t) =>
      .ok (a, if t.aborted then b else { b with accounts := t.accounts, limits := t.limits })
    | (.error e, _) => .error e

/-! ## Provisioning -/

/-- `generateMockRoutingNumber`. -/
def mockRoutingNumber : String := "021000099"

/-- Another account has the number. -/
def numberTaken (accounts : Table Uuid Account) (number : String) : Bool :=
  accounts.entries.any fun e => e.2.mockAccountNumber = number

/-- `account.create`. -/
def createRow (id : Uuid) (row : Account) : InTx AccountRow :=
  statement fun t =>
    if (t.accounts.lookup id).isSome || numberTaken t.accounts row.mockAccountNumber then
      .error .uniqueViolation
    else .ok ((id, row), { t with accounts := t.accounts.insert id row })

/-- `accountLimits.create`. -/
def createLimits (accountId : Uuid) (limits : AccountLimits) : InTx Unit :=
  statement fun t =>
    if (t.limits.lookup accountId).isSome then .error .uniqueViolation
    else if (t.accounts.lookup accountId).isNone then .error .foreignKey
    else .ok ((), { t with limits := t.limits.insert accountId limits })

/-- The row of a new account. -/
def newAccount (now : Instant) (userId : Uuid) (type : AccountType) (label : String)
    (apyBps : Option ℤ) (mockAccountNumber : String) : Account where
  userId
  type
  label
  balanceCents := 0
  status := .active
  apyBps
  mockRoutingNumber
  mockAccountNumber
  openedAt := now

/-- The attempts of `createAccount` that are left. -/
def createAttempts (id : Uuid) (row : String → Account) (draw : ℕ → String) : ℕ → InTx AccountRow
  | 0 => throw (.internal "Could not allocate unique mock account number")
  | left + 1 =>
    tryCatch (createRow id (row (draw (4 - left)))) fun e =>
      if e = .uniqueViolation ∧ 0 < left then createAttempts id row draw left else throw e

/-- `createAccount`. -/
def createAccount (now : Instant) (id userId : Uuid) (type : AccountType) (label : String)
    (apyBps : Option ℤ) (draw : ℕ → String) : InTx AccountRow :=
  createAttempts id (newAccount now userId type label apyBps) draw 5

/-- The transaction of `provisionForUser`. -/
def openAccounts (cfg : Config) (d : Draws) (now : Instant) (userId : Uuid) :
    InTx (AccountRow × AccountRow) := do
  let checking ← createAccount now d.checkingId userId .checking "Checking" none
    (d.mockAccountNumber .checking)
  createLimits checking.1 cfg.limits
  let savings ← createAccount now d.savingsId userId .savings "Savings" (some cfg.savingsApyBps)
    (d.mockAccountNumber .savings)
  return (checking, savings)

/-- `countForUser`. -/
def countForUser (userId : Uuid) (b : Branch) : ℕ := b.accounts.count fun _ a => a.userId = userId

/-- `listForUser`: the accounts of the user, the oldest first. -/
def listForUser (userId : Uuid) (b : Branch) : List AccountRow :=
  ((b.accounts.entries.map fun e => (e.1, e.2)).filter fun a => a.2.userId = userId).insertionSort
    fun a a' => a.2.openedAt ≤ a'.2.openedAt

/-- A checking and a savings account among these. -/
def findBoth (accs : List AccountRow) : Option (AccountRow × AccountRow) := do
  let checking ← accs.find? fun a => a.2.type = .checking
  let savings ← accs.find? fun a => a.2.type = .savings
  return (checking, savings)

/-- `AccountsService.provisionForUser`: the checking account and the savings account. -/
def provisionForUser (cfg : Config) (d : Draws) (now : Instant) (userId : Uuid) :
    Handler (AccountRow × AccountRow) := do
  let existing ← query (countForUser userId)
  let found ← if 0 < existing then query fun b => findBoth (listForUser userId b) else pure none
  match found with
  | some both => return both
  | none => transaction (openAccounts cfg d now userId)

end BankDemo.Accounts
