import BankDemo.Foundations.Maps
import BankDemo.Store
import BankDemo.Transactions.Cursor
import BankDemo.Transfers.Settlement

/-!
# The customer's list of transactions

`TransactionsRepository.list` and `TransactionsService.list`. Where a transaction was made
(`merchantOf`), the text match of the database (`contains`) and the names of the other side, which
are looked up for the rows of a page together (`counterparties`), are parameters.

`TransactionsService.resolveCounterparties` computes these names: for the rows of a page, the transfers
that they belong to, the accounts of these and the users of those, in three queries. The maps on the way
are keyed by transfer, and keep one row of the page for each. The order in which `findMany` answers is a
parameter.
-/

namespace BankDemo.Transactions

open JsDate UuidText

structure Merchant where
  id : Uuid
  name : String
  logoUrl : Option String
  category : Option String
  deriving DecidableEq

/-- A transaction with its merchant and its override. -/
structure TransactionRow where
  id : Uuid
  row : Transaction
  merchant : Option Merchant
  override : Option TransactionOverride
  deriving DecidableEq

/-- `ListTransactionsDto`. -/
structure ListTransactionsDto where
  accountId : Option Uuid := none
  cursor : Option String := none
  limit : Option ℕ := none
  q : Option String := none
  categories : Option (List TransactionCategory) := none
  status : Option TransactionStatus := none
  from_ : Option String := none
  to_ : Option String := none

structure ListFilters where
  accountIds : List Uuid
  cursor : Option (Instant × Uuid)
  limit : ℕ
  q : Option String
  categories : Option (List TransactionCategory)
  status : Option TransactionStatus
  from_ : Option Instant
  to_ : Option Instant

structure TransactionDto where
  id : Uuid
  accountId : Uuid
  kind : TransactionKind
  status : TransactionStatus
  amountCents : ℤ
  description : String
  category : TransactionCategory
  note : Option String
  occurredAt : String
  postedAt : Option String
  merchant : Option Merchant
  counterpartyName : Option String
  deriving DecidableEq

structure TransactionListPage where
  items : List TransactionDto
  nextCursor : Option String
  deriving DecidableEq

/-- `TX_PAGE_DEFAULT` and `TX_PAGE_MAX`. -/
structure PageConfig where
  defaultLimit : ℕ := 25
  maxLimit : ℕ := 100

def overrideStatusToTxStatus : OverrideStatus → TransactionStatus
  | .pending => .pending
  | .settled => .posted
  | .declined => .declined
  | .reversed => .reversed
  | .hidden => .posted

def toTransactionDto (t : TransactionRow) (counterpartyName : Option String) : TransactionDto where
  id := t.id
  accountId := t.row.accountId
  kind := t.row.kind
  status := ((t.override.bind TransactionOverride.overrideStatus).map
    overrideStatusToTxStatus).getD t.row.status
  amountCents := (t.override.bind TransactionOverride.overrideAmountCents).getD t.row.amountCents
  description := (t.override.bind TransactionOverride.overrideDescription).getD t.row.description
  category := (t.override.bind TransactionOverride.overrideCategory).getD t.row.category
  note := t.row.note
  occurredAt := toISOString
    ((t.override.bind TransactionOverride.overrideOccurredAt).getD t.row.occurredAt)
  postedAt := t.row.postedAt.map toISOString
  merchant := t.merchant
  counterpartyName

def isHiddenByOverride (t : TransactionRow) : Bool :=
  t.override.bind TransactionOverride.overrideStatus == some .hidden

section

variable (merchantOf : Uuid → Option Merchant) (contains : String → String → Bool)

/-! ## Repository -/

/-- All transactions, with what is included with them. -/
def transactionRows (db : Db) : List TransactionRow :=
  db.transactions.entries.map fun e => ⟨e.1, e.2, merchantOf e.1, db.overrides.lookup e.1⟩

/-- The `where` of the list, less the cursor. -/
def matchesFilters (f : ListFilters) (t : TransactionRow) : Bool :=
  f.accountIds.contains t.row.accountId &&
    f.status.all (· == t.row.status) &&
    f.categories.all (fun cs => cs.isEmpty || cs.contains t.row.category) &&
    f.from_.all (· ≤ t.row.occurredAt) &&
    f.to_.all (t.row.occurredAt ≤ ·) &&
    (!JsString.truthy f.q || f.q.any fun q =>
      contains t.row.description q || t.merchant.any fun m => contains m.name q)

/-- The `AND` of the cursor. -/
def afterCursor (cursor : Option (Instant × Uuid)) (t : TransactionRow) : Bool :=
  cursor.all fun (occurredAt, id) =>
    t.row.occurredAt < occurredAt || (t.row.occurredAt == occurredAt && t.id < id)

/-- `orderBy: [{ occurredAt: 'desc' }, { id: 'desc' }]`. -/
def listOrder (a b : TransactionRow) : Bool :=
  b.row.occurredAt < a.row.occurredAt || (a.row.occurredAt == b.row.occurredAt && b.id ≤ a.id)

/-- `TransactionsRepository.list`. -/
def findTransactions (db : Db) (f : ListFilters) : List TransactionRow :=
  (((transactionRows merchantOf db).filter fun t =>
    matchesFilters contains f t && afterCursor f.cursor t).mergeSort listOrder).take (f.limit + 1)

/-! ## Service -/

def resolveAccountIds (db : Db) (userId : Uuid) (accountId : Option Uuid) :
    Except Error (List Uuid) :=
  let all := (db.accounts.entries.filter fun e => e.2.userId == userId).map Sigma.fst
  match accountId with
  | none => .ok all
  | some id =>
    if all.contains id then .ok [id] else .error (.forbidden "Account not accessible")

/-- `text ? new Date(text) : undefined`. The database client refuses an invalid date. -/
def dateBound (p : Parsers) (text : Option String) : Except Error (Option Instant) :=
  match text with
  | none | some "" => .ok none
  | some s =>
    match p.date s with
    | some t => .ok (some t)
    | none => .error .validation

/-- The cursor of a request: the instant and the id that it names. -/
def queryCursor (p : Parsers) (cursor : Option String) : Option (Instant × Uuid) :=
  match cursor with
  | none | some "" => none
  | some raw =>
    (decodeCursor p raw).bind fun c => (p.date c.occurredAt).map fun t => (t, parse c.id)

def pageLimit (cfg : PageConfig) (query : ListTransactionsDto) : ℕ :=
  min (query.limit.getD cfg.defaultLimit) cfg.maxLimit

variable (counterparties : Db → List TransactionRow → Uuid → Option String)

/-- The page of a result of the repository. -/
def toPage (db : Db) (limit : ℕ) (rows : List TransactionRow) : TransactionListPage :=
  let hasMore := limit < rows.length
  let items := if hasMore then rows.take limit else rows
  let last := items.getLast?
  let visible := items.filter fun r => !isHiddenByOverride r
  let names := counterparties db visible
  { items := visible.map fun r => toTransactionDto r (names r.id)
    -- the cursor is that of the page before hidden rows are dropped
    nextCursor :=
      if hasMore then last.map fun r => encodeCursor (cursorOf r.row.occurredAt r.id) else none }

/-- `TransactionsService.list`. -/
def list (cfg : PageConfig) (p : Parsers) (db : Db) (userId : Uuid) (query : ListTransactionsDto) :
    Except Error TransactionListPage := do
  let accountIds ← resolveAccountIds db userId query.accountId
  if accountIds.isEmpty then return ⟨[], none⟩
  let limit := pageLimit cfg query
  let from_ ← dateBound p query.from_
  let to_ ← dateBound p query.to_
  let rows := findTransactions merchantOf contains db
    { accountIds, cursor := queryCursor p query.cursor, limit, q := query.q
      categories := query.categories, status := query.status, from_, to_ }
  return toPage counterparties db limit rows

end

/-! ## The names of the other side -/

/-- An entry of `txByTransferId`. -/
structure Link where
  txId : Uuid
  accountId : Uuid
  deriving DecidableEq

/-- The entry of a row with `metadata.transferId`. -/
def metaLink (r : TransactionRow) : Option (Uuid × Link) :=
  (r.row.metadata.bind TransactionMetadata.transferId).map fun transferId =>
    (transferId, ⟨r.id, r.row.accountId⟩)

/-- `txByTransferId` after the loop over the rows. -/
def txByTransferId (rows : List TransactionRow) : Table Uuid Link :=
  Table.setAll ∅ (rows.filterMap metaLink)

def txAccountById (rows : List TransactionRow) : Table Uuid Uuid :=
  Table.setAll ∅ (rows.map fun r => (r.id, r.row.accountId))

/-- The `OR` of the query. -/
def isLinked (rows : List TransactionRow) (id : Uuid) (t : Transfer) : Bool :=
  let txIds := rows.map TransactionRow.id
  ((txByTransferId rows).lookup id).isSome || t.pendingTransactionId.any txIds.contains ||
    t.settledTransactionId.any txIds.contains

/-- `transfer.findMany`. -/
def linkedTransfers (order : List (Uuid × Transfer) → List (Uuid × Transfer)) (db : Db)
    (rows : List TransactionRow) : List (Uuid × Transfer) :=
  order ((db.transfers.entries.map fun e => (e.1, e.2)).filter fun e => isLinked rows e.1 e.2)

/-- `candidateTxId`, if it is on the page: what the second loop has for a transfer. -/
def candidateLink (rows : List TransactionRow) (e : Uuid × Transfer) : Option (Uuid × Link) :=
  (e.2.pendingTransactionId <|> e.2.settledTransactionId).bind fun txId =>
    ((txAccountById rows).lookup txId).map fun accountId => (e.1, ⟨txId, accountId⟩)

/-- `counterpartyAccountId`. -/
def counterpartyAccountId (link : Link) (t : Transfer) : Option Uuid :=
  if link.accountId = t.fromAccountId then t.toAccountId
  else if some link.accountId = t.toAccountId then some t.fromAccountId
  else none

/-- `name` of a user, if it is not empty. -/
def counterpartyName (user : User) : Option String :=
  let name := Transfers.senderName (some user)
  if name = "" then none else some name

section

variable (db : Db) (transfers : List (Uuid × Transfer))

/-- `accountIds` after the loop over the transfers. -/
def accountIds : List Uuid :=
  transfers.flatMap fun t => t.2.fromAccountId :: t.2.toAccountId.toList

def userIdByAccount (accountId : Uuid) : Option Uuid :=
  if (accountIds transfers).contains accountId then
    (db.accounts.lookup accountId).map Account.userId
  else none

def userIds : List Uuid := (accountIds transfers).filterMap (userIdByAccount db transfers)

def nameById (userId : Uuid) : Option String :=
  if (userIds db transfers).contains userId then (db.users.lookup userId).bind counterpartyName
  else none

/-- What the last loop sets for a transfer. -/
def namedRow (links : Table Uuid Link) (t : Uuid × Transfer) : Option (Uuid × String) := do
  let link ← links.lookup t.1
  let counterpartyAccountId ← counterpartyAccountId link t.2
  let counterpartyUserId ← userIdByAccount db transfers counterpartyAccountId
  let ownerUserId := userIdByAccount db transfers link.accountId
  if some counterpartyUserId = ownerUserId then none
  else (nameById db transfers counterpartyUserId).map fun name => (link.txId, name)

end

def resolveCounterparties (order : List (Uuid × Transfer) → List (Uuid × Transfer)) (db : Db)
    (rows : List TransactionRow) : Table Uuid String :=
  let transfers := linkedTransfers order db rows
  let links := (txByTransferId rows).fill (transfers.filterMap (candidateLink rows))
  if links.entries.isEmpty then ∅
  else if (userIds db transfers).isEmpty then ∅
  else Table.setAll ∅ (transfers.filterMap (namedRow db transfers links))

end BankDemo.Transactions
