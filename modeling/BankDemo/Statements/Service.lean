import BankDemo.Foundations.JsDate
import BankDemo.Foundations.JsString
import BankDemo.Foundations.UuidText
import BankDemo.Store
import Mathlib.Data.List.Sort

/-!
# Statements of account

`StatementsService` makes a statement in three ways: once for each account and month, kept in the
storage (`generateOne`, called by `monthlyRun`); again for each statement that is kept
(`regenerateAllStored`); and for a period of the customer's choice, which is kept nowhere
(`renderCustom`). Each reads the posted rows of the period and the balance before it, and adds up.

The renderer and the storage are parameters; what the renderer is given is also kept in the state
(`rendered`). Logging is left out.
-/

namespace BankDemo.Statements

open JsDate UuidText

/-! ## Data -/

abbrev Pdf := List UInt8

/-- An entry of `StatementVars.transactions`. -/
structure StatementRow where
  occurredAt : Instant
  description : String
  amountCents : ℤ
  runningBalanceCents : ℤ
  deriving DecidableEq

/-- What the renderer is given. -/
structure StatementVars where
  accountLabel : String
  accountNumberMasked : String
  routingNumber : String
  userFullName : String
  periodStart : Instant
  periodEnd : Instant
  openingBalanceCents : ℤ
  closingBalanceCents : ℤ
  totalInCents : ℤ
  totalOutCents : ℤ
  transactions : List StatementRow
  deriving DecidableEq

structure Statement where
  accountId : Uuid
  periodStart : Instant
  periodEnd : Instant
  storageKey : String
  sizeBytes : ℕ
  deriving DecidableEq

/-- The columns of an account that only statements show. -/
structure AccountNumbers where
  mockAccountNumber : String
  mockRoutingNumber : String

/-- What statements are made from and kept in. -/
structure State where
  db : Db
  accountNumbers : Uuid → AccountNumbers
  statements : Table Uuid Statement
  /-- What the storage keeps. -/
  files : Table String Pdf
  /-- What the renderer has been given. -/
  rendered : List StatementVars

/-- The renderer, the storage and JavaScript's `toLowerCase`. -/
structure Env where
  render : StatementVars → Except Error Pdf
  put : String → Pdf → Except Error Unit
  toLowerCase : String → String

abbrev Call (α : Type) := Prog State Error α

/-! ## Queries -/

/-- `account.findUnique` with `include: { user: true }`. -/
structure AccountWithUser where
  account : Account
  numbers : AccountNumbers
  user : User

def findAccount (w : State) (id : Uuid) : Option AccountWithUser :=
  (w.db.accounts.lookup id).bind fun account =>
    (w.db.users.lookup account.userId).map fun user => ⟨account, w.accountNumbers id, user⟩

/-- `statement.findUnique` on `accountId_periodStart`. -/
def findStatement (w : State) (accountId : Uuid) (periodStart : Instant) :
    Option (Uuid × Statement) :=
  w.statements.findRow fun s => s.accountId = accountId ∧ s.periodStart = periodStart

/-- `{ accountId, status: 'posted' }`. -/
def postedOf (accountId : Uuid) (t : Transaction) : Bool :=
  t.accountId == accountId && t.status == .posted

/-- `[{ occurredAt: 'asc' }, { id: 'asc' }]`. -/
def earlier (a b : Uuid × Transaction) : Prop :=
  a.2.occurredAt < b.2.occurredAt ∨ (a.2.occurredAt = b.2.occurredAt ∧ a.1 ≤ b.1)

instance (a b : Uuid × Transaction) : Decidable (earlier a b) := instDecidableOr

/-- `transaction.findMany` of the posted rows with `occurredAt: { gte, lt }`. -/
def findPosted (db : Db) (accountId : Uuid) (gte lt : Instant) : List (Uuid × Transaction) :=
  ((db.transactions.entries.filter fun e => postedOf accountId e.2 &&
    (gte ≤ e.2.occurredAt && e.2.occurredAt < lt)).map fun e => (e.1, e.2)).insertionSort earlier

/-- `balanceAt`. -/
def balanceAt (db : Db) (accountId : Uuid) (atOrBefore : Instant) : ℤ :=
  ((db.transactions.entries.filter fun e => postedOf accountId e.2 &&
    e.2.occurredAt < atOrBefore).map fun e => e.2.amountCents).sum

/-! ## Adding up -/

/-- The variables of the loop over the rows. -/
structure Tally where
  running : ℤ
  totalIn : ℤ
  totalOut : ℤ
  rows : List StatementRow

def Tally.add (s : Tally) (t : Transaction) : Tally :=
  let running := s.running + t.amountCents
  { running
    totalIn := if 0 < t.amountCents then s.totalIn + t.amountCents else s.totalIn
    totalOut := if 0 < t.amountCents then s.totalOut else s.totalOut + -t.amountCents
    rows := s.rows ++ [⟨t.occurredAt, t.description, t.amountCents, running⟩] }

def tally (opening : ℤ) (transactions : List (Uuid × Transaction)) : Tally :=
  transactions.foldl (fun s t => s.add t.2) ⟨opening, 0, 0, []⟩

/-- `[firstName, lastName].filter(Boolean).join(' ') || email`. -/
def userFullName (user : User) : String :=
  let names := [user.firstName, user.lastName].filterMap fun name =>
    name.bind fun text => if text = "" then none else some text
  if names = [] then user.email else " ".intercalate names

/-- `s.slice(-4)`. -/
def lastFour (s : String) : String := String.ofList (s.toList.drop (s.toList.length - 4))

/-- The argument of `renderer.render`. -/
def statementVars (account : AccountWithUser) (periodStart periodEnd : Instant) (opening : ℤ)
    (transactions : List (Uuid × Transaction)) : StatementVars :=
  let s := tally opening transactions
  { accountLabel := account.account.label
    accountNumberMasked := "••••" ++ lastFour account.numbers.mockAccountNumber
    routingNumber := account.numbers.mockRoutingNumber
    userFullName := userFullName account.user
    periodStart
    periodEnd
    openingBalanceCents := opening
    closingBalanceCents := s.running
    totalInCents := s.totalIn
    totalOutCents := s.totalOut
    transactions := s.rows }

/-! ## Actions -/

/-- `renderer.render`. -/
def render (env : Env) (vars : StatementVars) : Call Pdf := do
  Prog.modify (fun _ => true) fun w => { w with rendered := w.rendered ++ [vars] }
  Prog.lift (env.render vars)

/-- `storage.put`. -/
def putFile (env : Env) (key : String) (body : Pdf) : Call Unit :=
  Prog.attempt (fun _ => true) fun w =>
    (env.put key body).map fun _ => ((), { w with files := w.files.insert key body })

/-- `statement.create`. -/
def createStatement (id : Uuid) (row : Statement) : Call (Uuid × Statement) :=
  Prog.attempt (fun _ => true) fun w =>
    if (w.statements.lookup id).isSome ∨
        (findStatement w row.accountId row.periodStart).isSome then .error .uniqueViolation
    else .ok ((id, row), { w with statements := w.statements.insert id row })

/-- `statement.update` of `sizeBytes`. -/
def updateSize (id : Uuid) (sizeBytes : ℕ) : Call Unit :=
  Prog.attempt (fun _ => true) fun w =>
    match w.statements.lookup id with
    | none => .error .recordNotFound
    | some row => .ok ((), { w with statements := w.statements.insert id { row with sizeBytes } })

/-! ## Service -/

/-- `statements/${userId}/${accountId}/${periodStart.toISOString().slice(0, 7)}.pdf`. -/
def statementKey (userId accountId : Uuid) (periodStart : Instant) : String :=
  "statements/" ++ uuidText userId ++ "/" ++ uuidText accountId ++ "/" ++
    String.ofList ((toISOString periodStart).toList.take 7) ++ ".pdf"

/-- `generateOne`; `id` is drawn for the new row. -/
def generateOne (env : Env) (id accountId : Uuid) (periodStart periodEnd : Instant) :
    Call (Uuid × Statement) := do
  let existing ← Prog.read fun w => findStatement w accountId periodStart
  match existing with
  | some row => return row
  | none =>
    let found ← Prog.read fun w => findAccount w accountId
    match found with
    | none => throw (.notFound "Account not found")
    | some account =>
      let transactions ← Prog.read fun w => findPosted w.db accountId periodStart periodEnd
      let opening ← Prog.read fun w => balanceAt w.db accountId periodStart
      let pdf ← render env
        (statementVars account periodStart (periodEnd - 1) opening transactions)
      let storageKey := statementKey account.account.userId accountId periodStart
      putFile env storageKey pdf
      createStatement id
        { accountId, periodStart, periodEnd, storageKey, sizeBytes := pdf.length }

/-- `startOfPriorMonthUTC`. -/
def startOfPriorMonthUTC (now : Instant) : Instant × Instant :=
  (utc (getUTCFullYear now) (getUTCMonth now - 1) 1, utc (getUTCFullYear now) (getUTCMonth now) 1)

/-- The loop of `monthlyRun`: a statement that fails does not keep others from being made. -/
def generateEach (env : Env) (ids : Uuid → Uuid) (periodStart periodEnd : Instant) :
    List Uuid → Call Unit
  | [] => pure ()
  | accountId :: rest => do
    tryCatch (do let _ ← generateOne env (ids accountId) accountId periodStart periodEnd)
      fun _ => pure ()
    generateEach env ids periodStart periodEnd rest

/-- `monthlyRun`; `ids` are the ids drawn for the new rows. -/
def monthlyRun (env : Env) (ids : Uuid → Uuid) (now : Instant) : Call Unit := do
  let period := startOfPriorMonthUTC now
  let accounts ← Prog.read fun w =>
    (w.db.accounts.entries.filter fun e => e.2.status == .active).map Sigma.fst
  generateEach env ids period.1 period.2 accounts

/-- The body of the loop of `regenerateAllStored`: whether the statement was rendered again. -/
def regenerateStored (env : Env) (id : Uuid) (row : Statement) : Call Bool :=
  tryCatch (do
    let found ← Prog.read fun w => findAccount w row.accountId
    match found with
    | none => return false
    | some account =>
      let transactions ← Prog.read fun w =>
        findPosted w.db row.accountId row.periodStart row.periodEnd
      let opening ← Prog.read fun w => balanceAt w.db row.accountId row.periodStart
      let pdf ← render env
        (statementVars account row.periodStart (row.periodEnd - 1) opening transactions)
      putFile env row.storageKey pdf
      updateSize id pdf.length
      return true) fun _ => pure false

/-- The answer of `regenerateAllStored`. -/
structure Regenerated where
  regenerated : ℕ
  failed : ℕ
  deriving DecidableEq

/-- The loop of `regenerateAllStored`. -/
def regenerateEach (env : Env) : List (Uuid × Statement) → Regenerated → Call Regenerated
  | [], n => pure n
  | (id, row) :: rest, n => do
    let done ← regenerateStored env id row
    regenerateEach env rest
      (if done then { n with regenerated := n.regenerated + 1 }
      else { n with failed := n.failed + 1 })

/-- `regenerateAllStored`. -/
def regenerateAllStored (env : Env) : Call Regenerated := do
  let rows ← Prog.read fun w => w.statements.entries.map fun e => (e.1, e.2)
  regenerateEach env rows ⟨0, 0⟩

/-- `[a-z0-9]`. -/
def isSlug (c : Char) : Bool := ('a' ≤ c && c ≤ 'z') || ('0' ≤ c && c ≤ '9')

/-- `.replace(/[^a-z0-9]+/g, '-')`; `inRun` is set while other characters follow one another. -/
def hyphenate (inRun : Bool) : List Char → List Char
  | [] => []
  | c :: cs =>
    if isSlug c then c :: hyphenate false cs
    else if inRun then hyphenate true cs
    else '-' :: hyphenate true cs

/-- `.replace(/^-|-$/g, '')`. -/
def trimHyphens (cs : List Char) : List Char :=
  let begun := if cs.head? = some '-' then cs.tail else cs
  if begun.getLast? = some '-' then begun.dropLast else begun

def slug (env : Env) (label : String) : String :=
  let text := String.ofList (trimHyphens (hyphenate false (env.toLowerCase label).toList))
  if text = "" then "account" else text

/-- `renderCustom`. A date that is no date is `none`. -/
def renderCustom (env : Env) (userId accountId : Uuid) (periodStart periodEnd : Option Instant) :
    Call (Pdf × String) :=
  match periodStart, periodEnd with
  | none, _ => throw (.badRequest "PERIOD_START_INVALID")
  | some _, none => throw (.badRequest "PERIOD_END_INVALID")
  | some periodStart, some periodEnd => do
    if periodEnd ≤ periodStart then throw (.badRequest "PERIOD_RANGE_INVALID")
    let oneYearMs := 366 * 24 * 60 * 60 * 1000
    if periodEnd - periodStart > oneYearMs then throw (.badRequest "PERIOD_TOO_WIDE")
    let found ← Prog.read fun w => findAccount w accountId
    match found with
    | none => throw (.notFound "Account not found")
    | some account =>
      if account.account.userId ≠ userId then throw (.notFound "Account not found")
      let endExclusive := timeClip
        (utc (getUTCFullYear periodEnd) (getUTCMonth periodEnd) (getUTCDate periodEnd + 1))
      match endExclusive with
      | none => throw .validation
      | some endExclusive =>
        let transactions ← Prog.read fun w => findPosted w.db accountId periodStart endExclusive
        let opening ← Prog.read fun w => balanceAt w.db accountId periodStart
        let pdf ← render env (statementVars account periodStart periodEnd opening transactions)
        let filename := "State Bank-Statement-" ++ slug env account.account.label ++ "-" ++
          isoDay periodStart ++ "_to_" ++ isoDay periodEnd ++ ".pdf"
        return (pdf, filename)

end BankDemo.Statements
