import BankDemo.Foundations.Interleave
import BankDemo.Foundations.UuidText
import BankDemo.Store
import Mathlib.Data.List.Sort

/-!
# Direct deposit and deals

`DirectDepositService`: a customer has an employer's payments switched to the checking account. The
provider (`AtomicStubProvider`) is asked and gives the request an id, and the direct deposit becomes
active when the partner names this id to the webhook, or by hand (`forceActivate`).

`DealsController` is for customers with an active direct deposit: `DirectDepositActiveGuard` looks
at the row before `DealsService` lists the deals or activates one.

The tables are those of the two services. Other services write the accounts, and the deletion of a
user takes the rows of the user along.
-/

namespace BankDemo.Deals

open UuidText

/-! ## Tables -/

/-- An account, with the numbers that an employer is given. -/
structure BankAccount where
  userId : Uuid
  type : AccountType
  status : AccountStatus
  mockRoutingNumber : String
  mockAccountNumber : String
  deriving DecidableEq

structure Employer where
  name : String
  domain : Option String
  deriving DecidableEq

/-- The direct deposit of a user, kept under the id of the user. -/
structure DirectDeposit where
  active : Bool
  activatedAt : Option Instant
  employerId : Option Uuid
  partnerRequestId : Option String
  deriving DecidableEq

/-- What the provider is asked. -/
structure SwitchRequest where
  userId : Uuid
  employerName : String
  employerDomain : Option String
  routingNumber : String
  accountNumber : String
  deriving DecidableEq

structure Merchant where
  name : String
  logoUrl : Option String
  deriving DecidableEq

structure Deal where
  merchantId : Option Uuid
  title : String
  description : String
  cashbackBps : ℤ
  expiresAt : Option Instant
  imageUrl : Option String
  deriving DecidableEq

structure ActivatedDeal where
  userId : Uuid
  dealId : Uuid
  activatedAt : Instant
  redeemedAt : Option Instant
  deriving DecidableEq

structure State where
  accounts : Table Uuid BankAccount
  employers : Table Uuid Employer
  directDeposits : Table Uuid DirectDeposit
  /-- `requests` of the provider. -/
  requests : Table String SwitchRequest
  merchants : Table Uuid Merchant
  deals : Table Uuid Deal
  activations : Table Uuid ActivatedDeal

/-- A request handler over the tables. -/
abbrev Handler (α : Type) := Prog State Error α

/-- A query. -/
def query {α : Type} (f : State → α) : Handler α := .read f

/-- A statement. -/
def statement {α : Type} (body : State → Except Error (α × State)) : Handler α :=
  .attempt (fun _ => true) body

/-! ## Statements -/

/-- `employer.upsert`, by the name: the id of the employer. An empty domain is none. -/
def upsertEmployer (id : Uuid) (name : String) (domain : Option String) (s : State) :
    Except Error (Uuid × State) :=
  match s.employers.findRow fun e => e.name = name with
  | some (found, e) =>
    let domain := domain.filter (· ≠ "") <|> e.domain
    .ok (found, { s with employers := s.employers.insert found { e with domain } })
  | none =>
    if (s.employers.lookup id).isSome then .error .uniqueViolation
    else .ok (id, { s with employers := s.employers.insert id ⟨name, domain⟩ })

/-- `directDeposit.upsert`. -/
def upsert (userId : Uuid) (update : DirectDeposit → DirectDeposit) (create : DirectDeposit)
    (s : State) : Except Error (DirectDeposit × State) :=
  let row := ((s.directDeposits.lookup userId).map update).getD create
  if row.employerId.any fun id => (s.employers.lookup id).isNone then .error .foreignKey
  else .ok (row, { s with directDeposits := s.directDeposits.insert userId row })

/-- `directDeposit.update`. -/
def update (userId : Uuid) (f : DirectDeposit → DirectDeposit) (s : State) :
    Except Error (DirectDeposit × State) :=
  match s.directDeposits.lookup userId with
  | none => .error .recordNotFound
  | some row => .ok (f row, { s with directDeposits := s.directDeposits.insert userId (f row) })

/-- `activatedDeal.create`: the id is unique, and so are the user and the deal together. -/
def createActivation (id : Uuid) (row : ActivatedDeal) (s : State) :
    Except Error ((Uuid × ActivatedDeal) × State) :=
  if (s.activations.lookup id).isSome then .error .uniqueViolation
  else if (s.activations.findRow fun a => a.userId = row.userId && a.dealId = row.dealId).isSome then
    .error .uniqueViolation
  else if (s.deals.lookup row.dealId).isNone then .error .foreignKey
  else .ok ((id, row), { s with activations := s.activations.insert id row })

/-! ## `DirectDepositService` -/

/-- `account.findFirst`: an active checking account of the user. -/
def State.checking (s : State) (userId : Uuid) : Option (Uuid × BankAccount) :=
  s.accounts.findRow fun a => a.userId = userId ∧ a.type = .checking ∧ a.status = .active

/-- `accountPlain`. -/
def accountPlain (userId : Uuid) : Handler BankAccount := do
  match ← query fun s => s.checking userId with
  | none => throw (.badRequest "No active checking account")
  | some (_, acct) => return acct

/-- `••••${number.slice(-4)}`. -/
def masked (number : String) : String :=
  "••••" ++ String.ofList (number.toList.drop (number.toList.length - 4))

structure DirectDepositSummary where
  active : Bool
  activatedAt : Option Instant
  employer : Option (Uuid × String)
  routingNumber : String
  accountNumberMasked : String
  partnerRequestId : Option String
  deriving DecidableEq

/-- The row of the user, with the employer. -/
def State.withEmployer (s : State) (userId : Uuid) : Option (DirectDeposit × Option (Uuid × Employer)) :=
  (s.directDeposits.lookup userId).map fun dd =>
    (dd, dd.employerId.bind fun id => (s.employers.lookup id).map fun e => (id, e))

def summary (userId : Uuid) : Handler DirectDepositSummary := do
  let acct ← accountPlain userId
  let dd ← query fun s => s.withEmployer userId
  return {
    active := dd.any fun d => d.1.active
    activatedAt := dd.bind fun d => d.1.activatedAt
    employer := (dd.bind Prod.snd).map fun e => (e.1, e.2.name)
    routingNumber := acct.mockRoutingNumber
    accountNumberMasked := masked acct.mockAccountNumber
    partnerRequestId := dd.bind fun d => d.1.partnerRequestId }

structure StartSwitchDto where
  employerName : String
  employerDomain : Option String
  employerId : Option Uuid
  deriving DecidableEq

/-- The random values of a switch: the id of a new employer, and the id of the request. -/
structure SwitchDraws where
  employerId : Uuid
  requestId : Uuid
  deriving DecidableEq

/-- The id of a request, as the provider writes it. -/
def requestIdText (id : Uuid) : String := "atomic_stub_" ++ uuidText id

/-- The provider has a request. -/
def State.addRequest (requestId : String) (req : SwitchRequest) (s : State) : State :=
  { s with requests := s.requests.insert requestId req }

/-- `AtomicStubProvider.start`: the id of the request. -/
def start (id : Uuid) (req : SwitchRequest) : Handler String := do
  Prog.modify (fun _ => true) (State.addRequest (requestIdText id) req)
  return requestIdText id

/-- What the provider is asked for an account. -/
def switchRequest (userId : Uuid) (dto : StartSwitchDto) (acct : BankAccount) : SwitchRequest where
  userId
  employerName := dto.employerName
  employerDomain := dto.employerDomain
  routingNumber := acct.mockRoutingNumber
  accountNumber := acct.mockAccountNumber

/-- The employer that a request names, or the one of its name. -/
def resolveEmployer (dto : StartSwitchDto) (id : Uuid) : Handler Uuid :=
  match dto.employerId with
  | some employerId => return employerId
  | none => statement (upsertEmployer id dto.employerName dto.employerDomain)

def startSwitch (userId : Uuid) (dto : StartSwitchDto) (d : SwitchDraws) : Handler DirectDeposit := do
  let acct ← accountPlain userId
  let employerId ← resolveEmployer dto d.employerId
  let requestId ← start d.requestId (switchRequest userId dto acct)
  statement (upsert userId
    (fun row => { row with employerId := some employerId, partnerRequestId := some requestId })
    ⟨false, none, some employerId, some requestId⟩)

/-- The row, active since `now`. -/
def activated (now : Instant) (row : DirectDeposit) : DirectDeposit :=
  { row with active := true, activatedAt := some now }

def handleWebhook (now : Instant) (partnerRequestId : String) : Handler DirectDeposit := do
  match ← query fun s => s.directDeposits.findRow fun dd =>
      dd.partnerRequestId = some partnerRequestId with
  | none => throw (.notFound "Unknown partner request")
  | some (userId, dd) =>
    if dd.active then return dd
    else statement (update userId (activated now))

def forceActivate (now : Instant) (userId : Uuid) : Handler DirectDeposit :=
  statement (upsert userId (activated now) ⟨true, some now, none, none⟩)

/-! ## Deals -/

/-- `DirectDepositActiveGuard`, on a handler that requires it. -/
def canActivate (userId : Uuid) : Handler Unit := do
  let dd ← query fun s => s.directDeposits.lookup userId
  if dd.any DirectDeposit.active then return ()
  else throw (.forbidden "DD_REQUIRED")

/-- A deal, as it is listed. -/
structure ListedDeal where
  id : Uuid
  title : String
  description : String
  cashbackBps : ℤ
  expiresAt : Option Instant
  imageUrl : Option String
  merchant : Option (Uuid × Merchant)
  activated : Bool
  redeemed : Bool
  deriving DecidableEq

/-- `deal.findMany`: the deals that have not expired, those with the most cashback first, each with
its merchant. -/
def State.openDeals (s : State) (now : Instant) : List (Uuid × Deal × Option (Uuid × Merchant)) :=
  let rows := (s.deals.entries.map fun e => (e.1, e.2)).filter fun e =>
    e.2.expiresAt.all fun expiresAt => now < expiresAt
  (rows.insertionSort fun a b => b.2.cashbackBps ≤ a.2.cashbackBps).map fun e =>
    (e.1, e.2, e.2.merchantId.bind fun id => (s.merchants.lookup id).map fun m => (id, m))

/-- `activatedDeal.findMany`. -/
def State.activationsOf (s : State) (userId : Uuid) : List ActivatedDeal :=
  (s.activations.entries.map Sigma.snd).filter fun a => a.userId = userId

/-- `byDealId.get`: the last of the activations of a deal. -/
def byDealId (activations : List ActivatedDeal) (dealId : Uuid) : Option ActivatedDeal :=
  (activations.filter fun a => a.dealId = dealId).getLast?

def list (now : Instant) (userId : Uuid) : Handler (List ListedDeal) := do
  let deals ← query fun s => s.openDeals now
  let activations ← query fun s => s.activationsOf userId
  return deals.map fun (id, d, merchant) => {
    id
    title := d.title
    description := d.description
    cashbackBps := d.cashbackBps
    expiresAt := d.expiresAt
    imageUrl := d.imageUrl
    merchant
    activated := (byDealId activations id).isSome
    redeemed := (byDealId activations id).any fun a => a.redeemedAt.isSome }

/-- `activatedDeal.findUniqueOrThrow`, by the user and the deal. -/
def findActivation (userId dealId : Uuid) : Handler (Uuid × ActivatedDeal) := do
  match ← query fun s => s.activations.findRow fun a => a.userId = userId && a.dealId = dealId with
  | none => throw .recordNotFound
  | some found => return found

/-- `DealsService.activate`: a deal that is activated already stays as it is. -/
def activate (now : Instant) (userId dealId id : Uuid) : Handler (Uuid × ActivatedDeal) := do
  match ← query fun s => s.deals.lookup dealId with
  | none => throw (.notFound "Deal not found")
  | some deal =>
    if deal.expiresAt.any fun expiresAt => expiresAt < now then throw (.conflict "Deal expired")
    else
      tryCatch (statement (createActivation id ⟨userId, dealId, now, none⟩)) fun e =>
        match e with
        | .uniqueViolation => findActivation userId dealId
        | e => throw e

/-! ## Calls -/

/-- The endpoints of the two services, the script that activates by hand, what other services make
of an account, and the deletion of a user. -/
inductive Call
  | summary (userId : Uuid)
  | startSwitch (userId : Uuid) (dto : StartSwitchDto) (d : SwitchDraws)
  | webhook (now : Instant) (partnerRequestId : String)
  | forceActivate (now : Instant) (userId : Uuid)
  | deals (now : Instant) (userId : Uuid)
  | activate (now : Instant) (userId dealId id : Uuid)
  | account (id : Uuid) (row : Option BankAccount)
  | deleteUser (userId : Uuid)
  deriving DecidableEq

inductive Answer
  | summary (s : DirectDepositSummary)
  | directDeposit (row : DirectDeposit)
  | deals (rows : List ListedDeal)
  | activated (id : Uuid) (row : ActivatedDeal)
  | done
  deriving DecidableEq

/-- An account is written, or is no more. -/
def State.putAccount (id : Uuid) (row : Option BankAccount) (s : State) : State :=
  match row with
  | some row => { s with accounts := s.accounts.insert id row }
  | none => { s with accounts := s.accounts.erase id }

/-- The rows of the user are gone. -/
def State.deleteUser (userId : Uuid) (s : State) : State :=
  { s with
    directDeposits := s.directDeposits.erase userId
    activations := s.activations.deleteMany fun _ a => a.userId = userId }

def handle : Call → Handler Answer
  | .summary userId => return .summary (← summary userId)
  | .startSwitch userId dto d => return .directDeposit (← startSwitch userId dto d)
  | .webhook now partnerRequestId => return .directDeposit (← handleWebhook now partnerRequestId)
  | .forceActivate now userId => return .directDeposit (← forceActivate now userId)
  | .deals now userId => do
    canActivate userId
    return .deals (← list now userId)
  | .activate now userId dealId id => do
    canActivate userId
    let (id, row) ← activate now userId dealId id
    return .activated id row
  | .account id row => do
    Prog.modify (fun _ => true) (State.putAccount id row)
    return .done
  | .deleteUser userId => do
    Prog.modify (fun _ => true) (State.deleteUser userId)
    return .done

end BankDemo.Deals
