import BankDemo.Transfers.Service

/-!
# Wire beneficiaries

The admins keep the list of beneficiaries that wires may go to (`createBeneficiary`,
`updateBeneficiary` and `deleteBeneficiary` of `AdminWiresService`): a row is written with its texts
trimmed and its IBAN as it is compared, and an archived row is not written again.
`TransfersService.verifyBeneficiary` checks a wire's numbers and labels against the list as the
customer types them.
-/

namespace BankDemo.Admin

open Transfers

structure WireBeneficiaryDto where
  type : WireBeneficiaryType
  name : String
  bankName : String
  routingNumber : Option String
  accountNumber : Option String
  swiftBic : Option String
  iban : Option String
  country : Option String
  beneficiaryAddress : Option String
  notes : Option String
  deriving DecidableEq

/-! ## The shapes -/

/-- `[0-9A-Z]`. -/
def isUpperOrDigit (c : Char) : Bool := c.isDigit || c.isUpper

/-- `/^BH\d{2}[A-Z]{4}[0-9A-Z]{14}$/`. -/
def isBhIban (s : String) : Bool :=
  match s.toList with
  | 'B' :: 'H' :: rest =>
    rest.length = 20 && (rest.take 2).all Char.isDigit &&
      ((rest.drop 2).take 4).all Char.isUpper && (rest.drop 6).all isUpperOrDigit
  | _ => false

/-- `/^[A-Z]{6}[A-Z0-9]{2,5}$/`. -/
def isSwift (s : String) : Bool :=
  8 ≤ s.toList.length && s.toList.length ≤ 11 && (s.toList.take 6).all Char.isUpper &&
    (s.toList.drop 6).all isUpperOrDigit

/-- `validateShape`. -/
def validateShape (env : Env) (dto : WireBeneficiaryDto) : Except Error Unit :=
  match dto.type with
  | .local_ =>
    if isBhIban (ibanNorm env dto.iban) = false then .error (.badRequest "IBAN_INVALID")
    else .ok ()
  | .international =>
    if isSwift (env.toUpperCase (JsString.trim (dto.swiftBic.getD ""))) = false then
      .error (.badRequest "SWIFT_INVALID")
    else if JsString.trim (dto.iban.getD "") = "" then .error (.badRequest "IBAN_REQUIRED")
    else if JsString.trim (dto.country.getD "") = "" then .error (.badRequest "COUNTRY_REQUIRED")
    else .ok ()

/-! ## The list -/

/-- The row that a request writes, with the columns it leaves alone. -/
def rowOf (env : Env) (dto : WireBeneficiaryDto) (createdByUserId : Uuid)
    (archivedAt : Option Instant) : WireBeneficiary where
  type := dto.type
  name := JsString.trim dto.name
  bankName := JsString.trim dto.bankName
  routingNumber := dto.routingNumber.map JsString.trim
  accountNumber := dto.accountNumber.map JsString.trim
  swiftBic := dto.swiftBic.map fun s => env.toUpperCase (JsString.trim s)
  iban := dto.iban.map fun s => JsString.stripSpaces (env.toUpperCase (JsString.trim s))
  country := dto.country.map JsString.trim
  beneficiaryAddress := dto.beneficiaryAddress.map JsString.trim
  notes := dto.notes.map JsString.trim
  createdByUserId := createdByUserId
  archivedAt := archivedAt

/-- `wireBeneficiary.create`. -/
def createBeneficiaryTx (id : Uuid) (row : WireBeneficiary) : Tx WireBeneficiary := fun db =>
  if (db.wireBeneficiaries.lookup id).isSome then .error .uniqueViolation
  else .ok (row, { db with wireBeneficiaries := db.wireBeneficiaries.insert id row })

/-- `wireBeneficiary.update`. -/
def updateBeneficiaryTx (id : Uuid) (f : WireBeneficiary → WireBeneficiary) : Tx WireBeneficiary :=
  fun db => match db.wireBeneficiaries.lookup id with
    | none => .error .recordNotFound
    | some row => .ok (f row, { db with
        wireBeneficiaries := db.wireBeneficiaries.insert id (f row) })

/-- `createBeneficiary`. -/
def createBeneficiary (env : Env) (me : ℕ) (actorUserId : Uuid) (dto : WireBeneficiaryDto)
    (id : Uuid) : Service WireBeneficiary :=
  match validateShape env dto with
  | .error e => throw e
  | .ok _ => transaction me [] (createBeneficiaryTx id (rowOf env dto actorUserId none))

/-- `updateBeneficiary`. -/
def updateBeneficiary (env : Env) (me : ℕ) (id : Uuid) (dto : WireBeneficiaryDto) :
    Service WireBeneficiary :=
  match validateShape env dto with
  | .error e => throw e
  | .ok _ => do
    let row ← query fun db => db.wireBeneficiaries.lookup id
    if row.all fun b => b.archivedAt.isSome then throw (.notFound "BENEFICIARY_NOT_FOUND")
    else transaction me [] (updateBeneficiaryTx id fun b =>
      rowOf env dto b.createdByUserId b.archivedAt)

/-- `deleteBeneficiary`, which archives. -/
def deleteBeneficiary (me : ℕ) (id : Uuid) (now : Instant) : Service Unit := do
  let row ← query fun db => db.wireBeneficiaries.lookup id
  if row.isNone then throw (.notFound "BENEFICIARY_NOT_FOUND")
  else do
    let _ ← transaction me [] (updateBeneficiaryTx id fun b => { b with archivedAt := some now })
    return ()

/-! ## The check as the customer types -/

structure VerifyBeneficiaryInput where
  type : WireBeneficiaryType
  bankName : Option String
  beneficiaryName : Option String
  routingNumber : Option String
  accountNumber : Option String
  swiftBic : Option String
  iban : Option String

structure VerifyBeneficiaryResult where
  valid : Bool
  beneficiaryName : Option String
  deriving DecidableEq

/-- `wireBeneficiary.findMany`. The order of the rows is the table's. -/
def findBeneficiaries (p : WireBeneficiary → Bool) (db : Db) : List WireBeneficiary :=
  (db.wireBeneficiaries.entries.map Sigma.snd).filter p

/-- A label as it is compared; `toLowerCase` is JavaScript's. -/
def labelNorm (toLowerCase : String → String) (s : Option String) : String :=
  toLowerCase (JsString.trim (s.getD ""))

/-- The choice among the candidates by what was typed for the bank and the name. -/
def chooseBeneficiary (toLowerCase : String → String) (bankName beneficiaryName : Option String)
    (candidates : List WireBeneficiary) : VerifyBeneficiaryResult :=
  match candidates with
  | [] => ⟨false, none⟩
  | first :: _ =>
    let typedBank := labelNorm toLowerCase bankName
    let typedName := labelNorm toLowerCase beneficiaryName
    if typedBank = "" ∧ typedName = "" then ⟨true, some first.name⟩
    else
      let matched := candidates.find? fun c =>
        typedBank ≠ "" ∧ labelNorm toLowerCase (some c.bankName) = typedBank ∨
          typedName ≠ "" ∧ labelNorm toLowerCase (some c.name) = typedName
      match matched with
      | some c => ⟨true, some c.name⟩
      | none => ⟨false, none⟩

/-- `TransfersService.verifyBeneficiary`. -/
def verifyBeneficiary (env : Env) (toLowerCase : String → String) (input : VerifyBeneficiaryInput) :
    Service VerifyBeneficiaryResult :=
  match input.type with
  | .local_ =>
    let norm := ibanNorm env input.iban
    if norm = "" then return ⟨false, none⟩
    else do
      let candidates ← query (findBeneficiaries fun b =>
        b.archivedAt = none ∧ b.type = .local_ ∧ b.iban = some norm)
      return chooseBeneficiary toLowerCase input.bankName input.beneficiaryName candidates
  | .international =>
    let swift := input.swiftBic.getD ""
    let iban := input.iban.getD ""
    if swift = "" ∨ iban = "" then return ⟨false, none⟩
    else do
      let candidates ← query (findBeneficiaries fun b =>
        b.archivedAt = none ∧ b.type = .international ∧
          b.swiftBic = some (env.toUpperCase (JsString.trim swift)) ∧
          b.iban = some (JsString.stripSpaces (env.toUpperCase (JsString.trim iban))))
      return chooseBeneficiary toLowerCase input.bankName input.beneficiaryName candidates

end BankDemo.Admin
