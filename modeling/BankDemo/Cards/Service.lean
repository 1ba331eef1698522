import BankDemo.Accounts.Service
import BankDemo.Foundations.JsDate

/-!
# Issuing cards

`CardsService.issue`, and the listener that issues a virtual card for every checking account that is
announced. It does not look whether the account has a card.
-/

namespace BankDemo.Cards

open Accounts

/-- `/^\d{6}$/`. -/
def isBin (bin : String) : Bool := bin.toList.length = 6 && bin.toList.all Char.isDigit

/-- The value of a decimal digit. -/
def digitValue (c : Char) : ℕ := c.toNat - '0'.toNat

/-- `luhnCheckDigit`: every other digit from the right counts twice. -/
def luhnCheckDigit (digits : List ℕ) : ℕ :=
  let weighted := digits.reverse.zipIdx.map fun x =>
    if x.2 % 2 = 0 then (if 9 < 2 * x.1 then 2 * x.1 - 9 else 2 * x.1) else x.1
  (10 - weighted.sum % 10) % 10

/-- `generatePan`: the digits of a card number. -/
def generatePan (bin : String) (body : List ℕ) : Except Error (List ℕ) :=
  if isBin bin then
    let digits := bin.toList.map digitValue ++ body
    .ok (digits ++ [luhnCheckDigit digits])
  else .error (.internal "BIN must be 6 digits")

/-- `generateExpiry`: the month and the year. -/
def generateExpiry (now : Instant) : ℤ × ℤ :=
  let c := JsDate.civil (JsDate.dayNumber now)
  (c.month, c.year + 4)

/-- `panStr.slice(-4)`. -/
def last4 (pan : List ℕ) : String := String.join ((pan.drop (pan.length - 4)).map toString)

/-- `card.create`. -/
def createCard (id : Uuid) (card : Card) : Handler Uuid :=
  .attempt (fun _ => true) fun b =>
    if (b.cards.lookup id).isSome then .error .uniqueViolation
    else if (b.accounts.lookup card.accountId).isNone then .error .foreignKey
    else .ok (id, { b with cards := b.cards.insert id card })

/-- `CardsService.issue`. -/
def issue (cfg : Config) (d : Draws) (now : Instant) (accountId : Uuid) (type : CardType)
    (spendingLimitCents : Option ℤ) : Handler Uuid := do
  let pan ← Prog.lift (generatePan cfg.cardDemoBin d.panBody)
  createCard d.cardId {
    accountId
    type
    last4 := last4 pan
    expMonth := (generateExpiry now).1
    expYear := (generateExpiry now).2
    spendingLimitCents := spendingLimitCents.getD cfg.cardDefaultSpendingLimitCents }

/-- The payload of `account.created`. -/
structure AccountCreatedPayload where
  accountId : Uuid
  userId : Uuid
  type : AccountType
  at_ : Instant
  deriving DecidableEq

/-- `onAccountCreated`: failures are logged. -/
def onAccountCreated (cfg : Config) (d : Draws) (payload : AccountCreatedPayload) : Handler Unit :=
  if payload.type ≠ .checking then pure ()
  else tryCatch (do
    let _ ← issue cfg d d.issuedAt payload.accountId .virtual none
    pure ()) fun _ => pure ()

end BankDemo.Cards
