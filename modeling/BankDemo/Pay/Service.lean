import BankDemo.Notifications.Service
import BankDemo.Transfers.Service
import BankDemo.Transfers.Settlement

/-!
# Paying a person

`PayService.pay` finds the recipient by whatever was typed (an identifier, a tag, an e-mail address, a
phone number) and makes a transfer by `initiate`: to the recipient's checking account, or to the
sender's own savings account when the two are the same person. A payment to another person then gets
the recipient's name as its description.

`payAndNotify` is the whole: after the payment has gone through, the recipient is told of it. What the
notice says is taken from the request, as is the name in the description. For the bank, the whole is `pay`
(`payAndNotify_run`). The sender's contacts touch neither money nor transfers and are left out.
-/

namespace BankDemo.Pay

open Transfers

/-- What `PayService` needs beside `initiate`: the database's comparison of e-mail addresses, which
ignores case. -/
structure PayEnv extends Env where
  sameEmail : String → String → Bool

/-- A call of `pay`, with what `initiate` takes beside the request. -/
structure PayCall where
  senderUserId : Uuid
  idempotencyKey : String
  fromAccountId : Uuid
  recipientHandleOrId : String
  amountCents : ℤ
  note : Option String
  convert : ℤ → String → Except Error FxConversion
  transferId : Uuid
  pendingTxId : Uuid
  now : Instant
  queueUp : Bool

/-! ## The recipient -/

/-- The tag as it is stored. -/
def tagOf (raw : String) : String := if JsString.startsWith raw "@" then raw else "@" ++ raw

/-- `resolveRecipient` by e-mail address, then by the end of a phone number. -/
def resolveByContact (env : PayEnv) (raw : String) : Service (Uuid × User) := do
  let byEmail ← if raw.toList.contains '@' ∧ ¬ JsString.startsWith raw "@" then
      query fun db => db.users.findRow fun u => env.sameEmail u.email raw
    else pure none
  match byEmail with
  | some found => return found
  | none =>
    let digits := JsString.digits raw
    let byPhone ← if 7 ≤ digits.length then
        query fun db => db.users.findRow fun u =>
          u.phoneE164.any fun phone => digits.toList.isSuffixOf phone.toList
      else pure none
    match byPhone with
    | some found => return found
    | none => throw (.notFound "RECIPIENT_NOT_FOUND")

/-- `resolveRecipient`. -/
def resolveRecipient (env : PayEnv) (handleOrId : String) : Service (Uuid × User) := do
  let raw := JsString.trim handleOrId
  if raw = "" then throw (.notFound "RECIPIENT_NOT_FOUND")
  else
    let byId ← match env.parseUuid raw with
      | some id => query fun db => (db.users.lookup id).map fun u => (id, u)
      | none => pure none
    match byId with
    | some found => return found
    | none =>
      match ← query fun db => db.users.findRow fun u => u.novaTag = some (tagOf raw) with
      | some found => return found
      | none => resolveByContact env raw

/-! ## The payment -/

/-- The transfer that `pay` asks for. -/
def payment (c : PayCall) (kind : TransferKind) (toAccountId : Uuid) : InitiateCall where
  userId := c.senderUserId
  idempotencyKey := c.idempotencyKey
  dto := {
    fromAccountId := c.fromAccountId
    toAccountId := some toAccountId
    externalRef := none
    kind
    amountCents := c.amountCents
    instant := false
    note := some (c.note.getD "")
    wireDetails := none
    sendCurrency := none
    sendAmountMinor := none }
  convert := c.convert
  transferId := c.transferId
  pendingTxId := c.pendingTxId
  now := c.now
  queueUp := c.queueUp

/-- A payment to oneself: to the savings account. -/
def paySelf (env : PayEnv) (me : ℕ) (c : PayCall) : Service InitiateResult := do
  match ← query fun db => db.findActive c.senderUserId .savings with
  | none => throw (.badRequest "No active savings account to receive funds")
  | some savings =>
    if savings.1 = c.fromAccountId then
      throw (.badRequest "Source and destination cannot match")
    else initiate env.toEnv me (payment c .internal savings.1)

/-- The description of a payment, which may fail without any harm. -/
def describePayment (me : ℕ) (pendingTxId : Option Uuid) (recipientName : String) :
    Service Unit :=
  match pendingTxId with
  | none => pure ()
  | some id =>
    if recipientName = "" then pure ()
    else tryCatch (transaction me [] (Tx.updateTransaction id fun row =>
      { row with description := s!"Transfer to {recipientName}" })) fun _ => pure ()

/-- A payment to another person. -/
def payOther (env : PayEnv) (me : ℕ) (c : PayCall) (recipient : Uuid × User) :
    Service InitiateResult := do
  match ← query fun db => db.findActive recipient.1 .checking with
  | none => throw (.badRequest "Recipient has no active checking account")
  | some account =>
    let result ← initiate env.toEnv me (payment c .p2p account.1)
    describePayment me result.pendingTransactionId (senderName (some recipient.2))
    return result

/-- `PayService.pay`. -/
def pay (env : PayEnv) (me : ℕ) (c : PayCall) : Service InitiateResult :=
  if c.idempotencyKey = "" then throw (.badRequest "Idempotency-Key header required")
  else do
    let recipient ← resolveRecipient env c.recipientHandleOrId
    let fromAccount ← query fun db => db.accounts.lookup c.fromAccountId
    if fromAccount.map Account.userId ≠ some c.senderUserId then
      throw (.forbidden "Not your account")
    else if recipient.1 = c.senderUserId then paySelf env me c
    else payOther env me c recipient

/-! ## The notice of a payment -/

open Notifications

/-- A call of `pay`, with the notices up or down. -/
structure PayNoticeCall extends PayCall where
  inboxUp : Bool

/-- What `pay` answers: the transfer, and whom it is for. -/
structure PayAnswer where
  result : InitiateResult
  recipientId : Uuid
  recipientNovaTag : Option String
  recipientFirstName : Option String
  deriving DecidableEq

def payAnswer (result : InitiateResult) (recipient : Uuid × User) : PayAnswer :=
  ⟨result, recipient.1, recipient.2.novaTag, recipient.2.firstName⟩

/-- How the notice calls the sender. -/
def senderLabel (sender : Option User) : String :=
  match sender.bind User.novaTag with
  | some tag => tag
  | none => JsString.trim (" ".intercalate (((sender.bind User.firstName).toList ++
      (sender.bind User.lastName).toList).filter fun s => s ≠ ""))

/-- The notice to the recipient. -/
def receivedNotice (c : PayCall) (sender : Option User) (recipientId : Uuid) : Notification where
  userId := recipientId
  category := .transaction
  title := "You received " ++ formatCents c.amountCents
  body :=
    let note := c.note.getD ""
    senderLabel sender ++ " sent you " ++ formatCents c.amountCents ++
      (if note = "" then "" else " — \x22" ++ note ++ "\x22") ++ "."
  ctaUrl := some "/home"

/-- Tell the recipient, which may fail without any harm. -/
def notifyRecipient (c : PayNoticeCall) (recipientId : Uuid) : NoticeService Unit :=
  tryCatch (do
    let sender ← (query fun db => db.users.lookup c.senderUserId).zoom worldPart
    createNotification c.inboxUp (receivedNotice c.toPayCall sender recipientId)) fun _ => pure ()

/-- `PayService.pay`, with the notice. -/
def payAndNotify (env : PayEnv) (me : ℕ) (c : PayNoticeCall) : NoticeService PayAnswer :=
  if c.idempotencyKey = "" then throw (.badRequest "Idempotency-Key header required")
  else do
    let recipient ← (resolveRecipient env c.recipientHandleOrId).zoom worldPart
    let fromAccount ← (query fun db => db.accounts.lookup c.fromAccountId).zoom worldPart
    if fromAccount.map Account.userId ≠ some c.senderUserId then
      throw (.forbidden "Not your account")
    else if recipient.1 = c.senderUserId then do
      let result ← (paySelf env me c.toPayCall).zoom worldPart
      return payAnswer result recipient
    else do
      let result ← (payOther env me c.toPayCall recipient).zoom worldPart
      notifyRecipient c recipient.1
      return payAnswer result recipient

/-! ## The bank and the notices -/

theorem run_zoom_bind {α β : Type} (p : Service α) (k : α → NoticeService β) (s : Inboxes) :
    (p.zoom worldPart >>= k).run s = match (p.run s.world).1 with
      | .ok a => (k a).run { s with world := (p.run s.world).2 }
      | .error e => (.error e, { s with world := (p.run s.world).2 }) := by
  rw [Prog.run_bind, Prog.run_zoom]
  simp only [worldPart]
  cases (p.run s.world).1 <;> rfl

theorem notifyRecipient_run (c : PayNoticeCall) (recipientId : Uuid) (s : Inboxes) :
    (notifyRecipient c recipientId).run s = (.ok (), if c.inboxUp then
      { s with notifications := s.notifications ++
        [receivedNotice c.toPayCall (s.world.db.users.lookup c.senderUserId) recipientId] }
      else s) := by
  unfold notifyRecipient createNotification
  rw [Prog.run_tryCatch, Prog.run_bind, Prog.run_zoom]
  cases c.inboxUp <;> rfl

/-- For the bank, a payment with its notice is the payment. -/
theorem payAndNotify_run (env : PayEnv) (me : ℕ) (c : PayNoticeCall) (s : Inboxes) :
    ((payAndNotify env me c).run s).1.map PayAnswer.result =
      ((pay env me c.toPayCall).run s.world).1 ∧
    ((payAndNotify env me c).run s).2.world = ((pay env me c.toPayCall).run s.world).2 := by
  unfold payAndNotify pay
  split
  · exact ⟨rfl, rfl⟩
  · rw [run_zoom_bind, Prog.run_bind]
    cases (resolveRecipient env c.recipientHandleOrId).run s.world with
    | mk r w =>
      cases r with
      | error e => exact ⟨rfl, rfl⟩
      | ok recipient =>
        simp only
        rw [run_zoom_bind, Prog.run_bind]
        simp only [query, Prog.run_read]
        split
        · exact ⟨rfl, rfl⟩
        · split
          · rw [run_zoom_bind]
            cases (paySelf env me c.toPayCall).run w with
            | mk r w' => cases r <;> exact ⟨rfl, rfl⟩
          · rw [run_zoom_bind]
            cases (payOther env me c.toPayCall recipient).run w with
            | mk r w' =>
              cases r with
              | error e => exact ⟨rfl, rfl⟩
              | ok res =>
                simp only
                rw [Prog.run_bind, notifyRecipient_run]
                cases c.inboxUp <;> exact ⟨rfl, rfl⟩

end BankDemo.Pay
