import BankDemo.Foundations.Interleave
import BankDemo.Foundations.JsString
import BankDemo.Store

/-!
# Referrals

`ReferralsService`: a customer invites by a code, which an applicant may name when signing up. When the
sign-up is completed the referral is the new user's, and when money first arrives for that user from
another bank it is qualified. Each listener reads the referral, checks it and then writes by its id.

Of a sign-up session only the column `referralCode` is here, which `SignupService.begin` writes.
-/

namespace BankDemo.Referrals

inductive ReferralStatus
  | sent | signedUp | qualified | paid
  deriving DecidableEq

/-- A referral. -/
structure Referral where
  referrerUserId : Uuid
  invitedEmail : Option String
  invitedUserId : Option Uuid
  code : String
  status : ReferralStatus
  payoutCents : Option ℤ
  createdAt : Instant
  resolvedAt : Option Instant
  qualifiedAt : Option Instant
  deriving DecidableEq

/-- The referrals, and the code that each sign-up session names. -/
structure State where
  referrals : Table Uuid Referral
  signups : Table Uuid (Option String)

/-- A request handler over the referrals. -/
abbrev Handler (α : Type) := Prog State Error α

/-- A query. -/
def query {α : Type} (f : State → α) : Handler α := .read f

/-- A statement. -/
def statement {α : Type} (body : State → Except Error (α × State)) : Handler α :=
  .attempt (fun _ => true) body

/-! ## Codes -/

def alphabet : List Char := "ABCDEFGHJKLMNPQRSTUVWXYZ23456789".toList

/-- `alphabet[buf[i] % alphabet.length]`. -/
def letter (b : UInt8) : Char := alphabet.getD (b.toNat % alphabet.length) 'A'

/-- `generateCode`, from the octets drawn. -/
def generateCode (buf : List UInt8) : String := String.ofList (buf.map letter)

/-- `/^[A-Z0-9]{4,16}$/i`. -/
def isReferralCode (code : String) : Bool :=
  4 ≤ code.toList.length && code.toList.length ≤ 16 && code.toList.all Char.isAlphanum

/-! ## Statements -/

/-- `referral.create`: the id and the code are unique. -/
def create (id : Uuid) (row : Referral) (s : State) : Except Error (Referral × State) :=
  if (s.referrals.lookup id).isSome then .error .uniqueViolation
  else if (s.referrals.findRow fun r => r.code = row.code).isSome then .error .uniqueViolation
  else .ok (row, { s with referrals := s.referrals.insert id row })

/-- `referral.update`, by the id. -/
def update (id : Uuid) (f : Referral → Referral) (s : State) : Except Error (Unit × State) :=
  match s.referrals.lookup id with
  | none => .error .recordNotFound
  | some row => .ok ((), { s with referrals := s.referrals.insert id (f row) })

/-- `signupSession.update` of the code. -/
def updateSignup (id : Uuid) (code : Option String) (s : State) : Except Error (Unit × State) :=
  if (s.signups.lookup id).isNone then .error .recordNotFound
  else .ok ((), { s with signups := s.signups.insert id code })

/-- `signupSession.create`. -/
def createSignup (id : Uuid) (code : Option String) (s : State) : Except Error (Unit × State) :=
  if (s.signups.lookup id).isSome then .error .uniqueViolation
  else .ok ((), { s with signups := s.signups.insert id code })

/-! ## The service -/

/-- The row of an invitation. -/
def newReferral (now : Instant) (referrerUserId : Uuid) (invitedEmail : Option String)
    (code : String) : Referral where
  referrerUserId
  invitedEmail
  invitedUserId := none
  code
  status := .sent
  payoutCents := none
  createdAt := now
  resolvedAt := none
  qualifiedAt := none

/-- `invite`, with an id and octets for each of the five attempts: only a code that is taken leads to
another one. -/
def invite (now : Instant) (referrerUserId : Uuid) (invitedEmail : Option String) :
    List (Uuid × List UInt8) → Handler Referral
  | [] => throw (.internal "Could not allocate unique referral code")
  | (id, buf) :: rest =>
    tryCatch (statement (create id (newReferral now referrerUserId invitedEmail (generateCode buf))))
      fun e => match e, rest with
        | .uniqueViolation, _ :: _ => invite now referrerUserId invitedEmail rest
        | e, _ => throw e

/-- `begin`, as far as the code is concerned. -/
def begin_ (signupId : Uuid) (referralCode : Option String) : Handler Unit := do
  match ← query fun s => s.signups.lookup signupId with
  | some existing => statement (updateSignup signupId (referralCode <|> existing))
  | none => statement (createSignup signupId referralCode)

/-- `resolveCode`. -/
def resolveCode (code : String) : Handler (Option (Uuid × Referral)) :=
  query fun s => s.referrals.findRow fun r => r.code = code

/-- `attachToSignup`. -/
def attachToSignup (signupId : Uuid) (code : String) : Handler Unit := do
  match ← resolveCode code with
  | none => throw (.notFound "Invalid referral code")
  | some (_, referral) =>
    if referral.status ≠ .sent then throw (.badRequest "Referral already used")
    else statement (updateSignup signupId (some code))

/-- The payload of `user.signed_up`. -/
structure SignupCompletedPayload where
  userId : Uuid
  signupId : Uuid
  deriving DecidableEq

/-- The columns of a referral whose applicant has signed up. -/
def joined (now : Instant) (payload : SignupCompletedPayload) (row : Referral) : Referral :=
  { row with
    invitedUserId := some payload.userId
    status := .signedUp
    resolvedAt := some now }

/-- What `onSignupCompleted` does, but for the logging of failures. -/
def resolveSignup (now : Instant) (payload : SignupCompletedPayload) : Handler Unit := do
  match ← query fun s => s.signups.lookup payload.signupId with
  | some (some code) =>
    if code = "" then pure ()
    else
      match ← resolveCode code with
      | none => pure ()
      | some (id, referral) =>
        if referral.referrerUserId = payload.userId then pure ()
        else if referral.status ≠ .sent then pure ()
        else statement (update id (joined now payload))
  | _ => pure ()

/-- `onSignupCompleted`. -/
def onSignupCompleted (now : Instant) (payload : SignupCompletedPayload) : Handler Unit :=
  tryCatch (resolveSignup now payload) fun _ => pure ()

/-- The payload of `admin.transfer.settled`. -/
structure AdminTransferSettledPayload where
  userId : Uuid
  deposit : Bool
  kind : TransferKind
  deriving DecidableEq

/-- The transfer brings money from another bank. -/
def AdminTransferSettledPayload.qualifying (payload : AdminTransferSettledPayload) : Bool :=
  payload.kind = .achIn || payload.kind = .wireIn

/-- The columns of a qualified referral. -/
def qualifiedRow (bonusCents : ℤ) (now : Instant) (row : Referral) : Referral :=
  { row with
    status := .qualified
    qualifiedAt := some now
    payoutCents := some bonusCents }

/-- What `onTransferSettled` does, but for the logging of failures. -/
def qualify (bonusCents : ℤ) (now : Instant) (payload : AdminTransferSettledPayload) : Handler Unit := do
  if ¬ payload.deposit then pure ()
  else
    match ← query fun s => s.referrals.findRow fun r =>
        r.invitedUserId = some payload.userId && r.status = .signedUp with
    | none => pure ()
    | some (id, _) =>
      if ¬ payload.qualifying then pure ()
      else statement (update id (qualifiedRow bonusCents now))

/-- `onTransferSettled`. -/
def onTransferSettled (bonusCents : ℤ) (now : Instant) (payload : AdminTransferSettledPayload) :
    Handler Unit :=
  tryCatch (qualify bonusCents now payload) fun _ => pure ()

/-! ## Calls -/

inductive Call
  | invite (now : Instant) (referrerUserId : Uuid) (invitedEmail : Option String)
      (draws : List (Uuid × List UInt8))
  | begin_ (signupId : Uuid) (referralCode : Option String)
  | attachToSignup (signupId : Uuid) (code : String)
  | signupCompleted (now : Instant) (payload : SignupCompletedPayload)
  | transferSettled (now : Instant) (payload : AdminTransferSettledPayload)
  deriving DecidableEq

/-- The handler of a call. -/
def handle (bonusCents : ℤ) : Call → Handler Unit
  | .invite now referrerUserId invitedEmail draws => do
    let _ ← invite now referrerUserId invitedEmail draws
  | .begin_ signupId referralCode => begin_ signupId referralCode
  | .attachToSignup signupId code => attachToSignup signupId code
  | .signupCompleted now payload => onSignupCompleted now payload
  | .transferSettled now payload => onTransferSettled bonusCents now payload

end BankDemo.Referrals
