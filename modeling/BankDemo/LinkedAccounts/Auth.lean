import BankDemo.LinkedAccounts.Store

/-!
# Requests to link an account

`LinkedAccountAuthService`: a customer hands over the credentials of an account at another bank, has a
code sent and enters it, and an admin approves or rejects the request. Each call reads the request,
checks what it read and then writes by the id, whatever the request has become since.

A mail that is sent without being awaited is one action here. What the provider answers to the two
mails of `sendOtp` is drawn with the call.
-/

namespace BankDemo.LinkedAccounts

open AesGcm

def otpTtlMs : ℤ := 10 * 60 * 1000

def otpMaxAttempts : ℕ := 5

/-- `/^\d{6}$/`. -/
def isOtp (code : String) : Bool := code.toList.length = 6 && code.toList.all Char.isDigit

/-- `/^[^\s@]+@[^\s@]+\.[^\s@]+$/`. -/
def isEmail (s : String) : Bool :=
  match s.toList.splitOn '@' with
  | [mailbox, domain] => !mailbox.isEmpty && s.toList.all (fun c => !JsString.isSpace c) &&
      (domain.drop 1).dropLast.contains '.'
  | _ => false

/-- The code that was drawn, as text. -/
def codeText (code : ℕ) : String := JsDate.pad 6 code

/-- The names that are not empty, in one. -/
def joinedName (user : User) : String :=
  JsString.trim (" ".intercalate
    (([user.firstName, user.lastName].filterMap id).filter fun name => name ≠ ""))

variable (env : Env) (now : Instant)

/-- `requireRow`. -/
def requireRow (userId id : Uuid) : Handler LinkedAccountAuth := do
  match ← query fun s => s.requests.lookup id with
  | none => throw (.notFound "Request not found")
  | some row => if row.userId ≠ userId then throw (.notFound "Request not found") else return row

/-- The request, for an admin. -/
def findRequest (id : Uuid) : Handler LinkedAccountAuth := do
  match ← query fun s => s.requests.lookup id with
  | none => throw (.notFound "Request not found")
  | some row => return row

/-! ## The customer's calls -/

structure InitiateInput where
  institutionId : String
  institutionName : String
  username : String
  password : String
  deriving DecidableEq

/-- What `initiate` draws: the id of the request and two nonces. -/
structure InitiateDraws where
  id : Uuid
  usernameIv : Nonce
  passwordIv : Nonce
  deriving DecidableEq

/-- `notifySuperadmin`. Failures are logged. -/
def notifySuperadmin (requestId : Uuid)
    (institutionId institutionName customerName customerEmail username password : String) :
    Handler Unit :=
  if env.superadminEmail = "" then pure ()
  else handOver (.captured env.superadminEmail requestId institutionId institutionName customerName
    customerEmail username password)

/-- The row of a new request. -/
def newRequest (userId : Uuid) (input : InitiateInput) (d : InitiateDraws) : LinkedAccountAuth where
  userId
  institutionId := JsString.trim input.institutionId
  institutionName := JsString.trim input.institutionName
  usernameEnc := Base64.ofText (encrypt env.gcm env.key d.usernameIv (JsString.trim input.username))
  passwordEnc := Base64.ofText (encrypt env.gcm env.key d.passwordIv input.password)
  otpEmail := none
  otpHash := none
  otpExpiresAt := none
  otpAttempts := 0
  status := .awaitingOtp
  reviewedByUserId := none
  reviewedAt := none
  rejectionReason := none
  linkedAccountId := none
  createdAt := now

/-- `initiate`: the id of the request. -/
def initiate (userId : Uuid) (input : InitiateInput) (d : InitiateDraws) : Handler Uuid := do
  if JsString.trim input.username = "" then throw (.badRequest "Username required")
  else if input.password = "" then throw (.badRequest "Password required")
  else if JsString.trim input.institutionId = "" ∨ JsString.trim input.institutionName = "" then
    throw (.badRequest "Institution required")
  else
    statement (createRequest d.id (newRequest env now userId input d))
    let user ← query fun s => s.users.lookup userId
    let fullName := match user with
      | none => toString userId
      | some user =>
        if joinedName user ≠ "" then joinedName user
        else if user.email ≠ "" then user.email
        else toString userId
    notifySuperadmin env d.id input.institutionId input.institutionName fullName
      ((user.map User.email).getD "(unknown)") input.username input.password
    emitChanged ⟨userId, d.id, .submitted, now⟩
    return d.id

/-- What `sendOtp` draws: the code, the salt of its hash, and what the provider answers to the mail to
the customer and to the copy for the admin. -/
structure OtpDraws where
  code : ℕ
  salt : ℕ
  customer : Except String String
  admin : Except String String
  deriving DecidableEq

/-- `sendOtpToCustomer`: the id of the message, or the error. -/
def sendOtpToCustomer (answer : Except String String) (to_ institutionName code : String)
    (expiresInMin : ℤ) : Handler (Except String String) := do
  handOver (.otp to_ institutionName code expiresInMin)
  return answer

/-- `sendOtpToAdmin`. -/
def sendOtpToAdmin (answer : Except String String) (requestId : Uuid)
    (institutionName customerEmail code : String) (expiresInMin : ℤ) :
    Handler (Except String String) := do
  if env.adminEmail = "" then return .error "ADMIN_NOTIFICATION_EMAIL not configured"
  else
    handOver (.otpCopy env.adminEmail requestId institutionName customerEmail code expiresInMin)
    return answer

/-- The columns of a request under a new code. -/
def coded (email : String) (d : OtpDraws) (row : LinkedAccountAuth) : LinkedAccountAuth :=
  { row with
    otpEmail := some email
    otpHash := some (env.argonHash d.salt (codeText d.code))
    otpExpiresAt := some (now + otpTtlMs)
    otpAttempts := 0 }

/-- `sendOtp`: the seconds until the code expires. -/
def sendOtp (userId id : Uuid) (email : String) (d : OtpDraws) : Handler ℤ := do
  let trimmed := env.toLowerCase (JsString.trim email)
  if ¬ isEmail trimmed then throw (.badRequest "Enter a valid email address")
  else
    let row ← requireRow userId id
    if row.status ≠ .awaitingOtp then
      throw (.badRequest "Cannot send OTP for a request in this state")
    else
      statement (updateRequest id (coded env now trimmed d))
      let expiresInMin := otpTtlMs / 60000
      let customerRes ← sendOtpToCustomer d.customer trimmed row.institutionName (codeText d.code)
        expiresInMin
      let adminRes ← sendOtpToAdmin env d.admin id row.institutionName trimmed (codeText d.code)
        expiresInMin
      match customerRes, adminRes with
      | .error _, .error _ => throw (.badRequest
          "Could not send the verification email. Check the address and try again.")
      | _, _ => return otpTtlMs / 1000

/-- The columns of a request whose code was entered. -/
def verified (row : LinkedAccountAuth) : LinkedAccountAuth :=
  { row with status := .awaitingApproval, otpHash := none, otpExpiresAt := none }

/-- `verifyOtp`. -/
def verifyOtp (userId id : Uuid) (code : String) : Handler Unit := do
  if ¬ isOtp code then throw (.badRequest "Enter the 6-digit code")
  else
    let row ← requireRow userId id
    if row.status ≠ .awaitingOtp then throw (.badRequest "Request is not awaiting OTP")
    else
      match row.otpHash, row.otpExpiresAt with
      | some hash, some expiresAt =>
        if hash = "" then throw (.badRequest "No OTP issued — request a new one")
        else if expiresAt < now then throw (.badRequest "Code expired — request a new one")
        else if otpMaxAttempts ≤ row.otpAttempts then
          throw (.badRequest "Too many attempts — request a new code")
        else if ¬ env.argonVerify hash code then
          statement (updateRequest id fun row => { row with otpAttempts := row.otpAttempts + 1 })
          throw (.unauthorized "Incorrect code")
        else statement (updateRequest id verified)
      | _, _ => throw (.badRequest "No OTP issued — request a new one")

/-- `deleteMyRequest`. -/
def deleteMyRequest (userId id : Uuid) : Handler Unit := do
  let row ← requireRow userId id
  if row.status ≠ .rejected then
    throw (.badRequest "Only rejected requests can be deleted by the customer")
  else statement (deleteRequest id)

/-- A request as `listMyPending` shows it. -/
structure PendingRow where
  id : Uuid
  institutionId : String
  institutionName : String
  status : AuthStatus
  rejectionReason : Option String
  reviewedAt : Option Instant
  createdAt : Instant
  deriving DecidableEq

/-- The requests that `listMyPending` shows: open, or rejected less than a day ago. -/
def LinkedAccountAuth.shownTo (row : LinkedAccountAuth) (userId : Uuid) : Bool :=
  row.userId = userId && (row.status = .awaitingOtp || row.status = .awaitingApproval ||
    (row.status = .rejected && row.reviewedAt.any fun t => now - 24 * 60 * 60 * 1000 ≤ t))

/-- `listMyPending`, the newest first. -/
def listMyPending (userId : Uuid) : Handler (List PendingRow) :=
  query fun s =>
    ((s.requests.entries.filter fun e => e.2.shownTo now userId).mergeSort fun a b =>
      b.2.createdAt ≤ a.2.createdAt).map fun e =>
        ⟨e.1, e.2.institutionId, e.2.institutionName, e.2.status, e.2.rejectionReason,
          e.2.reviewedAt, e.2.createdAt⟩

/-! ## The admin's calls -/

/-- What `approve` draws: the id of the account, its mask and a nonce. -/
structure ApproveDraws where
  accountId : Uuid
  mask : ℕ
  iv : Nonce
  deriving DecidableEq

/-- The item that an approved request stands for. -/
def capturedItem (id : Uuid) : String := "captured-" ++ toString id

/-- The account of an approved request. -/
def capturedAccount (id : Uuid) (row : LinkedAccountAuth) (d : ApproveDraws) : LinkedAccount where
  userId := row.userId
  providerItemId := capturedItem id
  institutionId := row.institutionId
  institutionName := row.institutionName
  mask := toString d.mask
  accountType := "checking"
  accessTokenEnc := Base64.ofText (encrypt env.gcm env.key d.iv ("captured:" ++ toString id))
  accessTokenKeyId := "local-aes-v1"
  status := .connected
  lastSyncedAt := some now
  createdAt := now

/-- The columns of an approved request. -/
def approvedRow (actorUserId accountId : Uuid) (row : LinkedAccountAuth) : LinkedAccountAuth :=
  { row with
    status := .approved
    reviewedByUserId := some actorUserId
    reviewedAt := some now
    linkedAccountId := some accountId }

/-- A mail to the user, if there is an address. -/
def mailUser (userId : Uuid) (mail : String → Mail) : Handler Unit := do
  match ← query fun s => s.users.lookup userId with
  | none => pure ()
  | some user => if user.email = "" then pure () else handOver (mail user.email)

/-- `approve`: the id of the account. -/
def approve (actorUserId id : Uuid) (d : ApproveDraws) : Handler Uuid := do
  let row ← findRequest id
  if row.status ≠ .awaitingApproval then
    throw (.badRequest "Only OTP-verified requests can be approved")
  else
    let _username ← Prog.lift (decrypt env.gcm env.key (Base64.toText row.usernameEnc))
    let _account ← statement (createAccount d.accountId (capturedAccount env now id row d))
    statement (updateRequest id (approvedRow now actorUserId d.accountId))
    mailUser row.userId fun to_ => .approved to_ row.institutionName
    emitChanged ⟨row.userId, id, .approved, now⟩
    return d.accountId

/-- The columns of a rejected request. -/
def rejectedRow (actorUserId : Uuid) (reason : String) (row : LinkedAccountAuth) :
    LinkedAccountAuth :=
  { row with
    status := .rejected
    reviewedByUserId := some actorUserId
    reviewedAt := some now
    rejectionReason := some (JsString.slice (JsString.trim reason) 280) }

/-- `reject`. -/
def reject (actorUserId id : Uuid) (reason : String) : Handler Unit := do
  if JsString.trim reason = "" then throw (.badRequest "Reason required")
  else
    let row ← findRequest id
    if row.status = .approved ∨ row.status = .rejected then
      throw (.badRequest "Request already decided")
    else
      statement (updateRequest id (rejectedRow now actorUserId reason))
      mailUser row.userId fun to_ => .rejected to_ row.institutionName (JsString.trim reason)
      emitChanged ⟨row.userId, id, .rejected, now⟩

/-- `deleteByAdmin`. -/
def deleteByAdmin (id : Uuid) : Handler Unit := do
  let row ← findRequest id
  statement (deleteRequest id)
  emitChanged ⟨row.userId, id, .deleted, now⟩

/-- A request as `listPending` shows it: with the address and the name of the customer. -/
structure QueueRow where
  id : Uuid
  userId : Uuid
  customer : Option (String × String)
  institutionId : String
  institutionName : String
  otpEmail : Option String
  status : AuthStatus
  createdAt : Instant
  deriving DecidableEq

/-- `listPending`, the newest first. -/
def listPending : Handler (List QueueRow) := do
  let rows ← query fun s =>
    (s.requests.entries.filter fun e =>
      e.2.status = .awaitingOtp || e.2.status = .awaitingApproval).mergeSort fun a b =>
        b.2.createdAt ≤ a.2.createdAt
  query fun s => rows.map fun e =>
    ⟨e.1, e.2.userId,
      (s.users.lookup e.2.userId).map fun u =>
        (u.email, if joinedName u ≠ "" then joinedName u else u.email),
      e.2.institutionId, e.2.institutionName, e.2.otpEmail, e.2.status, e.2.createdAt⟩

end BankDemo.LinkedAccounts
