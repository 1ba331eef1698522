import BankDemo.Crypto.AesGcm
import BankDemo.Foundations.JsDate
import BankDemo.Foundations.JsString

/-!
# Accounts at other banks: the store

A customer links an account at another bank in one of two ways: by handing over the credentials, which
an admin then approves or rejects (`LinkedAccounts/Auth.lean`), or by a link token of the provider
(`LinkedAccounts/Service.lean`). Both create rows of `LinkedAccount`.

`State` has the two tables, the users as the mails address them, the link tokens that the provider keeps
in memory, and what was sent. The schema puts no foreign key on the two tables.
-/

namespace BankDemo.LinkedAccounts

open AesGcm

inductive AuthStatus
  | awaitingOtp | awaitingApproval | approved | rejected
  deriving DecidableEq

inductive LinkedAccountStatus
  | connected | requiresReauth | disconnected
  deriving DecidableEq

/-- A request to link an account. -/
structure LinkedAccountAuth where
  userId : Uuid
  institutionId : String
  institutionName : String
  usernameEnc : List UInt8
  passwordEnc : List UInt8
  otpEmail : Option String
  otpHash : Option String
  otpExpiresAt : Option Instant
  otpAttempts : ℕ
  status : AuthStatus
  reviewedByUserId : Option Uuid
  reviewedAt : Option Instant
  rejectionReason : Option String
  linkedAccountId : Option Uuid
  createdAt : Instant
  deriving DecidableEq

/-- An account at another bank. -/
structure LinkedAccount where
  userId : Uuid
  providerItemId : String
  institutionId : String
  institutionName : String
  mask : String
  accountType : String
  accessTokenEnc : List UInt8
  accessTokenKeyId : String
  status : LinkedAccountStatus
  lastSyncedAt : Option Instant
  createdAt : Instant
  deriving DecidableEq

/-- A user, as the mails address them. -/
structure User where
  email : String
  firstName : Option String
  lastName : Option String
  deriving DecidableEq

/-- The mails of the two services, with what goes into their texts. -/
inductive Mail
  | captured (to_ : String) (requestId : Uuid)
      (institutionId institutionName customerName customerEmail username password : String)
  | otp (to_ institutionName code : String) (ttlMinutes : ℤ)
  | otpCopy (to_ : String) (requestId : Uuid)
      (institutionName customerEmail code : String) (expiresInMin : ℤ)
  | approved (to_ institutionName : String)
  | rejected (to_ institutionName reason : String)
  deriving DecidableEq

/-- What happened to a request. -/
inductive ChangeKind
  | submitted | approved | rejected | deleted
  deriving DecidableEq

/-- The payload of `linkedAccount.changed`. -/
structure LinkedAccountChangedPayload where
  userId : Uuid
  requestId : Uuid
  kind : ChangeKind
  at_ : Instant
  deriving DecidableEq

/-- Whom a link token is for: a user, or `reauth-context`, which is nobody. -/
structure LinkTokenEnvelope where
  userId : Option Uuid
  deriving DecidableEq

/-- What the two services share. -/
structure State where
  users : Table Uuid User
  requests : Table Uuid LinkedAccountAuth
  accounts : Table Uuid LinkedAccount
  /-- `linkTokensByUser`. -/
  linkTokens : Table String LinkTokenEnvelope
  mails : List Mail
  events : List LinkedAccountChangedPayload

/-- What the services are configured with. -/
structure Env where
  gcm : Gcm
  key : Key
  /-- `argon2.hash` under a salt. -/
  argonHash : ℕ → String → String
  argonVerify : String → String → Bool
  toLowerCase : String → String
  superadminEmail : String
  adminEmail : String
  /-- Whether the digest of the user and the institution, at an instant, asks for a new login. -/
  reauthDraw : String → Uuid → Instant → Bool

/-- A request handler over the state. -/
abbrev Handler (α : Type) := Prog State Error α

/-- A query. -/
def query {α : Type} (f : State → α) : Handler α := .read f

/-- A statement. -/
def statement {α : Type} (body : State → Except Error (α × State)) : Handler α :=
  .attempt (fun _ => true) body

/-- A mail is handed to the provider. -/
def handOver (mail : Mail) : Handler Unit :=
  .modify (fun _ => true) fun s => { s with mails := s.mails ++ [mail] }

/-- `emitChanged`. -/
def emitChanged (payload : LinkedAccountChangedPayload) : Handler Unit :=
  .modify (fun _ => true) fun s => { s with events := s.events ++ [payload] }

/-! ## Statements -/

/-- `linkedAccountAuth.create`. -/
def createRequest (id : Uuid) (row : LinkedAccountAuth) (s : State) : Except Error (Unit × State) :=
  if (s.requests.lookup id).isSome then .error .uniqueViolation
  else .ok ((), { s with requests := s.requests.insert id row })

/-- `linkedAccountAuth.update`, by the id. -/
def updateRequest (id : Uuid) (f : LinkedAccountAuth → LinkedAccountAuth) (s : State) :
    Except Error (Unit × State) :=
  match s.requests.lookup id with
  | none => .error .recordNotFound
  | some row => .ok ((), { s with requests := s.requests.insert id (f row) })

/-- `linkedAccountAuth.delete`. -/
def deleteRequest (id : Uuid) (s : State) : Except Error (Unit × State) :=
  if (s.requests.lookup id).isNone then .error .recordNotFound
  else .ok ((), { s with requests := s.requests.erase id })

/-- `linkedAccount.create`. -/
def createAccount (id : Uuid) (row : LinkedAccount) (s : State) :
    Except Error (LinkedAccount × State) :=
  if (s.accounts.lookup id).isSome then .error .uniqueViolation
  else .ok (row, { s with accounts := s.accounts.insert id row })

/-- `linkedAccount.update`, by the id: the row as updated. -/
def updateAccount (id : Uuid) (f : LinkedAccount → LinkedAccount) (s : State) :
    Except Error (LinkedAccount × State) :=
  match s.accounts.lookup id with
  | none => .error .recordNotFound
  | some row => .ok (f row, { s with accounts := s.accounts.insert id (f row) })

/-- `linkedAccount.delete`. -/
def deleteAccount (id : Uuid) (s : State) : Except Error (Unit × State) :=
  if (s.accounts.lookup id).isNone then .error .recordNotFound
  else .ok ((), { s with accounts := s.accounts.erase id })

variable {s s' : State} {id : Uuid}

theorem createRequest_eq_ok {row : LinkedAccountAuth} {r : Unit × State}
    (h : createRequest id row s = .ok r) :
    s.requests.lookup id = none ∧ r.2 = { s with requests := s.requests.insert id row } := by
  unfold createRequest at h
  split at h
  · cases h
  · rename_i hnew
    cases h
    exact ⟨by simpa using hnew, rfl⟩

theorem updateRequest_eq_ok {f : LinkedAccountAuth → LinkedAccountAuth} {r : Unit × State}
    (h : updateRequest id f s = .ok r) : ∃ row, s.requests.lookup id = some row ∧
      r.2 = { s with requests := s.requests.insert id (f row) } := by
  unfold updateRequest at h
  split at h
  · cases h
  · rename_i row hrow
    cases h
    exact ⟨row, hrow, rfl⟩

theorem deleteRequest_eq_ok {r : Unit × State} (h : deleteRequest id s = .ok r) :
    r.2 = { s with requests := s.requests.erase id } := by
  unfold deleteRequest at h
  split at h
  · cases h
  · cases h
    rfl

theorem createAccount_eq_ok {row : LinkedAccount} {r : LinkedAccount × State}
    (h : createAccount id row s = .ok r) :
    s.accounts.lookup id = none ∧ r = (row, { s with accounts := s.accounts.insert id row }) := by
  unfold createAccount at h
  split at h
  · cases h
  · rename_i hnew
    cases h
    exact ⟨by simpa using hnew, rfl⟩

theorem updateAccount_eq_ok {f : LinkedAccount → LinkedAccount} {r : LinkedAccount × State}
    (h : updateAccount id f s = .ok r) : ∃ row, s.accounts.lookup id = some row ∧
      r = (f row, { s with accounts := s.accounts.insert id (f row) }) := by
  unfold updateAccount at h
  split at h
  · cases h
  · rename_i row hrow
    cases h
    exact ⟨row, hrow, rfl⟩

theorem deleteAccount_eq_ok {r : Unit × State} (h : deleteAccount id s = .ok r) :
    r.2 = { s with accounts := s.accounts.erase id } := by
  unfold deleteAccount at h
  split at h
  · cases h
  · cases h
    rfl

end BankDemo.LinkedAccounts
