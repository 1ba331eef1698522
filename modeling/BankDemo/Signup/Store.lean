import BankDemo.Foundations.Interleave
import BankDemo.Foundations.JsString
import BankDemo.Store

/-!
# Sign-up: the store

A sign-up is a row of `SignupSession` that a visitor fills in step by step, with the verifications of
its e-mail address or phone number and the documents uploaded for it, until `complete` makes a user
and a KYC record of it. `Registry` is these tables with the messages that carry codes.

A row says how far it got by its `stage`. The stages are compared by their place in `stageOrder`, as
the source does; a stage that is not listed there, as `abandoned`, is before all others.
-/

namespace BankDemo.Signup

/-! ## Stages -/

inductive SignupStage
  | started | contactCollected | channelChosen | verified | dobCollected | cardChosen
  | addressCollected | passwordSet | detailsCollected | ssnCollected | docsSubmitted | completed
  | abandoned
  deriving DecidableEq

/-- The name of a stage in messages. -/
def SignupStage.name : SignupStage → String
  | .started => "started"
  | .contactCollected => "contact_collected"
  | .channelChosen => "channel_chosen"
  | .verified => "verified"
  | .dobCollected => "dob_collected"
  | .cardChosen => "card_chosen"
  | .addressCollected => "address_collected"
  | .passwordSet => "password_set"
  | .detailsCollected => "details_collected"
  | .ssnCollected => "ssn_collected"
  | .docsSubmitted => "docs_submitted"
  | .completed => "completed"
  | .abandoned => "abandoned"

/-- `STAGE_ORDER`. -/
def stageOrder : List SignupStage :=
  [.started, .contactCollected, .channelChosen, .verified, .dobCollected, .cardChosen,
    .addressCollected, .passwordSet, .detailsCollected, .ssnCollected, .docsSubmitted, .completed]

/-- `STAGE_ORDER.indexOf`: `-1` for a stage that is not listed. -/
def indexOf (stage : SignupStage) : ℤ :=
  match stageOrder.findIdx? fun s => s = stage with
  | some i => i
  | none => -1

/-- The stage is the required one or a later one. -/
def AtLeast (required stage : SignupStage) : Prop := indexOf required ≤ indexOf stage

instance (required stage : SignupStage) : Decidable (AtLeast required stage) :=
  inferInstanceAs (Decidable (_ ≤ _))

theorem AtLeast.trans {a b c : SignupStage} (h : AtLeast a b) (h' : AtLeast b c) : AtLeast a c :=
  le_trans h h'

/-! ## Rows -/

inductive VerificationChannel
  | email | sms
  deriving DecidableEq

inductive DocumentType
  | idFront | idBack | selfie | utilityBill
  deriving DecidableEq

def DocumentType.name : DocumentType → String
  | .idFront => "id_front"
  | .idBack => "id_back"
  | .selfie => "selfie"
  | .utilityBill => "utility_bill"

inductive KycStatus
  | pending | inReview | approved | rejected
  deriving DecidableEq

structure SignupSession where
  stage : SignupStage
  email : Option String
  firstName : Option String
  lastName : Option String
  dob : Option Instant
  phoneE164 : Option String
  verifiedChannel : Option VerificationChannel
  verifiedAt : Option Instant
  cardChoice : Option String
  street : Option String
  apt : Option String
  city : Option String
  state : Option String
  zip : Option String
  passwordHash : Option String
  income : Option String
  occupation : Option String
  annualIncome : Option String
  payMethod : Option String
  foundUs : Option String
  ssnEncrypted : Option String
  ssnHash : Option String
  marketingConsent : Bool
  referralCode : Option String
  expiresAt : Instant
  resolvedUserId : Option Uuid
  deriving DecidableEq

structure Verification where
  signupSessionId : Uuid
  channel : VerificationChannel
  destination : String
  codeHash : String
  expiresAt : Instant
  attempts : ℕ
  consumedAt : Option Instant
  supersededAt : Option Instant
  createdAt : Instant
  deriving DecidableEq

/-- The verification can still be used. -/
def Verification.isOpen (v : Verification) : Bool := v.consumedAt.isNone && v.supersededAt.isNone

structure Document where
  ownerSignupId : Option Uuid
  ownerUserId : Option Uuid
  type : DocumentType
  deriving DecidableEq

/-- A user, as far as a sign-up makes one. -/
structure User where
  email : String
  phoneE164 : Option String
  passwordHash : String
  firstName : Option String
  lastName : Option String
  dob : Option Instant
  deriving DecidableEq

structure KycRecord where
  userId : Uuid
  status : KycStatus
  missingFields : List String
  deriving DecidableEq

structure Db where
  signupSessions : Table Uuid SignupSession
  verifications : Table Uuid Verification
  documents : Table Uuid Document
  users : Table Uuid User
  kycRecords : Table Uuid KycRecord

/-! ## Messages -/

/-- Where a message goes. -/
inductive Address
  | email (address : String)
  | phone (number : String)
  deriving DecidableEq

/-- A message with a code, handed over for delivery. -/
structure CodeMessage where
  to_ : Address
  code : String
  deriving DecidableEq

/-- What the services of sign-up share. -/
structure Registry where
  db : Db
  sent : List CodeMessage

/-! ## Handlers -/

/-- What the services read of the configuration, and the functions of other packages they use. -/
structure Env where
  sessionTtlDays : ℤ
  ttlSec : ℤ
  maxAttempts : ℕ
  cooldownSec : ℤ
  docMaxBytes : ℕ
  /-- `SMS_PROVIDER` is `twilio`. -/
  twilio : Bool
  /-- `argon2.hash` under a salt. -/
  argonHash : ℕ → String → String
  argonVerify : String → String → Bool
  /-- The digest under the key `SSN_PEPPER`. -/
  hmac : String → String
  /-- `aes.encrypt` under an initialization vector. -/
  encrypt : ℕ → String → String
  /-- Unicode upper-casing. -/
  toUpperCase : String → String

/-- A request handler over the registry. -/
abbrev Handler (α : Type) := Prog Registry Error α

/-- The body of a transaction. -/
abbrev Tx (α : Type) := StateT Db (Except Error) α

/-- A query outside a transaction. -/
def query {α : Type} (f : Db → α) : Handler α := .read fun w => f w.db

/-- Commit `body`; an error leaves the database as it was. -/
def transaction {α : Type} (body : Tx α) : Handler α :=
  .attempt (fun _ => true) fun w => match body w.db with
    | .ok r => .ok (r.1, { w with db := r.2 })
    | .error e => .error e

/-- Hand a message over. -/
def handOver (message : CodeMessage) : Handler Unit :=
  .modify (fun _ => true) fun w => { w with sent := w.sent ++ [message] }

/-! ## Statements -/

/-- Another row has the e-mail address or the document number of this one. -/
def sessionClash (db : Db) (id : Uuid) (row : SignupSession) : Bool :=
  db.signupSessions.entries.any fun e => e.1 ≠ id &&
    ((row.email.isSome && e.2.email = row.email) || (row.ssnHash.isSome && e.2.ssnHash = row.ssnHash))

/-- `signupSession.update`: the row it leaves. -/
def updateSession (id : Uuid) (f : SignupSession → SignupSession) : Tx SignupSession := fun db =>
  match db.signupSessions.lookup id with
  | none => .error .recordNotFound
  | some row =>
    if sessionClash db id (f row) then .error .uniqueViolation
    else .ok (f row, { db with signupSessions := db.signupSessions.insert id (f row) })

/-- `signupSession.create`. -/
def createSession (id : Uuid) (row : SignupSession) : Tx SignupSession := fun db =>
  if (db.signupSessions.lookup id).isSome || sessionClash db id row then .error .uniqueViolation
  else .ok (row, { db with signupSessions := db.signupSessions.insert id row })

/-- `verification.update`: the row it leaves. -/
def updateVerification (id : Uuid) (f : Verification → Verification) : Tx Verification := fun db =>
  match db.verifications.lookup id with
  | none => .error .recordNotFound
  | some row => .ok (f row, { db with verifications := db.verifications.insert id (f row) })

/-- `verification.create`. -/
def createVerification (id : Uuid) (row : Verification) : Tx Unit := fun db =>
  if (db.verifications.lookup id).isSome then .error .uniqueViolation
  else if (db.signupSessions.lookup row.signupSessionId).isNone then .error .foreignKey
  else .ok ((), { db with verifications := db.verifications.insert id row })

/-- `document.create`, for a sign-up. -/
def createDocument (id : Uuid) (row : Document) : Tx Unit := fun db =>
  if (db.documents.lookup id).isSome then .error .uniqueViolation
  else if row.ownerSignupId.any fun s => (db.signupSessions.lookup s).isNone then .error .foreignKey
  else .ok ((), { db with documents := db.documents.insert id row })

end BankDemo.Signup
