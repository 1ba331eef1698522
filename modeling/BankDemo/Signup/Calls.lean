import BankDemo.Signup.Verification

/-!
# The calls of sign-up

The handlers of `SignupController` and `VerificationController`, with the steps that the latter makes
as calls of their own (`markChannelChosen`, `markVerified`), and the rest of the system as far as it
touches users: an admin may add a user, edit one or delete one. All but `begin` and the last three
begin by loading the session.
-/

namespace BankDemo.Signup

/-! ## Documents -/

/-- `ALLOWED_MIME`. -/
def allowedMime : List String := ["image/jpeg", "image/png", "application/pdf"]

/-- `DocumentsService.upload` for a sign-up. -/
def upload (env : Env) (id documentId : Uuid) (type : DocumentType) (contentType : String)
    (sizeBytes : ℕ) : Handler Uuid :=
  if contentType ∉ allowedMime then
    throw (.badRequest s!"Unsupported content type: {contentType}")
  else if env.docMaxBytes < sizeBytes then
    throw (.badRequest s!"File exceeds {env.docMaxBytes} bytes")
  else do
    transaction (createDocument documentId ⟨some id, none, type⟩)
    return documentId

/-! ## Users -/

/-- Another user has the e-mail address or the phone number. -/
def userClash (db : Db) (id : Uuid) (row : User) : Bool :=
  db.users.entries.any fun e => e.1 ≠ id &&
    (e.2.email = row.email || (row.phoneE164.isSome && e.2.phoneE164 = row.phoneE164))

/-- `user.create`, by an admin. -/
def addUser (id : Uuid) (row : User) : Tx Unit := fun db =>
  if (db.users.lookup id).isSome || userClash db id row then .error .uniqueViolation
  else .ok ((), { db with users := db.users.insert id row })

/-- `user.update`. -/
def editUser (id : Uuid) (f : User → User) : Tx Unit := fun db =>
  match db.users.lookup id with
  | none => .error .recordNotFound
  | some row =>
    if userClash db id (f row) then .error .uniqueViolation
    else .ok ((), { db with users := db.users.insert id (f row) })

/-- The documents of the sessions that go are no session's. -/
def orphaned (gone : Uuid → Bool) (documents : Table Uuid Document) : Table Uuid Document :=
  documents.updateMany (fun _ d => d.ownerSignupId.any gone) fun d => { d with ownerSignupId := none }

/-- The deletion of a user, with what of it is in these tables: its documents, its KYC record, and
the sign-ups under its e-mail address. -/
def deleteUserTx (id : Uuid) (email : String) : Tx Unit := fun db =>
  if (db.users.lookup id).isNone then .error .recordNotFound
  else
    let stale : Uuid → Bool := fun s =>
      (db.signupSessions.lookup s).any fun row => row.email = some email
    .ok ((), {
      documents := orphaned stale (db.documents.deleteMany fun _ d => d.ownerUserId = some id)
      kycRecords := db.kycRecords.deleteMany fun _ r => r.userId = id
      users := db.users.erase id
      verifications := db.verifications.deleteMany fun _ v => stale v.signupSessionId
      signupSessions := db.signupSessions.deleteMany fun _ row => row.email = some email })

/-- The deletion of a user by an admin. -/
def deleteUser (id : Uuid) : Handler Unit := do
  match ← query fun db => db.users.lookup id with
  | none => throw (.notFound "User not found")
  | some target => transaction (deleteUserTx id target.email)

/-! ## Calls -/

inductive Call
  | begin (now : Instant) (sessionId : Uuid) (input : BeginSignupDto)
  | send (now : Instant) (id : Uuid) (channel : VerificationChannel) (d : CodeDraws)
  | resend (now : Instant) (id verificationId : Uuid) (d : CodeDraws)
  | verify (now : Instant) (id verificationId : Uuid) (code : String)
  | markChannelChosen (now : Instant) (id : Uuid)
  | markVerified (now : Instant) (id : Uuid) (channel : VerificationChannel)
  | setDob (now : Instant) (id : Uuid) (dob : Option Instant)
  | setCard (now : Instant) (id : Uuid) (cardChoice : String)
  | setAddress (now : Instant) (id : Uuid) (addr : AddressDto)
  | setPassword (now : Instant) (id : Uuid) (salt : ℕ) (password : String)
  | setDetails (now : Instant) (id : Uuid) (d : DetailsDto)
  | setSsn (now : Instant) (id : Uuid) (iv : ℕ) (ssnPlain : String)
  | upload (now : Instant) (id documentId : Uuid) (type : DocumentType) (contentType : String)
      (sizeBytes : ℕ)
  | markDocsSubmitted (now : Instant) (id : Uuid)
  | complete (now : Instant) (id userId kycId : Uuid)
  | addUser (id : Uuid) (row : User)
  | editUser (id : Uuid) (f : User → User)
  | deleteUser (id : Uuid)

/-- What the handlers answer. -/
inductive Answer
  | began (id : Uuid) (stage : SignupStage)
  | sent (result : SendResult)
  | resent (retryAfterMs : ℤ)
  | verified (channel : VerificationChannel)
  | uploaded (documentId : Uuid)
  | completed (userId : Uuid)
  | done
  deriving DecidableEq

/-- A handler whose answer says only that it is done. -/
def quietly {α : Type} (p : Handler α) : Handler Answer := do
  let _ ← p
  return .done

/-- The handler of a call. -/
def handle (env : Env) : Call → Handler Answer
  | .begin now sessionId input => do
    let (id, row) ← begin env now sessionId input
    return .began id row.stage
  | .send now id channel d => do
    let session ← load now id
    let result ← send env now id session channel d
    markChannelChosen id session
    return .sent result
  | .resend now id verificationId d => do
    let session ← load now id
    let result ← resend env now id session verificationId d
    return .resent result
  | .verify now id verificationId code => do
    let session ← load now id
    let channel ← verify env now id verificationId code
    let _ ← markVerified id session now channel
    return .verified channel
  | .markChannelChosen now id => do
    let session ← load now id
    quietly (markChannelChosen id session)
  | .markVerified now id channel => do
    let session ← load now id
    quietly (markVerified id session now channel)
  | .setDob now id dob => do
    let session ← load now id
    quietly (setDob id session dob)
  | .setCard now id cardChoice => do
    let session ← load now id
    quietly (setCard id session cardChoice)
  | .setAddress now id addr => do
    let session ← load now id
    quietly (setAddress id session addr)
  | .setPassword now id salt password => do
    let session ← load now id
    quietly (setPassword id session env salt password)
  | .setDetails now id d => do
    let session ← load now id
    quietly (setDetails id session d)
  | .setSsn now id iv ssnPlain => do
    let session ← load now id
    quietly (setSsn id session env iv ssnPlain)
  | .upload now id documentId type contentType sizeBytes => do
    let _ ← load now id
    let document ← upload env id documentId type contentType sizeBytes
    return .uploaded document
  | .markDocsSubmitted now id => do
    let session ← load now id
    quietly (markDocsSubmitted id session)
  | .complete now id userId kycId => do
    let session ← load now id
    let user ← complete id session userId kycId
    return .completed user
  | .addUser id row => quietly (transaction (addUser id row))
  | .editUser id f => quietly (transaction (editUser id f))
  | .deleteUser id => quietly (deleteUser id)

/-- The session that a call would complete. -/
def Call.completing : Call → Option Uuid
  | .complete _ id _ _ => some id
  | _ => none

/-- The id of the session that a call may make. -/
def Call.drawn : Call → Option Uuid
  | .begin _ sessionId _ => some sessionId
  | _ => none

/-! ## A sample sign-up -/

/-- The configuration with the values used when the environment sets none, and simple stand-ins for
the functions of other packages. -/
def sampleEnv : Env where
  sessionTtlDays := 7
  ttlSec := 600
  maxAttempts := 5
  cooldownSec := 60
  docMaxBytes := 10 * 1024 * 1024
  twilio := false
  argonHash _ text := "$" ++ text
  argonVerify hash text := hash == "$" ++ text
  hmac text := "#" ++ text
  encrypt _ text := "~" ++ text
  toUpperCase s := String.ofList (s.toList.map Char.toUpper)

/-- Nobody has signed up. -/
def sampleRegistry : Registry where
  db := { signupSessions := ∅, verifications := ∅, documents := ∅, users := ∅, kycRecords := ∅ }
  sent := []

/-- Ann, with the phone number. -/
def sampleContact (phoneE164 : String) (h : isE164 phoneE164 = true) : BeginSignupDto :=
  ⟨"Ann", "Lee", "ann@example.com", phoneE164, none, by decide, h⟩

theorem isE164_ann : isE164 "+15550001" = true := by decide

/-- Ann begins. -/
def sampleBegin : Call := .begin 0 100 (sampleContact "+15550001" isE164_ann)

/-- A code for session 100 by the channel. -/
def sampleSend (channel : VerificationChannel) : Call := .send 0 100 channel ⟨200, "123456", 0, .ok ()⟩

/-- Ann enters the code. -/
def sampleVerify : Call := .verify 0 100 200 "123456"

/-- What follows the verification, up to the documents. -/
def sampleSteps : List Call :=
  [.setDob 0 100 (some 0), .setAddress 0 100 ⟨"Main St 1", none, "Reno", "NV", "89501"⟩,
    .setPassword 0 100 0 "correct horse", .setDetails 0 100 ⟨none, none, none, none, none, none⟩,
    .setSsn 0 100 0 "x1234567", .upload 0 100 400 .idFront "image/png" 1000,
    .upload 0 100 401 .idBack "image/png" 1000, .markDocsSubmitted 0 100]

end BankDemo.Signup
