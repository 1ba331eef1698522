import BankDemo.Signup.Store

/-!
# Sign-up

`SignupService`. Every step but `begin` gets a copy of the row that `load` read some time before: it
compares the stage of the copy, and then writes its columns to the row by its id, whatever the row
says by then. `begin` starts a session, or starts the visitor's session over, keeping all it has but
the names and the phone number. `complete` makes the user, in one transaction.
-/

namespace BankDemo.Signup

/-! ## Requests -/

/-- `/^\+[1-9]\d{6,14}$/`. -/
def isE164 (s : String) : Bool :=
  match s.toList with
  | '+' :: d :: rest => d.isDigit && d ≠ '0' && rest.all Char.isDigit &&
      decide (6 ≤ rest.length ∧ rest.length ≤ 14)
  | _ => false

/-- The request of `begin`, as validation lets it through. -/
structure BeginSignupDto where
  firstName : String
  lastName : String
  email : String
  phoneE164 : String
  referralCode : Option String
  email_ne : email ≠ ""
  isE164_phone : isE164 phoneE164 = true
  deriving DecidableEq

/-- The request of `setAddress`. A column that the request does not mention is `none`. -/
structure AddressDto where
  street : String
  apt : Option (Option String)
  city : String
  state : String
  zip : String
  deriving DecidableEq

/-- The request of `setDetails`. A column that the request does not mention is `none`. -/
structure DetailsDto where
  income : Option (Option String)
  occupation : Option (Option String)
  annualIncome : Option (Option String)
  payMethod : Option (Option String)
  foundUs : Option (Option String)
  marketingConsent : Option (Option Bool)
  deriving DecidableEq

/-! ## Loading -/

/-- `requireStageAtLeast`. -/
def requireStageAtLeast (actual required : SignupStage) : Handler Unit :=
  if indexOf actual < indexOf required then
    throw (.badRequest s!"Step requires stage >= {required.name}, current {actual.name}")
  else pure ()

/-- `load`. -/
def load (now : Instant) (id : Uuid) : Handler SignupSession := do
  match ← query fun db => db.signupSessions.lookup id with
  | none => throw (.notFound "Signup session not found")
  | some s =>
    if s.expiresAt < now then throw (.badRequest "Signup session expired")
    else if s.stage = .completed then throw (.badRequest "Signup already completed")
    else return s

/-! ## Beginning -/

/-- The row of a new session. -/
def newSession (env : Env) (now : Instant) (input : BeginSignupDto) : SignupSession where
  stage := .contactCollected
  email := some input.email
  firstName := some input.firstName
  lastName := some input.lastName
  dob := none
  phoneE164 := some input.phoneE164
  verifiedChannel := none
  verifiedAt := none
  cardChoice := none
  street := none
  apt := none
  city := none
  state := none
  zip := none
  passwordHash := none
  income := none
  occupation := none
  annualIncome := none
  payMethod := none
  foundUs := none
  ssnEncrypted := none
  ssnHash := none
  marketingConsent := false
  referralCode := input.referralCode
  expiresAt := now + env.sessionTtlDays * 24 * 60 * 60 * 1000
  resolvedUserId := none

/-- The columns that a repeated `begin` sets; `existing` is the row it found. -/
def startOver (input : BeginSignupDto) (existing row : SignupSession) : SignupSession :=
  { row with
    firstName := some input.firstName
    lastName := some input.lastName
    phoneE164 := some input.phoneE164
    referralCode := (input.referralCode.orElse fun _ => existing.referralCode).orElse fun _ =>
      row.referralCode
    stage := .contactCollected }

/-- The removal of a stale session, with what hangs on it. -/
def dropSession (id : Uuid) : Tx Unit := fun db =>
  if (db.signupSessions.lookup id).isNone then .error .recordNotFound
  else .ok ((), { db with
    verifications := db.verifications.deleteMany fun _ v => v.signupSessionId = id
    documents := db.documents.deleteMany fun _ d => d.ownerSignupId = some id
    signupSessions := db.signupSessions.erase id })

/-- The text of the conflict on a phone number. -/
def phoneTakenMessage : String := "That phone number is already linked to a State Bank account."

/-- `begin`, for the contacts that no user has: `sessionId` is the id of a session it makes. -/
def openSession (env : Env) (now : Instant) (sessionId : Uuid) (input : BeginSignupDto) :
    Handler (Uuid × SignupSession) := do
  match ← query fun db => db.signupSessions.findRow fun s => s.email = some input.email with
  | some (id, existing) =>
    if existing.stage = .completed ∨ existing.expiresAt ≤ now then
      transaction (dropSession id)
      let row ← transaction (createSession sessionId (newSession env now input))
      return (sessionId, row)
    else
      let row ← transaction (updateSession id (startOver input existing))
      return (id, row)
  | none =>
    let row ← transaction (createSession sessionId (newSession env now input))
    return (sessionId, row)

/-- `SignupService.begin`. -/
def begin (env : Env) (now : Instant) (sessionId : Uuid) (input : BeginSignupDto) :
    Handler (Uuid × SignupSession) := do
  let existingUser ← query fun db => db.users.findRow fun u => u.email = input.email
  if existingUser.isSome then throw (.conflict "Email already registered")
  else if input.phoneE164 = "" then openSession env now sessionId input
  else
    let phoneTaken ← query fun db => db.users.findRow fun u => u.phoneE164 = some input.phoneE164
    if phoneTaken.isSome then throw (.conflict phoneTakenMessage)
    else openSession env now sessionId input

/-! ## The steps

Each with the id of the session and the copy of its row. -/

section

variable (id : Uuid) (session : SignupSession)

/-- A step: the stage that the copy must have reached, and the columns it sets. -/
def advance (required : SignupStage) (f : SignupSession → SignupSession) :
    Handler SignupSession := do
  requireStageAtLeast session.stage required
  transaction (updateSession id f)

/-- `markChannelChosen`. -/
def markChannelChosen : Handler Unit := do
  requireStageAtLeast session.stage .contactCollected
  if indexOf session.stage < indexOf .channelChosen then
    let _ ← transaction (updateSession id fun row => { row with stage := .channelChosen })
  else pure ()

/-- `markVerified`. -/
def markVerified (now : Instant) (channel : VerificationChannel) : Handler SignupSession :=
  advance id session .contactCollected fun row =>
    { row with stage := .verified, verifiedChannel := some channel, verifiedAt := some now }

/-- `setDob`, with what `new Date` makes of the text; `none` for an invalid date. -/
def setDob (dob : Option Instant) : Handler SignupSession := do
  requireStageAtLeast session.stage .verified
  match dob with
  | none => throw .validation
  | some date =>
    transaction (updateSession id fun row => { row with dob := some date, stage := .dobCollected })

/-- `setCard`. -/
def setCard (cardChoice : String) : Handler SignupSession :=
  advance id session .dobCollected fun row =>
    { row with cardChoice := some cardChoice, stage := .cardChosen }

/-- `setAddress`: the card is that of the copy, or a checking card. -/
def setAddress (addr : AddressDto) : Handler SignupSession :=
  advance id session .dobCollected fun row =>
    { row with
      street := some addr.street
      apt := addr.apt.getD row.apt
      city := some addr.city
      state := some addr.state
      zip := some addr.zip
      cardChoice := some (session.cardChoice.getD "checking")
      stage := .addressCollected }

/-- `setPassword`. -/
def setPassword (env : Env) (salt : ℕ) (password : String) : Handler SignupSession :=
  advance id session .addressCollected fun row =>
    { row with passwordHash := some (env.argonHash salt password), stage := .passwordSet }

/-- `setDetails`. -/
def setDetails (d : DetailsDto) : Handler SignupSession := do
  requireStageAtLeast session.stage .passwordSet
  if d.marketingConsent = some none then throw .validation
  else transaction (updateSession id fun row =>
    { row with
      income := d.income.getD row.income
      occupation := d.occupation.getD row.occupation
      annualIncome := d.annualIncome.getD row.annualIncome
      payMethod := d.payMethod.getD row.payMethod
      foundUs := d.foundUs.getD row.foundUs
      marketingConsent := d.marketingConsent.join.getD row.marketingConsent
      stage := .detailsCollected })

/-- `/^[A-Z0-9]{6,9}$/`. -/
def isPassportId (s : String) : Bool :=
  s.toList.all (fun c => c.isUpper || c.isDigit) && decide (6 ≤ s.toList.length ∧ s.toList.length ≤ 9)

/-- `HmacService.ssnHash`. -/
def ssnHash (env : Env) (plain : String) : String := env.hmac (JsString.digits plain)

/-- `setSsn`. -/
def setSsn (env : Env) (iv : ℕ) (ssnPlain : String) : Handler SignupSession := do
  requireStageAtLeast session.stage .detailsCollected
  let normalized := JsString.stripSpaces (env.toUpperCase (JsString.trim ssnPlain))
  if ¬ isPassportId normalized then
    throw (.badRequest "Passport ID must be 6–9 uppercase letters/digits")
  else
    let hash := ssnHash env normalized
    let dup ← query fun db =>
      db.signupSessions.entries.any fun e => e.1 ≠ id && e.2.ssnHash = some hash
    if dup then throw (.conflict "Passport ID already in use")
    else transaction (updateSession id fun row =>
      { row with
        ssnEncrypted := some (env.encrypt iv normalized)
        ssnHash := some hash
        stage := .ssnCollected })

/-- The documents that a sign-up needs. -/
def requiredDocuments : List DocumentType := [.idFront, .idBack]

/-- `markDocsSubmitted`. -/
def markDocsSubmitted : Handler SignupSession := do
  requireStageAtLeast session.stage .ssnCollected
  let missing ← query fun db => requiredDocuments.filter fun t =>
    !db.documents.entries.any fun d => d.2.ownerSignupId = some id && d.2.type = t
  if missing ≠ [] then
    let names := String.intercalate ", " (missing.map DocumentType.name)
    throw (.badRequest s!"Missing documents: {names}")
  else transaction (updateSession id fun row => { row with stage := .docsSubmitted })

end

/-! ## Completion -/

/-- The unique columns that a row of the transaction may clash on. -/
inductive UniqueTarget
  | id | email | phoneE164 | userId
  deriving DecidableEq

/-- An error inside the transaction of `complete`. -/
inductive TxFailure
  | unique (target : UniqueTarget)
  | other (e : Error)
  deriving DecidableEq

/-- What `complete` makes of such an error. -/
def TxFailure.translate : TxFailure → Error
  | .unique .phoneE164 => .conflict phoneTakenMessage
  | .unique .email => .conflict "Email already registered"
  | .unique _ => .conflict "Some of your details are already in use."
  | .other e => e

/-- `user.create`. -/
def createUser (id : Uuid) (row : User) : StateT Db (Except TxFailure) Unit := fun db =>
  if (db.users.lookup id).isSome then .error (.unique .id)
  else if (db.users.findRow fun u => u.email = row.email).isSome then .error (.unique .email)
  else if row.phoneE164.isSome && (db.users.findRow fun u => u.phoneE164 = row.phoneE164).isSome then
    .error (.unique .phoneE164)
  else .ok ((), { db with users := db.users.insert id row })

/-- `kycRecord.create`. -/
def createKycRecord (id : Uuid) (row : KycRecord) : StateT Db (Except TxFailure) Unit := fun db =>
  if (db.kycRecords.lookup id).isSome then .error (.unique .id)
  else if (db.kycRecords.findRow fun r => r.userId = row.userId).isSome then .error (.unique .userId)
  else if (db.users.lookup row.userId).isNone then .error (.other .foreignKey)
  else .ok ((), { db with kycRecords := db.kycRecords.insert id row })

/-- The documents of a sign-up become those of the user. -/
def handOverDocuments (signupId userId : Uuid) (db : Db) : Db :=
  let documents := db.documents.updateMany (fun _ d => d.ownerSignupId = some signupId) fun d =>
    { d with ownerSignupId := none, ownerUserId := some userId }
  { db with documents }

/-- The columns that `complete` sets. -/
def resolved (userId : Uuid) (row : SignupSession) : SignupSession :=
  { row with stage := .completed, resolvedUserId := some userId }

/-- The transaction of `complete`. -/
def completeTx (id userId kycId : Uuid) (user : User) : StateT Db (Except TxFailure) Uuid := do
  createUser userId user
  createKycRecord kycId ⟨userId, .pending, []⟩
  modify (handOverDocuments id userId)
  fun db => match updateSession id (resolved userId) db with
    | .ok r => .ok (userId, r.2)
    | .error e => .error (.other e)

/-- The user that `complete` makes of a copy. -/
def userOf (session : SignupSession) (email passwordHash : String) : User where
  email
  phoneE164 := session.phoneE164
  passwordHash
  firstName := session.firstName
  lastName := session.lastName
  dob := session.dob

/-- `complete`, its checks passed: the transaction with its errors translated. -/
def resolve (id userId kycId : Uuid) (user : User) : Handler Uuid :=
  .attempt (fun _ => true) fun w => match completeTx id userId kycId user w.db with
    | .ok r => .ok (r.1, { w with db := r.2 })
    | .error e => .error e.translate

/-- `SignupService.complete`: the user it makes. -/
def complete (id : Uuid) (session : SignupSession) (userId kycId : Uuid) : Handler Uuid := do
  if session.stage ≠ .docsSubmitted then
    throw (.badRequest s!"Cannot complete from stage {session.stage.name}")
  else match session.email, session.passwordHash with
    | some email, some passwordHash =>
      if email = "" ∨ passwordHash = "" ∨ ¬ JsString.truthy session.firstName ∨
          ¬ JsString.truthy session.lastName then
        throw (.badRequest "Missing required signup fields")
      else
        let emailTaken ← query fun db => db.users.findRow fun u => u.email = email
        if emailTaken.isSome then throw (.conflict "Email already registered")
        else if ¬ JsString.truthy session.phoneE164 then
          resolve id userId kycId (userOf session email passwordHash)
        else
          let phoneTaken ← query fun db => db.users.findRow fun u => u.phoneE164 = session.phoneE164
          if phoneTaken.isSome then throw (.conflict phoneTakenMessage)
          else resolve id userId kycId (userOf session email passwordHash)
    | _, _ => throw (.badRequest "Missing required signup fields")

end BankDemo.Signup
