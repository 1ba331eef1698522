import BankDemo.Identity.Store

/-!
# Passkeys

`BiometricService`: the enrollments of passkeys, under their ids and with two more unique keys (the
credential id; the user and the device), the challenges of registrations and rebinds, and the pending
challenges of sign-ins, which are kept in memory. `Auth/Service.lean` has the sign-in with a passkey as
part of signing in; here the rows have all the columns that the five writing operations use.

The WebAuthn library, the parsing of URLs and of the client's JSON are parameters (`Env`). What a
ceremony offers to the browser (names, allowed credentials) and the creation times, which only order
lists, are left out.
-/

namespace BankDemo.Biometric

/-! ## The store -/

structure BiometricEnrollment where
  userId : Uuid
  deviceId : Uuid
  credentialId : String
  publicKey : List UInt8
  signCount : ℕ
  transports : List String
  lastUsedAt : Option Instant
  disabledAt : Option Instant
  deriving DecidableEq

inductive ChallengeType
  | registration | rebind
  deriving DecidableEq

structure BiometricChallenge where
  userId : Uuid
  challenge : String
  type : ChallengeType
  expiresAt : Instant
  consumedAt : Option Instant
  deriving DecidableEq

/-- A security alert. Its category is `security` and its link the security page. -/
structure SecurityNotice where
  userId : Uuid
  title : String
  body : String
  deriving DecidableEq

structure State where
  enrollments : Table Uuid BiometricEnrollment
  challenges : Table Uuid BiometricChallenge
  pendingAuth : Table Uuid Identity.PendingAuth
  notices : List SecurityNotice

/-- A request handler over the passkeys. -/
abbrev Handler (α : Type) := Prog State Error α

/-- The body of a transaction. -/
abbrev Body (α : Type) := StateT State (Except Error) α

/-! ## WebAuthn -/

/-- The response of a client to a ceremony; `signed` is what the library verifies. -/
structure Response where
  id : Option String
  rawId : Option String
  clientDataJSON : Option String
  transports : Option (List String)
  signed : String
  deriving DecidableEq

/-- What a ceremony is expected to be for. -/
structure Expected where
  challenge : String
  origin : List String
  rpId : List String

structure RegistrationInfo where
  credentialID : String
  credentialPublicKey : List UInt8
  counter : ℕ
  deriving DecidableEq

structure Authenticator where
  credentialID : String
  credentialPublicKey : List UInt8
  counter : ℕ
  transports : List String

/-- The configuration and what is not in the repository. -/
structure Env where
  rpIds : List String
  origins : List String
  /-- The host of a URL. -/
  hostname : String → Option String
  /-- The text under `challenge` in the JSON that a text encodes. -/
  parsedChallenge : String → Option String
  /-- An error, a response that does not verify, or what was registered. -/
  verifyRegistrationResponse : Response → Expected → Except Error (Option RegistrationInfo)
  /-- An error, a response that does not verify, or the new counter. -/
  verifyAuthenticationResponse : Response → Expected → Authenticator → Except Error (Option ℕ)

variable (env : Env)

/-- A text that is given and not empty. -/
def truthy (text : Option String) : Option String := text.filter fun t => t ≠ ""

def extractClientChallenge (response : Response) : Option String :=
  response.clientDataJSON.bind env.parsedChallenge

/-- `response.id ?? response.rawId`, if it is not empty. -/
def rawCredentialId (response : Response) : Option String :=
  truthy (response.id.or response.rawId)

/-- `resolveRp`: the RP id and the origin for a request. -/
def resolveRp (requestOrigin : Option String) : Option String × Option String :=
  let default := (env.rpIds.head?, env.origins.head?)
  match truthy requestOrigin with
  | none => default
  | some origin =>
    match env.origins.idxOf? origin with
    | some i => (env.rpIds[i]?.or env.rpIds.head?, env.origins[i]?)
    | none =>
      match (env.hostname origin).bind env.rpIds.idxOf? with
      | some i => (env.rpIds[i]?, env.origins[i]?.or (some origin))
      | none => default

/-- What the library is told to expect of an answer to a challenge. -/
def expected (challenge : String) (requestOrigin : Option String) : Expected where
  challenge
  origin := if 1 < env.origins.length then env.origins else (resolveRp env requestOrigin).2.toList
  rpId := if 1 < env.rpIds.length then env.rpIds else (resolveRp env requestOrigin).1.toList

/-- The authenticator that a row describes. -/
def BiometricEnrollment.authenticator (row : BiometricEnrollment) : Authenticator :=
  ⟨row.credentialId, row.publicKey, row.signCount, row.transports⟩

/-! ## Statements -/

/-- `findUnique`, by the credential id. -/
def State.findCredential (s : State) (credentialId : String) : Option (Uuid × BiometricEnrollment) :=
  s.enrollments.findRow fun row => row.credentialId = credentialId

/-- `findUnique`, by the user and the device. -/
def State.findDevice (s : State) (userId deviceId : Uuid) : Option (Uuid × BiometricEnrollment) :=
  s.enrollments.findRow fun row => row.userId = userId && row.deviceId = deviceId

/-- `biometricChallenge.findFirst`: the open challenge that the client has answered. -/
def State.findChallenge (s : State) (userId : Uuid) (type : ChallengeType) (response : Response) :
    Option (Uuid × BiometricChallenge) :=
  (truthy (extractClientChallenge env response)).bind fun challenge =>
    s.challenges.findRow fun c =>
      c.userId = userId && c.type = type && c.challenge = challenge && c.consumedAt.isNone

/-- The rows agree in a unique key. -/
def BiometricEnrollment.clashes (row other : BiometricEnrollment) : Bool :=
  row.credentialId = other.credentialId ||
    (row.userId = other.userId && row.deviceId = other.deviceId)

/-- A row is written under its id, unless another row has one of its unique keys. -/
def State.store (s : State) (id : Uuid) (row : BiometricEnrollment) : Except Error State :=
  if s.enrollments.entries.any fun e => e.1 ≠ id && e.2.clashes row then .error .uniqueViolation
  else .ok { s with enrollments := s.enrollments.insert id row }

/-- `biometricEnrollment.update`, by the id. -/
def State.update (s : State) (id : Uuid) (f : BiometricEnrollment → BiometricEnrollment) :
    Except Error State :=
  match s.enrollments.lookup id with
  | none => .error .recordNotFound
  | some row => s.store id (f row)

/-- `biometricEnrollment.upsert`, by the user and the device. -/
def State.upsert (s : State) (userId deviceId : Uuid)
    (update : BiometricEnrollment → BiometricEnrollment) (id : Uuid)
    (create : BiometricEnrollment) : Except Error State :=
  match s.findDevice userId deviceId with
  | some (id', row) => s.store id' (update row)
  | none =>
    if (s.enrollments.lookup id).isSome then .error .uniqueViolation
    else s.store id create

/-- `biometricChallenge.update`: the challenge is used up. -/
def State.consume (s : State) (now : Instant) (id : Uuid) : Except Error State :=
  match s.challenges.lookup id with
  | none => .error .recordNotFound
  | some c => .ok { s with challenges := s.challenges.insert id { c with consumedAt := some now } }

/-- A statement, or several in a transaction. -/
def transaction (f : State → Except Error State) : Handler Unit :=
  .attempt (fun _ => true) fun s => (f s).map fun s' => ((), s')

/-- `notifySecurity`; a failure is only logged. -/
def notifySecurity (userId : Uuid) (title body : String) : Handler Unit :=
  .modify (fun _ => true) fun s => { s with notices := s.notices ++ [⟨userId, title, body⟩] }

/-- The alert after a passkey was added. -/
def notifyAdded (userId : Uuid) : Handler Unit :=
  notifySecurity userId "Biometric sign-in enabled"
    ("A passkey was added to your account. If this wasn't you, remove it and change your " ++
      "password right away.")

/-! ## The service -/

variable (now : Instant)

/-- Five minutes, the time that every challenge lives. -/
def challengeTtlMs : ℤ := 5 * 60 * 1000

/-- `biometricChallenge.create`, with the challenge of the options generated. -/
def beginCeremony (type : ChallengeType) (userId : Uuid) (challenge : String) (id : Uuid) :
    Handler Unit :=
  transaction fun s =>
    if (s.challenges.lookup id).isSome then .error .uniqueViolation
    else .ok { s with
      challenges := s.challenges.insert id ⟨userId, challenge, type, now + challengeTtlMs, none⟩ }

def beginRegistration (userId : Uuid) (challenge : String) (id : Uuid) : Handler Unit :=
  beginCeremony now .registration userId challenge id

def beginRebind (userId : Uuid) (challenge : String) (id : Uuid) : Handler Unit :=
  beginCeremony now .rebind userId challenge id

/-- The row of a registration keeps its id and its user. -/
def BiometricEnrollment.registered (row : BiometricEnrollment) (now : Instant) (deviceId : Uuid)
    (info : RegistrationInfo) (transports : List String) : BiometricEnrollment :=
  { row with
    deviceId
    credentialId := info.credentialID
    publicKey := info.credentialPublicKey
    signCount := info.counter
    transports
    lastUsedAt := some now
    disabledAt := none }

/-- The write of `finishRegistration`: to the row of the credential if there is one, else to that of
the device. -/
def State.register (s : State) (userId deviceId : Uuid) (info : RegistrationInfo)
    (transports : List String) (existing : Option Uuid) (id : Uuid) : Except Error State :=
  let write := fun row : BiometricEnrollment => row.registered now deviceId info transports
  match existing with
  | some id' => s.update id' write
  | none =>
    s.upsert userId deviceId write id
      { userId, deviceId
        credentialId := info.credentialID
        publicKey := info.credentialPublicKey
        signCount := info.counter
        transports
        lastUsedAt := none
        disabledAt := none }

def finishRegistration (userId deviceId : Uuid) (response : Response)
    (requestOrigin : Option String) (id : Uuid) : Handler Unit := do
  match ← Prog.read fun s => s.findChallenge env userId .registration response with
  | none =>
    throw (.notFound "No matching registration challenge (expired or already used)")
  | some (challengeId, challenge) =>
    if challenge.expiresAt < now then throw (.badRequest "Challenge expired")
    else
      match ← Prog.lift (env.verifyRegistrationResponse response
        (expected env challenge.challenge requestOrigin)) with
      | none => throw (.badRequest "Verification failed")
      | some info =>
        let existing ← Prog.read fun s => s.findCredential info.credentialID
        if existing.any fun e => e.2.userId ≠ userId then
          throw (.badRequest "Credential already registered to another account")
        else
          transaction fun s => s.consume now challengeId >>= fun s =>
            s.register now userId deviceId info (response.transports.getD [])
              (existing.map Prod.fst) id
          notifyAdded userId

/-- The write of `finishRebind` for a credential without a row. -/
def State.adopt (s : State) (userId deviceId : Uuid) (credentialId : String)
    (transports : List String) (id : Uuid) : Except Error State :=
  s.upsert userId deviceId
    (fun row => { row with credentialId, transports, lastUsedAt := some now, disabledAt := none })
    id
    { userId, deviceId, credentialId
      publicKey := []
      signCount := 0
      transports
      lastUsedAt := none
      disabledAt := none }

def finishRebind (userId deviceId : Uuid) (response : Response) (requestOrigin : Option String)
    (id : Uuid) : Handler Unit := do
  match ← Prog.read fun s => s.findChallenge env userId .rebind response with
  | none => throw (.notFound "No pending rebind")
  | some (challengeId, challenge) =>
    if challenge.expiresAt < now then throw (.badRequest "Rebind challenge expired")
    else
      match rawCredentialId response with
      | none => throw (.badRequest "Malformed rebind assertion")
      | some credentialId =>
        match ← Prog.read fun s => s.findCredential credentialId with
        | some (existingId, existing) =>
          if existing.userId ≠ userId then
            throw (.unauthorized "Credential belongs to another account")
          else
            match ← Prog.lift (env.verifyAuthenticationResponse response
              (expected env challenge.challenge requestOrigin) existing.authenticator) with
            | none => throw (.unauthorized "Rebind verification failed")
            | some newCounter =>
              transaction fun s => s.consume now challengeId >>= fun s =>
                s.update existingId fun row => { row with
                  deviceId, signCount := newCounter, lastUsedAt := some now, disabledAt := none }
              notifyAdded userId
        | none =>
          transaction fun s => s.consume now challengeId >>= fun s =>
            s.adopt now userId deviceId credentialId (response.transports.getD []) id
          notifyAdded userId

/-- `remove`: the row stays, disabled. -/
def remove (userId id : Uuid) : Handler Unit := do
  match ← Prog.read fun s => s.enrollments.lookup id with
  | none => throw (.notFound "Enrollment not found")
  | some row =>
    if row.userId ≠ userId then throw (.notFound "Enrollment not found")
    else if row.disabledAt.isSome then return
    else
      transaction fun s => s.update id fun row => { row with disabledAt := some now }
      notifySecurity userId "Biometric sign-in disabled"
        ("A passkey was removed from your account. If this wasn't you, change your password and " ++
          "review your active sessions.")

/-- `reactivate`: whether a disabled row of the device was enabled again. -/
def reactivate (userId deviceId : Uuid) : Handler Bool := do
  match ← Prog.read fun s => s.findDevice userId deviceId with
  | none => return false
  | some (id, row) =>
    if row.disabledAt.isNone then return false
    else
      transaction fun s => s.update id fun row =>
        { row with disabledAt := none, lastUsedAt := some now }
      notifySecurity userId "Biometric sign-in enabled"
        ("A passkey was re-enabled on your account. If this wasn't you, remove it and change your " ++
          "password right away.")
      return true

/-- `beginAuthentication`: challenges past their time are swept, and a new one is kept. -/
def beginAuthentication (handle : Uuid) (challenge : String) : Handler Unit :=
  .modify (fun _ => true) fun s => { s with
    pendingAuth := (s.pendingAuth.deleteMany fun _ p => p.expiresAt < now).insert handle
      ⟨challenge, now + challengeTtlMs⟩ }

/-- `this.pendingAuth.get(handle)`, then `this.pendingAuth.delete(handle)`. -/
def takePending (handle : Uuid) : Handler (Option Identity.PendingAuth) :=
  .attempt (fun _ => true) fun s =>
    .ok (s.pendingAuth.lookup handle, { s with pendingAuth := s.pendingAuth.erase handle })

/-- `finishAuthentication`: the user and the device of the passkey. -/
def finishAuthentication (handle : Uuid) (response : Response) (requestOrigin : Option String) :
    Handler (Uuid × Uuid) := do
  match ← takePending handle with
  | none => throw (.badRequest "No pending biometric challenge")
  | some pending =>
    if pending.expiresAt < now then throw (.badRequest "Biometric challenge expired")
    else
      match rawCredentialId response with
      | none => throw (.badRequest "Malformed biometric assertion")
      | some credentialId =>
        match ← Prog.read fun s => s.findCredential credentialId with
        | none => throw (.unauthorized "Unknown biometric credential")
        | some (id, enrollment) =>
          if enrollment.disabledAt.isSome then
            throw (.unauthorized "Biometric is disabled for this account")
          else
            match ← Prog.lift (env.verifyAuthenticationResponse response
              (expected env pending.challenge requestOrigin) enrollment.authenticator) with
            | none => throw (.unauthorized "Biometric verification failed")
            | some newCounter =>
              transaction fun s => s.update id fun row =>
                { row with signCount := newCounter, lastUsedAt := some now }
              return (enrollment.userId, enrollment.deviceId)

/-! ## Calls -/

inductive Call
  | beginRegistration (now : Instant) (userId : Uuid) (challenge : String) (id : Uuid)
  | finishRegistration (now : Instant) (userId deviceId : Uuid) (response : Response)
      (requestOrigin : Option String) (id : Uuid)
  | remove (now : Instant) (userId id : Uuid)
  | beginRebind (now : Instant) (userId : Uuid) (challenge : String) (id : Uuid)
  | finishRebind (now : Instant) (userId deviceId : Uuid) (response : Response)
      (requestOrigin : Option String) (id : Uuid)
  | reactivate (now : Instant) (userId deviceId : Uuid)
  | beginAuthentication (now : Instant) (handle : Uuid) (challenge : String)
  | finishAuthentication (now : Instant) (handle : Uuid) (response : Response)
      (requestOrigin : Option String)
  deriving DecidableEq

inductive Answer
  | done
  | reactivated (ok : Bool)
  | user (userId deviceIdHint : Uuid)
  deriving DecidableEq

/-- The handler of a call. -/
def handle (env : Env) : Call → Handler Answer
  | .beginRegistration now userId challenge id => do
    beginRegistration now userId challenge id
    return .done
  | .finishRegistration now userId deviceId response requestOrigin id => do
    finishRegistration env now userId deviceId response requestOrigin id
    return .done
  | .remove now userId id => do
    remove now userId id
    return .done
  | .beginRebind now userId challenge id => do
    beginRebind now userId challenge id
    return .done
  | .finishRebind now userId deviceId response requestOrigin id => do
    finishRebind env now userId deviceId response requestOrigin id
    return .done
  | .reactivate now userId deviceId => do
    let ok ← reactivate now userId deviceId
    return .reactivated ok
  | .beginAuthentication now handle challenge => do
    beginAuthentication now handle challenge
    return .done
  | .finishAuthentication now handle response requestOrigin => do
    let (userId, deviceIdHint) ← finishAuthentication env now handle response requestOrigin
    return .user userId deviceIdHint

end BankDemo.Biometric
