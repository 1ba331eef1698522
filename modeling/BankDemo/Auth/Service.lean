import BankDemo.Foundations.JsString
import BankDemo.Mfa.Service

/-!
# Signing in

`AuthService` (password, then a code on a new device), the passkey sign-in of
`BiometricAuthController`, and the admin's switch of a user's status. Each way of signing in ends in
`issueSession`; `login` and the passkey sign-in check the user's status on the way, `mfaVerify` and
the rotation of refresh tokens do not.

The fingerprint of a device is computed from the headers of the request, and is given here. The texts
of hints and the geography of devices are left out, and so is the audit log of the admin.
-/

namespace BankDemo.Identity

open Crypto

/-! ## Devices -/

/-- `findKnown`. -/
def findKnown (userId : Uuid) (fingerprint : String) (db : Db) : Option (Uuid × Device) :=
  db.devices.findRow fun d => d.userId = userId ∧ d.fingerprint = fingerprint

/-- `device.update`. -/
def updateDevice (id : Uuid) (f : Device → Device) : Tx Unit := fun db =>
  match db.devices.lookup id with
  | none => .error .recordNotFound
  | some d => .ok ((), { db with devices := db.devices.insert id (f d) })

/-- `device.create`: the id, and the fingerprint of the user, are unique. -/
def createDevice (id : Uuid) (row : Device) : Tx Unit := fun db =>
  if (db.devices.lookup id).isSome then .error .uniqueViolation
  else if (findKnown row.userId row.fingerprint db).isSome then .error .uniqueViolation
  else if (db.users.lookup row.userId).isNone then .error .foreignKey
  else .ok ((), { db with devices := db.devices.insert id row })

/-- `upsertOnLogin`: the device of the fingerprint, or a new one. -/
def upsertOnLogin (userId : Uuid) (fingerprint : String) (newId : Uuid) : Handler Uuid := do
  match ← query (findKnown userId fingerprint) with
  | some (id, _) =>
    transaction (updateDevice id fun d => { d with revokedAt := none })
    return id
  | none =>
    transaction (createDevice newId ⟨userId, fingerprint, false, none⟩)
    return newId

/-- `markTrusted`. -/
def markTrusted (deviceId : Uuid) : Handler Unit :=
  transaction (updateDevice deviceId fun d => { d with trusted := true })

/-! ## Password and code -/

/-- The random values that a sign-in draws. -/
structure SignInDraws where
  deviceId : Uuid
  challenge : ChallengeDraws
  mfaJti : Uuid
  session : Draws
  deriving DecidableEq

/-- Where a sign-in has got to. -/
inductive LoginOutcome
  | session (issued : IssueSessionResult)
  | mfa (mfaToken : Token)
  deriving DecidableEq

section

variable (env : Env) (now : Instant)

/-- `login`. -/
def login (email password fingerprint : String) (d : SignInDraws) : Handler LoginOutcome := do
  match ← query fun db => db.users.findRow fun u => env.sameEmail u.email (JsString.trim email) with
  | none => throw (.unauthorized "Invalid credentials")
  | some (userId, user) =>
    if user.status ≠ .active then throw (.forbidden "Account not active")
    else if ¬ env.argonVerify user.passwordHash password then
      throw (.unauthorized "Invalid credentials")
    else
      let known ← query (findKnown userId fingerprint)
      if known.any fun k => k.2.trusted && k.2.revokedAt.isNone then
        let deviceId ← upsertOnLogin userId fingerprint d.deviceId
        let issued ← issueSession env now d.session ⟨userId, deviceId, user.role⟩
        return .session issued
      else
        let challengeId ← createEmailChallenge env now d.challenge userId
        return .mfa (signMfa env.ttl now d.mfaJti userId challengeId)

/-- `mfaVerify`. -/
def mfaVerify (mfaToken : Text) (code fingerprint : String) (d : SignInDraws) :
    Handler IssueSessionResult := do
  match verifyMfa now mfaToken with
  | none => throw (.unauthorized "Invalid or expired MFA token")
  | some claims =>
    verifyCode env now claims.cid code
    match claims.sub with
    | none => throw .validation
    | some sub =>
      match ← query fun db => db.users.lookup sub with
      | none => throw (.unauthorized "User no longer exists")
      | some user =>
        let deviceId ← upsertOnLogin sub fingerprint d.deviceId
        markTrusted deviceId
        issueSession env now d.session ⟨sub, deviceId, user.role⟩

/-- `mfaResend`: a fresh token for the same challenge. -/
def mfaResend (mfaToken : Text) (code : String) (salt : ℕ) (jti : Uuid) : Handler Token := do
  match verifyMfa now mfaToken with
  | none => throw (.unauthorized "Invalid or expired MFA token")
  | some claims =>
    match claims.sub with
    | none => throw .validation
    | some sub =>
      match ← query fun db => db.users.lookup sub with
      | none => throw (.unauthorized "User no longer exists")
      | some _ =>
        resendCode env now claims.cid code salt
        return sign now env.ttl.mfa { sub := claims.sub, cid := claims.cid, jti }

/-! ## Passkeys -/

/-- `PASSWORDLESS_CHALLENGE_TTL_MS`. -/
def passwordlessChallengeTtlMs : ℤ := 5 * 60 * 1000

/-- `beginAuthentication`, as far as it is remembered: expired ceremonies go, a new one comes. -/
def beginAuthentication (handle : Uuid) (challenge : String) : Handler Unit :=
  .modify (fun _ => true) fun w =>
    let live := w.pendingAuth.deleteMany fun _ p => p.expiresAt < now
    { w with pendingAuth := live.insert handle ⟨challenge, now + passwordlessChallengeTtlMs⟩ }

/-- The ceremony of a handle, which is over with this. -/
def takePending (handle : Uuid) : Handler (Option PendingAuth) :=
  .act (fun _ => true) (fun w => { w with pendingAuth := w.pendingAuth.erase handle })
    fun w => .ret (w.pendingAuth.lookup handle)

/-- `biometricEnrollment.update`. -/
def updateEnrollment (credentialId : String) (signCount : ℕ) : Tx Unit := fun db =>
  match db.biometricEnrollments.lookup credentialId with
  | none => .error .recordNotFound
  | some e => .ok ((), { db with
      biometricEnrollments := db.biometricEnrollments.insert credentialId { e with signCount } })

/-- `finishAuthentication`: whose passkey it is. -/
def finishAuthentication (handle : Uuid) (credentialId assertion : String) : Handler Uuid := do
  match ← takePending handle with
  | none => throw (.badRequest "No pending biometric challenge")
  | some pending =>
    if pending.expiresAt < now then throw (.badRequest "Biometric challenge expired")
    else if credentialId = "" then throw (.badRequest "Malformed biometric assertion")
    else
      match ← query fun db => db.biometricEnrollments.lookup credentialId with
      | none => throw (.unauthorized "Unknown biometric credential")
      | some enrollment =>
        if enrollment.disabledAt.isSome then
          throw (.unauthorized "Biometric is disabled for this account")
        else
          match env.verifyAssertion pending.challenge credentialId enrollment.signCount
              assertion with
          | none => throw (.unauthorized "Biometric verification failed")
          | some newCounter =>
            transaction (updateEnrollment credentialId newCounter)
            return enrollment.userId

/-- `BiometricAuthController.finish`. -/
def biometricFinish (handle : Uuid) (credentialId assertion fingerprint : String)
    (d : SignInDraws) : Handler IssueSessionResult := do
  let userId ← finishAuthentication env now handle credentialId assertion
  match ← query fun db => db.users.lookup userId with
  | none => throw (.unauthorized "Account not available")
  | some user =>
    if user.status ≠ .active then throw (.unauthorized "Account not available")
    else
      let deviceId ← upsertOnLogin userId fingerprint d.deviceId
      markTrusted deviceId
      issueSession env now d.session ⟨userId, deviceId, user.role⟩

/-! ## The status of a user -/

/-- `user.update` with a status. -/
def updateStatus (id : Uuid) (status : UserStatus) : Tx Unit := fun db =>
  match db.users.lookup id with
  | none => .error .recordNotFound
  | some u => .ok ((), { db with users := db.users.insert id { u with status } })

/-- `AdminUsersService.setStatus`: freeze a user, or make it active again. -/
def setStatus (actorUserId targetUserId : Uuid) (freeze : Bool) : Handler Bool := do
  let nextStatus : UserStatus := if freeze then .frozen else .active
  if actorUserId = targetUserId ∧ freeze then
    throw (.badRequest "Cannot freeze your own account")
  else
    match ← query fun db => db.users.lookup targetUserId with
    | none => throw (.notFound "User not found")
    | some target =>
      if target.status = nextStatus then return true
      else
        transaction (updateStatus targetUserId nextStatus)
        if freeze then
          let _ ← revokeAllForUser now targetUserId .adminRevoke
        return false

end

end BankDemo.Identity
