import BankDemo.Auth.Calls

/-!
# Devices and their fingerprints

The controllers of sign-in compute the fingerprint of a device from the request. `AuthController.login`
takes the time zone and the canvas hash from the body, and the user agent and the language from the
headers; `mfaVerify` takes all that it takes from the headers, and no canvas hash. A challenge keeps the
fingerprint that `login` has computed in a column of its own, `pendingDeviceFingerprint`.

The services are those of `Auth/Service.lean`, on a realm with that column. The addresses of clients,
which take no part in a fingerprint, are left out, and so is the column of challenges for an elevation.
-/

namespace BankDemo.Devices

open Crypto Identity

/-! ## Fingerprints -/

/-- The headers of a request that tell of its client. -/
structure Client where
  userAgent : Option String
  acceptLanguage : Option String
  xTimezone : Option String
  deriving DecidableEq

structure LoginDto where
  email : String
  password : String
  timezone : Option String
  canvasHash : Option String
  deriving DecidableEq

structure LoginRequestContext where
  userAgent : String
  acceptLanguage : String
  timezone : Option String
  canvasHash : Option String
  deriving DecidableEq

/-- `readClientCtx`. -/
def readClientCtx (client : Client) : LoginRequestContext where
  userAgent := client.userAgent.getD ""
  acceptLanguage := client.acceptLanguage.getD ""
  timezone := some (client.xTimezone.getD "")
  canvasHash := none

/-- The context of `AuthController.login`. -/
def loginCtx (client : Client) (dto : LoginDto) : LoginRequestContext :=
  { readClientCtx client with
    timezone := some (dto.timezone.getD "")
    canvasHash := dto.canvasHash }

structure FingerprintInput where
  userAgent : String
  acceptLanguage : String
  timezone : String
  canvasHash : Option String

/-- The text that is digested. -/
def FingerprintInput.text (input : FingerprintInput) : String :=
  input.userAgent ++ "|" ++ input.acceptLanguage ++ "|" ++ input.timezone ++ "|" ++
    input.canvasHash.getD ""

/-- `computeFingerprint`. -/
def computeFingerprint (env : Env) (input : FingerprintInput) : String :=
  env.sha256 (.other input.text)

/-- `DevicesService.fingerprint`, for the context of a request. -/
def fingerprint (env : Env) (ctx : LoginRequestContext) : String :=
  computeFingerprint env
    ⟨ctx.userAgent, ctx.acceptLanguage, ctx.timezone.getD "", ctx.canvasHash⟩

/-! ## The store -/

/-- The realm, and the fingerprint that each challenge keeps. -/
structure Lobby where
  realm : Realm
  pendingDeviceFingerprint : Table Uuid String

/-- The realm of a lobby. -/
def Lobby.realmPart : Prog.Part Lobby Realm where
  get s := s.realm
  put realm s := { s with realm }
  get_put _ _ := rfl
  put_get _ := rfl
  put_put _ _ _ := rfl

def Lobby.devices (s : Lobby) : Table Uuid Device := s.realm.db.devices

/-- A request handler over the lobby. -/
abbrev Handler (α : Type) := Prog Lobby Error α

/-- A handler that leaves the column alone. -/
def onRealm {α : Type} (p : Identity.Handler α) : Handler α := p.zoom Lobby.realmPart

/-! ## Signing in -/

section

variable (env : Env) (now : Instant)

/-- `createEmailChallenge`: the row, with the fingerprint. -/
def createEmailChallenge (d : ChallengeDraws) (userId : Uuid) (fingerprint : String) :
    Handler Uuid :=
  .attempt (fun _ => true) fun s =>
    match createChallengeTx d.id (challengeRow env now d userId) s.realm.db with
    | .error e => .error e
    | .ok r => .ok (d.id, {
        realm := { s.realm with db := r.2 }
        pendingDeviceFingerprint := s.pendingDeviceFingerprint.insert d.id fingerprint })

/-- `AuthService.login`, up to the challenge: the session of a device that is trusted, or the user to
challenge. -/
def recognize (email password fingerprint : String) (d : SignInDraws) :
    Identity.Handler (IssueSessionResult ⊕ Uuid) := do
  let found ← Identity.query fun db =>
    db.users.findRow fun u => env.sameEmail u.email (JsString.trim email)
  match found with
  | none => throw (.unauthorized "Invalid credentials")
  | some (userId, user) =>
    if user.status ≠ .active then throw (.forbidden "Account not active")
    else if ¬ env.argonVerify user.passwordHash password then
      throw (.unauthorized "Invalid credentials")
    else
      let known ← Identity.query (findKnown userId fingerprint)
      if known.any fun k => k.2.trusted && k.2.revokedAt.isNone then
        let deviceId ← upsertOnLogin userId fingerprint d.deviceId
        let issued ← issueSession env now d.session ⟨userId, deviceId, user.role⟩
        return .inl issued
      else return .inr userId

/-- `AuthController.login`. -/
def login (client : Client) (dto : LoginDto) (d : SignInDraws) : Handler LoginOutcome := do
  let fp := fingerprint env (loginCtx client dto)
  match ← onRealm (recognize env now dto.email dto.password fp d) with
  | .inl issued => return .session issued
  | .inr userId =>
    let challengeId ← createEmailChallenge env now d.challenge userId fp
    return .mfa (signMfa env.ttl now d.mfaJti userId challengeId)

/-- With the challenge of `Mfa/Service.lean`, this is the `login` of `Auth/Service.lean`. -/
theorem login_eq (email password fingerprint : String) (d : SignInDraws) :
    Identity.login env now email password fingerprint d =
      (recognize env now email password fingerprint d >>= fun found => match found with
        | .inl issued => pure (.session issued)
        | .inr userId => Identity.createEmailChallenge env now d.challenge userId >>=
            fun challengeId => pure (.mfa (signMfa env.ttl now d.mfaJti userId challengeId))) := by
  unfold Identity.login recognize
  simp only [bind_assoc]
  congr 1
  funext found
  cases found with
  | none => rfl
  | some found =>
    dsimp only
    split
    · rfl
    · split
      · rfl
      · simp only [bind_assoc]
        congr 1
        funext known
        split
        · simp only [bind_assoc, pure_bind]
        · simp only [pure_bind]

/-- `AuthController.mfaVerify`. -/
def mfaVerify (client : Client) (mfaToken : Text) (code : String) (d : SignInDraws) :
    Handler IssueSessionResult :=
  onRealm (Identity.mfaVerify env now mfaToken code (fingerprint env (readClientCtx client)) d)

/-- `BiometricAuthController.finish`. -/
def biometricFinish (client : Client) (handle : Uuid) (credentialId assertion : String)
    (d : SignInDraws) : Handler IssueSessionResult :=
  onRealm (Identity.biometricFinish env now handle credentialId assertion
    (fingerprint env (readClientCtx client)) d)

end

/-! ## Calls -/

/-- The requests with a client whose device matters, the other requests of sign-in, and the calls that
read and write sessions, among them the reset of a user's login history, which deletes the devices. -/
inductive Call
  | login (now : Instant) (client : Client) (dto : LoginDto) (d : SignInDraws)
  | mfaVerify (now : Instant) (client : Client) (mfaToken : Text) (code : String) (d : SignInDraws)
  | biometricFinish (now : Instant) (client : Client) (handle : Uuid)
      (credentialId assertion : String) (d : SignInDraws)
  | request (c : Request)
  | session (c : Identity.Call)
  deriving DecidableEq

/-- The other requests are those that make no session from a fingerprint. -/
def Call.Admissible : Call → Prop
  | .request c => c.issues = none
  | _ => True

/-- What a call is answered with. -/
inductive Answer
  | outcome (o : LoginOutcome)
  | signedIn (issued : IssueSessionResult)
  | done
  deriving DecidableEq

/-- The program of a call. -/
def handle (env : Env) : Call → Handler Answer
  | .login now client dto d => do
    let o ← login env now client dto d
    return .outcome o
  | .mfaVerify now client mfaToken code d => do
    let issued ← mfaVerify env now client mfaToken code d
    return .signedIn issued
  | .biometricFinish now client handle credentialId assertion d => do
    let issued ← biometricFinish env now client handle credentialId assertion d
    return .signedIn issued
  | .request c => do
    let _ ← onRealm (respond env c)
    return .done
  | .session c => do
    let _ ← onRealm (Identity.handle env c)
    return .done

/-- The fingerprint that a call computes. -/
def Call.fingerprint (env : Env) : Call → Option String
  | .login _ client dto _ => some (Devices.fingerprint env (loginCtx client dto))
  | .mfaVerify _ client _ _ _ | .biometricFinish _ client _ _ _ _ =>
    some (Devices.fingerprint env (readClientCtx client))
  | _ => none

/-- The id that a call draws for a device. -/
def Call.deviceId : Call → Option Uuid
  | .login _ _ _ d | .mfaVerify _ _ _ _ d | .biometricFinish _ _ _ _ _ d => some d.deviceId
  | _ => none

/-- The id that a call draws for a challenge. -/
def Call.challengeId : Call → Option Uuid
  | .login _ _ _ d => some d.challenge.id
  | _ => none

end BankDemo.Devices
