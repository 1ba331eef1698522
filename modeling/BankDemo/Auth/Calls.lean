import BankDemo.Auth.Rules
import BankDemo.Sessions.Calls

/-!
# Runs of sign-in requests

The requests of sign-in and elevation, and what their steps and outcomes can be (`Did`, `Vow`). A
step is idle, upkeep of the sessions, aside of users and sessions, the making of a challenge or of a
session, a rotation, or the setting of a user's status; `respond_does` says so for every request.
-/

namespace BankDemo.Identity

open Crypto

/-- A request, with the instant it runs at and the random values it draws. -/
inductive Request
  | login (now : Instant) (email password fingerprint : String) (d : SignInDraws)
  | mfaVerify (now : Instant) (mfaToken : Text) (code fingerprint : String) (d : SignInDraws)
  | mfaResend (now : Instant) (mfaToken : Text) (code : String) (salt : ℕ) (jti : Uuid)
  | biometricBegin (now : Instant) (handle : Uuid) (challenge : String)
  | biometricFinish (now : Instant) (handle : Uuid) (credentialId assertion fingerprint : String)
      (d : SignInDraws)
  | rotateRefresh (now : Instant) (accessJti refreshJti : Uuid) (presented : Text)
  | setStatus (now : Instant) (actorUserId targetUserId : Uuid) (freeze : Bool)
  | beginChallenge (now : Instant) (userId : Uuid) (scope : ElevationScope) (d : ChallengeDraws)
  | verifyChallenge (now : Instant) (userId challengeId : Uuid) (code : String)
      (scope : ElevationScope) (jti : Uuid)
  deriving DecidableEq

/-- What a request is answered with. -/
inductive Reply
  | session (issued : IssueSessionResult)
  | mfa (mfaToken : Token)
  | pending
  | unchanged (b : Bool)
  | challenge (challengeId : Uuid) (scope : ElevationScope)
  | elevated (elevationToken : Token)
  deriving DecidableEq

/-- The answer to a password. -/
def LoginOutcome.reply : LoginOutcome → Reply
  | .session issued => .session issued
  | .mfa mfaToken => .mfa mfaToken

/-- The program of a request. -/
def respond (env : Env) : Request → Handler Reply
  | .login now email password fingerprint d =>
    login env now email password fingerprint d >>= fun o => pure o.reply
  | .mfaVerify now mfaToken code fingerprint d =>
    mfaVerify env now mfaToken code fingerprint d >>= fun r => pure (.session r)
  | .mfaResend now mfaToken code salt jti =>
    mfaResend env now mfaToken code salt jti >>= fun token => pure (.mfa token)
  | .biometricBegin now handle challenge =>
    beginAuthentication now handle challenge >>= fun _ => pure .pending
  | .biometricFinish now handle credentialId assertion fingerprint d =>
    biometricFinish env now handle credentialId assertion fingerprint d >>= fun r =>
      pure (.session r)
  | .rotateRefresh now accessJti refreshJti presented =>
    rotateRefresh env now accessJti refreshJti presented >>= fun r => pure (.session r)
  | .setStatus now actorUserId targetUserId freeze =>
    setStatus now actorUserId targetUserId freeze >>= fun b => pure (.unchanged b)
  | .beginChallenge now userId scope d =>
    beginChallenge env now userId scope d >>= fun c => pure (.challenge c.1 c.2)
  | .verifyChallenge now userId challengeId code scope jti =>
    verifyChallenge env now userId challengeId code scope jti >>= fun token =>
      pure (.elevated token)

/-- When a request makes a session, and the identifiers it draws for it. -/
def Request.issues : Request → Option (Instant × Draws)
  | .login now _ _ _ d | .mfaVerify now _ _ _ d | .biometricFinish now _ _ _ _ d =>
    some (now, d.session)
  | _ => none

/-- The request looks at the status of the user before it makes a session. -/
def Request.checksStatus : Request → Bool
  | .login _ _ _ _ _ | .biometricFinish _ _ _ _ _ _ => true
  | _ => false

/-- The steps that a request can take: `Did env c own` for the newest of its own steps. -/
inductive Did (env : Env) : Request → List (Realm × Realm) → Prop
  | idle {c : Request} {w w' : Realm} {own : List (Realm × Realm)} (h : w'.db = w.db) :
      Did env c ((w, w') :: own)
  | upkeep {c : Request} {w : Realm} {db : Db} {own : List (Realm × Realm)} (h : Upkeep w.db db) :
      Did env c ((w, { w with db }) :: own)
  | aside {c : Request} {w : Realm} {db : Db} {own : List (Realm × Realm)} (h : Aside w.db db) :
      Did env c ((w, { w with db }) :: own)
  | challenged {now : Instant} {email password fingerprint : String} {d : SignInDraws} {w : Realm}
      {own : List (Realm × Realm)} (userId : Uuid)
      (hfresh : w.db.mfaChallenges.lookup d.challenge.id = none) :
      Did env (.login now email password fingerprint d)
        ((w, w.withChallenge d.challenge.id (challengeRow env now d.challenge userId)) :: own)
  | begun {now : Instant} {userId : Uuid} {scope : ElevationScope} {d : ChallengeDraws} {w : Realm}
      {own : List (Realm × Realm)} (hfresh : w.db.mfaChallenges.lookup d.id = none) :
      Did env (.beginChallenge now userId scope d)
        ((w, w.withChallenge d.id (challengeRow env now d userId)) :: own)
  | issued {c : Request} {now : Instant} {ids : Draws} {input : IssueSessionInput} {w : Realm}
      {own : List (Realm × Realm)} (hc : c.issues = some (now, ids))
      (hchecked : c.checksStatus = true → FoundActive input.userId own)
      (hfresh : w.db.sessions.lookup ids.sessionId = none) :
      Did env c ((w, { w with db := issuedDb env now ids input w.db }) :: own)
  | rotated {now : Instant} {accessJti refreshJti : Uuid} {presented : Text} {w₁ w₂ w₃ : Realm}
      {sid : Uuid} {read s : Session} (hfound : Rotatable env now presented w₁ w₂ sid read)
      (hs : w₃.db.sessions.lookup sid = some s) :
      Did env (.rotateRefresh now accessJti refreshJti presented)
        [(w₃, rotated env now accessJti refreshJti presented sid read s w₃), (w₂, w₂), (w₁, w₁)]
  | status {now : Instant} {actorUserId targetUserId : Uuid} {freeze : Bool} {w : Realm} {u : User}
      {own : List (Realm × Realm)} (hu : w.db.users.lookup targetUserId = some u) :
      Did env (.setStatus now actorUserId targetUserId freeze)
        ((w, w.withStatus targetUserId u (if freeze then .frozen else .active)) :: own)

instance (env : Env) (c : Request) : Admits (Did env c) where
  idle := .idle
  upkeep := .upkeep
  aside := .aside

/-- Where the tokens of a session come from: `Granted env c own r` after the steps `own`. -/
inductive Granted (env : Env) : Request → List (Realm × Realm) → IssueSessionResult → Prop
  | issued {c : Request} {now : Instant} {ids : Draws} {input : IssueSessionInput}
      {r : IssueSessionResult} {w : Realm} {later earlier : List (Realm × Realm)}
      (hc : c.issues = some (now, ids)) (hfresh : w.db.sessions.lookup ids.sessionId = none)
      (hr : Issuance env now ids input r) :
      Granted env c (later ++ (w, { w with db := issuedDb env now ids input w.db }) :: earlier) r
  | rotated {now : Instant} {accessJti refreshJti : Uuid} {presented : Text} {w₁ w₂ w₃ : Realm}
      {sid : Uuid} {read s : Session} {r : IssueSessionResult}
      (hfound : Rotatable env now presented w₁ w₂ sid read)
      (hs : w₃.db.sessions.lookup sid = some s)
      (hr : Renewal env now accessJti refreshJti sid read s r) :
      Granted env (.rotateRefresh now accessJti refreshJti presented)
        [(w₃, rotated env now accessJti refreshJti presented sid read s w₃), (w₂, w₂), (w₁, w₁)] r

/-- Where an elevation token comes from: `Elevated env c own token` after the steps `own`. -/
inductive Elevated (env : Env) : Request → List (Realm × Realm) → Token → Prop
  | verified {now : Instant} {userId challengeId : Uuid} {code : String} {scope : ElevationScope}
      {jti : Uuid} {w₁ w₂ : Realm} {row : MfaChallenge}
      (hfound : (w₁.db.mfaChallenges.lookup challengeId).isSome)
      (hrow : w₂.db.mfaChallenges.lookup challengeId = some row) :
      Elevated env (.verifyChallenge now userId challengeId code scope jti)
        [(w₂, w₂.withChallenge challengeId { row with consumedAt := some now }), (w₁, w₁)]
        (signElevation env.ttl now jti userId scope)

/-- How a request can end after its steps, as far as the tokens it returns are concerned. -/
def Vow (env : Env) (c : Request) (own : List (Realm × Realm)) : Except Error Reply → Prop
  | .ok (.session r) => Granted env c own r
  | .ok (.elevated token) => Elevated env c own token
  | _ => True

/-- The making of a session is a step that a sign-in can take, and leads to an answer as vowed. -/
theorem makesSession_did {env : Env} {c : Request} {now : Instant} {ids : Draws}
    {input : IssueSessionInput} {own : List (Realm × Realm)} (hc : c.issues = some (now, ids))
    (hchecked : c.checksStatus = true → FoundActive input.userId own) :
    MakesSession env now ids input (Did env c)
      (fun r own => (pure (.session r) : Handler Reply).Does (Did env c) (Vow env c) own) own :=
  fun _ hfresh => ⟨.issued hc hchecked hfresh, fun _ _ hr => Granted.issued hc hfresh hr⟩

/-- **What sign-in requests do**, one step at a time, and how they end. -/
theorem respond_does (env : Env) (c : Request) : (respond env c).Does (Did env c) (Vow env c) [] := by
  cases c with
  | login now email password fingerprint d =>
    refine does_login (fun input own' _ hfound => makesSession_did rfl fun _ => hfound)
      (fun userId own' w _ hnone => ⟨.challenged userId hnone, trivial⟩) fun _ _ _ => trivial
  | mfaVerify now mfaToken code fingerprint d =>
    exact does_mfaVerify (fun input own' _ => makesSession_did rfl fun h => by cases h)
      fun _ _ _ => trivial
  | mfaResend now mfaToken code salt jti =>
    exact does_mfaResend admits_altered (fun _ _ _ => trivial) fun _ _ _ => trivial
  | biometricBegin now handle challenge =>
    exact Prog.does_bind (Prog.does_modify fun w _ => ⟨.idle rfl, trivial⟩)
  | biometricFinish now handle credentialId assertion fingerprint d =>
    exact does_biometricFinish
      (fun input own' _ hfound => makesSession_did rfl fun _ => hfound) fun _ _ _ => trivial
  | rotateRefresh now accessJti refreshJti presented =>
    exact does_rotateRefresh (fun w₁ w₂ w₃ sid read s hfound _ hs =>
      ⟨.rotated hfound hs, fun r hr => Granted.rotated hfound hs hr⟩)
      (fun _ _ => trivial) fun _ _ _ _ _ => trivial
  | setStatus now actorUserId targetUserId freeze =>
    exact does_setStatus (fun w u own' hu => .status hu) (fun _ _ _ => trivial)
      fun _ _ _ => trivial
  | beginChallenge now userId scope d =>
    exact does_beginChallenge (fun w₁ w₂ hnone => ⟨.begun hnone, trivial⟩) fun _ _ => trivial
  | verifyChallenge now userId challengeId code scope jti =>
    exact does_verifyChallenge admits_altered
      (fun w₁ w₂ row hfound hrow => Elevated.verified hfound hrow) fun _ _ => trivial

/-! ## Runs -/

/-- The runs of sign-in requests. -/
abbrev SignInRun (env : Env) := Run (fun _ => respond env)

variable {env : Env} {s₀ : Realm} {tr : List (Step Realm Request)}
  {P : Pool Realm Error Reply Request} {ok : Request → Prop}

/-- Every step of a run is one that its request can take. -/
theorem did_of_run (hrun : SignInRun env ok s₀ tr P) {later earlier : List (Step Realm Request)}
    {x : Step Realm Request} (hsplit : tr = later ++ x :: earlier) :
    Did env x.call ((x.pre, x.post) :: own x.tid earlier) :=
  (hrun.does fun _ c _ => respond_does env c).1 later x earlier hsplit

/-- Every thread ends as its request vows. -/
theorem vow_of_run (hrun : SignInRun env ok s₀ tr P) {i : ℕ} {c : Request} {reply : Reply}
    (ht : P.threads[i]? = some ⟨c, .ret reply⟩) : Vow env c (own i tr) (.ok reply) :=
  (hrun.does fun _ c _ => respond_does env c).2 i _ ht

/-- The run of a schedule from the sample realm. -/
def sampleRequests (sched : List (Choice Request)) :
    List (Step Realm Request) × Pool Realm Error Reply Request :=
  exec (fun _ => respond sampleEnv) sampleRealm sched

end BankDemo.Identity
