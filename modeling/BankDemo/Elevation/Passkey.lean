import BankDemo.Biometric.Rules

/-!
# Elevation by passkey

`BiometricElevationController`: a signed-in user answers a challenge with a passkey and gets an
elevation token for transfers. The challenge is one of `beginAuthentication`, as in sign-in with a
passkey, and both doors take their challenges from the one map of `BiometricService`. The sign-in is
the call `finishAuthentication` of the service here; what it does with the user is in
`Auth/Service.lean`.
-/

namespace BankDemo.BiometricElevation

open Biometric

variable (env : Env)

def begin (now : Instant) (handle : Uuid) (challenge : String) : Handler Unit :=
  beginAuthentication now handle challenge

/-- `verify`, for the user `sub` of the access token. -/
def verify (ttl : Crypto.TokenTtl) (now : Instant) (sub handle : Uuid) (response : Response)
    (requestOrigin : Option String) (jti : Uuid) : Handler Crypto.Token := do
  let (userId, _) ← finishAuthentication env now handle response requestOrigin
  if userId ≠ sub then
    throw (.forbidden "Biometric credential belongs to a different account")
  else
    return Crypto.signElevation ttl now jti sub .transferAuthorize

/-! ## Calls -/

inductive Call
  | service (c : Biometric.Call)
  | begin (now : Instant) (handle : Uuid) (challenge : String)
  | verify (now : Instant) (sub handle : Uuid) (response : Response)
      (requestOrigin : Option String) (jti : Uuid)
  deriving DecidableEq

inductive Answer
  | service (a : Biometric.Answer)
  | begun
  | elevated (token : Crypto.Token)
  deriving DecidableEq

def handle (ttl : Crypto.TokenTtl) : Call → Handler Answer
  | .service c => do
    let a ← Biometric.handle env c
    return .service a
  | .begin now handle challenge => do
    begin now handle challenge
    return .begun
  | .verify now sub handle response requestOrigin jti => do
    let token ← verify env ttl now sub handle response requestOrigin jti
    return .elevated token

end BankDemo.BiometricElevation
