import BankDemo.Signup.Service

/-!
# Verifying a contact

`VerificationService`: `send` issues a code for the e-mail address or the phone number of a session,
`resend` a new code for the same verification, and `verify` checks a code. A verification keeps its
own copy of the destination and stays open until a code is accepted or `send` replaces it.

Without Twilio, a code for a phone number is sent to the e-mail address of the session instead
(`dispatch`).
-/

namespace BankDemo.Signup

/-- What a call that issues a code draws: the id of a verification, the code, the salt of its hash,
and what the SMS provider answers. -/
structure CodeDraws where
  verificationId : Uuid
  code : String
  salt : ℕ
  sms : Except Error Unit

structure SendResult where
  verificationId : Uuid
  channel : VerificationChannel
  retryAfterMs : ℤ
  deriving DecidableEq

/-- The name of a channel in messages. -/
def VerificationChannel.name : VerificationChannel → String
  | .email => "email"
  | .sms => "sms"

/-- The column of a channel. -/
def SignupSession.contact (session : SignupSession) : VerificationChannel → Option String
  | .email => session.email
  | .sms => session.phoneE164

/-- `getDestination`. -/
def getDestination (session : SignupSession) (channel : VerificationChannel) : Handler String :=
  match session.contact channel with
  | some destination =>
    if destination = "" then
      throw (.badRequest s!"No {channel.name} destination on signup session")
    else pure destination
  | none => throw (.badRequest s!"No {channel.name} destination on signup session")

section

variable (env : Env) (now : Instant)

/-- `retryAfterMs`. -/
def retryAfterMs (row : Verification) : ℤ := max 0 (env.cooldownSec * 1000 - (now - row.createdAt))

/-- `SmsProvider.send`, of Twilio or of the stub. -/
def smsSend (sms : Except Error Unit) (toE164 code : String) : Handler Unit :=
  if env.twilio then do
    handOver ⟨.phone toE164, code⟩
    Prog.lift sms
  else handOver ⟨.email s!"sms-{JsString.digits toE164}@secure-access.site", code⟩

/-- `dispatch`. -/
def dispatch (sms : Except Error Unit) (channel : VerificationChannel) (destination code : String)
    (fallbackEmail : Option String) : Handler Unit :=
  match channel, fallbackEmail with
  | .email, _ => handOver ⟨.email destination, code⟩
  | .sms, some fallback =>
    if ¬ env.twilio ∧ fallback ≠ "" then handOver ⟨.email fallback, code⟩
    else smsSend env sms destination code
  | .sms, none => smsSend env sms destination code

/-- The newest verification of a session that is open. -/
def latestOpen (db : Db) (id : Uuid) : Option (Uuid × Verification) :=
  (db.verifications.entries.filter fun e => e.2.signupSessionId = id && e.2.isOpen).foldl
    (fun best e => match best with
      | some b => if b.2.createdAt < e.2.createdAt then some (e.1, e.2) else some b
      | none => some (e.1, e.2)) none

/-- The row of a new verification. -/
def newVerification (id : Uuid) (channel : VerificationChannel) (destination : String)
    (d : CodeDraws) : Verification where
  signupSessionId := id
  channel
  destination
  codeHash := env.argonHash d.salt d.code
  expiresAt := now + env.ttlSec * 1000
  attempts := 0
  consumedAt := none
  supersededAt := none
  createdAt := now

/-- The code of a new verification. -/
def issueCode (id : Uuid) (session : SignupSession) (channel : VerificationChannel)
    (destination : String) (d : CodeDraws) : Handler SendResult := do
  transaction (createVerification d.verificationId (newVerification env now id channel destination d))
  dispatch env d.sms channel destination d.code session.email
  return ⟨d.verificationId, channel, env.cooldownSec * 1000⟩

/-- The columns of a verification that `send` replaces: consumed if it had expired when it was read,
else superseded. -/
def retired (existing row : Verification) : Verification :=
  if existing.expiresAt < now then { row with consumedAt := some now }
  else { row with supersededAt := some now }

/-- `VerificationService.send`. -/
def send (id : Uuid) (session : SignupSession) (channel : VerificationChannel) (d : CodeDraws) :
    Handler SendResult := do
  let destination ← getDestination session channel
  match ← query fun db => latestOpen db id with
  | some (existingId, existing) =>
    if ¬ existing.expiresAt < now ∧ existing.channel = channel then
      return ⟨existingId, existing.channel, retryAfterMs env now existing⟩
    else
      let _ ← transaction (updateVerification existingId (retired now existing))
      issueCode env now id session channel destination d
  | none => issueCode env now id session channel destination d

/-- The verification with the id, if it is the session's. -/
def ownVerification (id verificationId : Uuid) : Handler Verification := do
  match ← query fun db => db.verifications.lookup verificationId with
  | none => throw (.notFound "Verification not found")
  | some row =>
    if row.signupSessionId ≠ id then throw (.notFound "Verification not found") else return row

/-- The columns of a verification under a new code. -/
def recoded (d : CodeDraws) (row : Verification) : Verification :=
  { row with
    codeHash := env.argonHash d.salt d.code
    expiresAt := now + env.ttlSec * 1000
    attempts := 0
    createdAt := now }

/-- `VerificationService.resend`: the milliseconds until it may be repeated. -/
def resend (id : Uuid) (session : SignupSession) (verificationId : Uuid) (d : CodeDraws) :
    Handler ℤ := do
  let row ← ownVerification id verificationId
  if row.consumedAt.isSome then throw (.badRequest "Verification already consumed")
  else if row.supersededAt.isSome then
    throw (.badRequest "Verification was superseded; request a new one")
  else if now - row.createdAt < env.cooldownSec * 1000 then
    return env.cooldownSec * 1000 - (now - row.createdAt)
  else
    let updated ← transaction (updateVerification verificationId (recoded env now d))
    dispatch env d.sms updated.channel updated.destination d.code session.email
    return env.cooldownSec * 1000

/-- `VerificationService.verify`: the channel of the verification. -/
def verify (id verificationId : Uuid) (code : String) : Handler VerificationChannel := do
  let row ← ownVerification id verificationId
  if row.supersededAt.isSome then throw (.badRequest "SUPERSEDED")
  else if row.consumedAt.isSome then throw (.badRequest "Already used")
  else if row.expiresAt < now then throw (.badRequest "EXPIRED")
  else if env.maxAttempts ≤ row.attempts then throw (.badRequest "Too many attempts")
  else if ¬ env.argonVerify row.codeHash code then
    let _ ← transaction (updateVerification verificationId fun row =>
      { row with attempts := row.attempts + 1 })
    throw (.badRequest "Invalid code")
  else
    let _ ← transaction (updateVerification verificationId fun row =>
      { row with consumedAt := some now })
    return row.channel

end

end BankDemo.Signup
