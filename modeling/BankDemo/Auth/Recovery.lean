import BankDemo.Foundations.JsString
import BankDemo.Store

/-!
# Password recovery

`RecoveryController.request`, the first step of a recovery: a code is issued to the user of an e-mail
address, if there is one, and the codes that are still open for it are superseded. The code goes out
by e-mail, which is left out: a request comes with the code that was drawn.
-/

namespace BankDemo.Recovery

/-- What the controller reads of the configuration, and the functions of other packages it uses. -/
structure Env where
  ttlSec : ℤ
  toLowerCase : String → String
  hashEmail : String → String
  /-- `argon2.hash` under a salt. -/
  argonHash : ℕ → String → String

/-- A call of `request`, with the values it draws and the instant it runs at. -/
structure RequestCall where
  email : String
  id : Uuid
  code : String
  salt : ℕ
  now : Instant

/-- The challenge is of this user and address, and still open. -/
def isOpen (userId : Uuid) (emailHash : String) (c : PasswordResetChallenge) : Bool :=
  c.userId = userId && c.emailHash = emailHash && c.consumedAt.isNone && c.supersededAt.isNone

/-- `supersedeOpenChallenges`. -/
def supersedeOpenChallenges (now : Instant) (userId : Uuid) (emailHash : String) : Tx Unit :=
  fun db => .ok ((), { db with
    passwordResets := db.passwordResets.updateMany (fun _ => isOpen userId emailHash) fun c =>
      { c with supersededAt := some now } })

/-- `passwordResetChallenge.create`. -/
def createChallenge (id : Uuid) (row : PasswordResetChallenge) : Tx Unit := fun db =>
  if (db.passwordResets.lookup id).isSome then .error .uniqueViolation
  else if (db.users.lookup row.userId).isNone then .error .foreignKey
  else .ok ((), { db with passwordResets := db.passwordResets.insert id row })

/-- `RecoveryController.request`. -/
def request (env : Env) (me : ℕ) (c : RequestCall) : Service Unit := do
  let email := env.toLowerCase (JsString.trim c.email)
  let user ← query fun db => db.users.findRow fun u => u.email = email
  match user with
  | none => return
  | some (userId, _) =>
    let emailHash := env.hashEmail email
    transaction me [] (supersedeOpenChallenges c.now userId emailHash)
    transaction me [] (createChallenge c.id
      { userId, emailHash
        codeHash := env.argonHash c.salt c.code
        expiresAt := c.now + env.ttlSec * 1000
        attempts := 0
        consumedAt := none
        supersededAt := none })

/-- A request is about the password resets only. -/
theorem request_ensures (env : Env) (me : ℕ) (c : RequestCall) (w : World) :
    (request env me c).Ensures w fun _ w' =>
      ∃ passwordResets, w' = { w with db := { w.db with passwordResets } } := by
  unfold request
  refine ensures_query ?_
  cases w.db.users.findRow fun u => u.email = env.toLowerCase (JsString.trim c.email) with
  | none => exact Prog.ensures_pure ⟨w.db.passwordResets, rfl⟩
  | some user =>
    refine Prog.ensures_bind (ensures_transaction (fun _ db hdb => ?_) fun _ _ =>
      ⟨w.db.passwordResets, rfl⟩)
    cases hdb
    refine ensures_transaction (fun _ db hdb => ?_) fun _ _ => ⟨_, rfl⟩
    unfold createChallenge at hdb
    split at hdb
    · cases hdb
    · split at hdb
      · cases hdb
      · cases hdb
        exact ⟨_, rfl⟩

end BankDemo.Recovery
