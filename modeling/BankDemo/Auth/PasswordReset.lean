import BankDemo.Auth.Recovery
import BankDemo.Sessions.Service

/-!
# Password recovery, step by step

`RecoveryController` over the sessions of the users: `request` issues a code, `verify` consumes a code and
signs a recovery token, and `reset` takes such a token and sets a password. The challenges are kept with
the time of their creation here, which `verify` goes by; nothing is kept of a token. The e-mail that takes
a code to its user is left out.

`Date.now()` is read when it is called, from a clock of the state.
-/

namespace BankDemo.PasswordReset

open Crypto

/-- A challenge, as the table has it. -/
structure Challenge extends PasswordResetChallenge where
  createdAt : Instant
  deriving DecidableEq

/-- A challenge that was neither consumed nor superseded. -/
def Challenge.isOpen (c : Challenge) : Bool := c.consumedAt.isNone && c.supersededAt.isNone

/-- What the services of sign-in share, the challenges and the clock. -/
structure Desk where
  realm : Identity.Realm
  challenges : Table Uuid Challenge
  now : Instant

/-- The realm of a desk. -/
def Desk.realmPart : Prog.Part Desk Identity.Realm where
  get s := s.realm
  put realm s := { s with realm }
  get_put _ _ := rfl
  put_get _ := rfl
  put_put _ _ _ := rfl

/-- What the controller reads of the configuration, and the functions of other packages it uses. -/
structure Env extends Recovery.Env where
  maxAttempts : ℕ
  argonVerify : String → String → Bool
  ttl : TokenTtl

/-- A request handler of the controller. -/
abbrev Handler (α : Type) := Prog Desk Error α

section

variable (env : Env)

/-- The address that a typed one stands for. -/
def address (email : String) : String := env.toLowerCase (JsString.trim email)

/-! ## Statements -/

/-- `user.findUnique`, by the address typed. -/
def Desk.found (s : Desk) (email : String) : Option (Uuid × Identity.User) :=
  s.realm.db.users.findRow fun u => u.email = address env email

/-- `supersedeOpenChallenges`. -/
def Desk.superseded (s : Desk) (userId : Uuid) (emailHash : String) : Desk :=
  let mine := fun (_ : Uuid) (c : Challenge) =>
    c.userId = userId && c.emailHash = emailHash && c.isOpen
  { s with challenges := s.challenges.updateMany mine fun c => { c with supersededAt := some s.now } }

/-- The row of a new challenge. -/
def Desk.newChallenge (s : Desk) (userId : Uuid) (email code : String) (salt : ℕ) : Challenge where
  userId
  emailHash := env.hashEmail (address env email)
  codeHash := env.argonHash salt code
  expiresAt := s.now + env.ttlSec * 1000
  attempts := 0
  consumedAt := none
  supersededAt := none
  createdAt := s.now

/-- `passwordResetChallenge.create`. -/
def Desk.created (s : Desk) (id : Uuid) (row : Challenge) : Except Error Desk :=
  if (s.challenges.lookup id).isSome then .error .uniqueViolation
  else if (s.realm.db.users.lookup row.userId).isNone then .error .foreignKey
  else .ok { s with challenges := s.challenges.insert id row }

/-- `passwordResetChallenge.findFirst`: the newest open challenge for the address typed. -/
def Desk.newest (s : Desk) (email : String) : Option (Uuid × Challenge) :=
  s.challenges.latest (fun c => c.emailHash = env.hashEmail (address env email) && c.isOpen)
    Challenge.createdAt

/-- `passwordResetChallenge.update`. -/
def Desk.updated (s : Desk) (id : Uuid) (f : Challenge → Challenge) : Except Error Desk :=
  match s.challenges.lookup id with
  | none => .error .recordNotFound
  | some c => .ok { s with challenges := s.challenges.insert id (f c) }

/-- `user.update`, of the password. -/
def Desk.withPassword (s : Desk) (userId : Uuid) (passwordHash : String) : Except Error Desk :=
  match s.realm.db.users.lookup userId with
  | none => .error .recordNotFound
  | some user =>
    let users := s.realm.db.users.insert userId { user with passwordHash }
    .ok { s with realm := { s.realm with db := { s.realm.db with users } } }

/-- A statement on the desk. -/
def statement {α : Type} (f : Desk → Except Error Desk) (a : Desk → α) : Handler α :=
  .attempt (fun _ => true) fun s => (f s).map fun s' => (a s, s')

/-! ## The controller -/

/-- `RecoveryController.request`. -/
def request (email : String) (id : Uuid) (code : String) (salt : ℕ) : Handler Unit := do
  let user ← Prog.read fun s => s.found env email
  match user with
  | none => return
  | some (userId, _) => do
    Prog.modify (fun _ => true) fun s => s.superseded userId (env.hashEmail (address env email))
    statement (fun s => s.created id (s.newChallenge env userId email code salt)) fun _ => ()

/-- The users and the challenges of the desk are those of the store that the other services share, which
keeps no time of creation. -/
structure SameRows (w : World) (s : Desk) : Prop where
  found : ∀ email, (w.db.users.findRow fun u => u.email = email).map Prod.fst =
    (s.realm.db.users.findRow fun u => u.email = email).map Prod.fst
  users : ∀ id, (w.db.users.lookup id).isNone = (s.realm.db.users.lookup id).isNone
  challenges : ∀ id, w.db.passwordResets.lookup id =
    (s.challenges.lookup id).map Challenge.toPasswordResetChallenge

theorem SameRows.superseded {w : World} {s : Desk} (h : SameRows w s) (me : ℕ) (userId : Uuid)
    (emailHash : String) : ∃ w',
    (transaction me [] (Recovery.supersedeOpenChallenges s.now userId emailHash)).run w =
        (.ok (), w') ∧ SameRows w' (s.superseded userId emailHash) := by
  refine ⟨_, Prog.run_attempt .., h.found, h.users, fun id => ?_⟩
  simp only [Desk.superseded, Table.lookup_updateMany, h.challenges id, Option.map_map]
  refine Option.map_congr fun c _ => ?_
  have hopen : Recovery.isOpen userId emailHash c.toPasswordResetChallenge =
      (c.userId = userId && c.emailHash = emailHash && c.isOpen) := by
    simp only [Recovery.isOpen, Challenge.isOpen, Bool.and_assoc]
  simp only [Function.comp_apply, hopen]
  split <;> rfl

theorem SameRows.created {w : World} {s : Desk} (h : SameRows w s) (me : ℕ) (id : Uuid)
    (row : Desk → Challenge) :
    let r := (transaction me [] (Recovery.createChallenge id (row s).toPasswordResetChallenge)).run w
    let r' := (statement (fun s => s.created id (row s)) fun _ => ()).run s
    r.1 = r'.1 ∧ SameRows r.2 r'.2 := by
  have hid : (w.db.passwordResets.lookup id).isSome = (s.challenges.lookup id).isSome := by
    rw [h.challenges id, Option.isSome_map]
  have huser := h.users (row s).userId
  simp only [transaction, statement, Prog.run_attempt, Recovery.createChallenge, Desk.created, hid,
    huser]
  split_ifs with htaken hnone
  · exact ⟨rfl, h⟩
  · exact ⟨rfl, h⟩
  · refine ⟨rfl, h.found, h.users, fun id' => ?_⟩
    simp only [Table.lookup_insert_ite, Except.map]
    split
    · rfl
    · exact h.challenges id'

/-- `request` does on the store that the services share what it does on the desk. -/
theorem request_agrees (me : ℕ) (email : String) (id : Uuid) (code : String) (salt : ℕ) {w : World}
    {s : Desk} (h : SameRows w s) :
    let r := (Recovery.request env.toEnv me ⟨email, id, code, salt, s.now⟩).run w
    let r' := (request env email id code salt).run s
    r.1 = r'.1 ∧ SameRows r.2 r'.2 := by
  have hfound := h.found (address env email)
  rw [Recovery.request, request, Prog.run_bind, Prog.run_bind, BankDemo.query, Prog.run_read,
    Prog.run_read]
  simp only [Desk.found]
  rw [show env.toLowerCase (JsString.trim email) = address env email from rfl]
  rcases hrow : s.realm.db.users.findRow fun u => u.email = address env email with _ | ⟨userId, user⟩
  · rw [hrow, Option.map_none, Option.map_eq_none_iff] at hfound
    rw [hfound]
    exact ⟨rfl, h⟩
  · rw [hrow, Option.map_some, Option.map_eq_some_iff] at hfound
    obtain ⟨⟨userId, user'⟩, hrow', rfl⟩ := hfound
    obtain ⟨w', hw', hrows⟩ := h.superseded me userId (env.hashEmail (address env email))
    rw [hrow']
    simp only [Prog.run_bind, hw', Prog.run_modify]
    exact hrows.created me id fun s => s.newChallenge env userId email code salt

/-- `RecoveryController.verify`: the token for `reset`. -/
def verify (email code : String) (jti : Uuid) : Handler Token := do
  let (found, now) ← Prog.read fun s => (s.newest env email, s.now)
  match found with
  | none => throw (.unauthorized "Invalid or expired code")
  | some (id, challenge) =>
    if challenge.expiresAt < now then throw (.unauthorized "Invalid or expired code")
    else if env.maxAttempts ≤ challenge.attempts then throw (.unauthorized "Invalid or expired code")
    else if env.argonVerify challenge.codeHash code then
      statement (fun s => s.updated id fun c => { c with consumedAt := some s.now })
        fun s => signRecovery env.ttl s.now jti challenge.userId
    else do
      statement (fun s => s.updated id fun c => { c with attempts := c.attempts + 1 }) fun _ => ()
      throw (.unauthorized "Invalid or expired code")

/-- The session that `reset` spares when it revokes those of the user: there is none. -/
def nilUuid : Uuid := 0

/-- `RecoveryController.reset`. -/
def reset (token : Text) (newPassword : String) (salt : ℕ) : Handler Unit := do
  let (claims, users) ← Prog.read fun s => (verifyRecovery s.now token, s.realm.db.users)
  match claims with
  | none => throw (.unauthorized "Invalid or expired token")
  | some claims =>
    match claims.sub with
    | none => throw .validation
    | some userId =>
      if (users.lookup userId).isNone then throw (.unauthorized "Invalid token")
      else if JsString.length newPassword < 8 then
        throw (.badRequest "Password must be at least 8 characters")
      else do
        statement (fun s => s.withPassword userId (env.argonHash salt newPassword)) fun _ => ()
        let now ← Prog.read Desk.now
        let _ ← (Identity.revokeAllOther now userId nilUuid .passwordChanged).zoom Desk.realmPart
        return

end

/-! ## Calls -/

/-- The calls of the controller, and the passing of time. -/
inductive Call
  | request (email : String) (id : Uuid) (code : String) (salt : ℕ)
  | verify (email code : String) (jti : Uuid)
  | reset (token : Text) (newPassword : String) (salt : ℕ)
  | wait (ms : ℕ)
  deriving DecidableEq

inductive Answer
  | done
  | token (token : Token)
  deriving DecidableEq

/-- Time passes. -/
def Desk.later (s : Desk) (ms : ℕ) : Desk := { s with now := s.now + ms }

/-- The handler of a call. -/
def handle (env : Env) : Call → Handler Answer
  | .request email id code salt => do
    request env email id code salt
    return .done
  | .verify email code jti => do
    let token ← verify env email code jti
    return .token token
  | .reset token newPassword salt => do
    reset env token newPassword salt
    return .done
  | .wait ms => do
    Prog.modify (fun _ => true) fun s => s.later ms
    return .done

end BankDemo.PasswordReset
