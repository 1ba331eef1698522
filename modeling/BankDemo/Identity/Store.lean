import BankDemo.Crypto.Jwt
import BankDemo.Foundations.Interleave

/-!
# Who is signed in: the store

The services of sign-in share tables of their own (users with their status, sessions, the audit of
rotated refresh tokens, devices, challenges, passkeys), the sockets of the realtime gateway and the
passkey ceremonies under way. `Realm` is all of these. As in `Store.lean`, a handler is a program
whose queries, statements and transactions are single actions; events are delivered to the sockets
as they are emitted.
-/

namespace BankDemo.Identity

open Crypto

/-! ## Rows -/

inductive UserStatus
  | active | frozen | closed
  deriving DecidableEq

inductive SessionRevokedReason
  | userSignout | newerLogin | passwordChanged | adminRevoke | reuseDetected | idleTimeout
  deriving DecidableEq

/-- A user, as far as signing in is concerned. -/
structure User where
  email : String
  phoneE164 : Option String
  passwordHash : String
  role : UserRole
  status : UserStatus
  deriving DecidableEq

structure Session where
  userId : Uuid
  deviceId : Uuid
  accessTokenJti : Uuid
  refreshTokenHash : String
  refreshTokenFamilyId : Uuid
  expiresAt : Instant
  lastSeenAt : Instant
  revokedAt : Option Instant
  revokedReason : Option SessionRevokedReason
  deriving DecidableEq

/-- A refresh token that was rotated, kept under its unique hash. -/
structure RefreshTokenAudit where
  familyId : Uuid
  sessionId : Uuid
  deriving DecidableEq

structure Device where
  userId : Uuid
  fingerprint : String
  trusted : Bool
  revokedAt : Option Instant
  deriving DecidableEq

structure MfaChallenge where
  userId : Uuid
  codeHash : String
  expiresAt : Instant
  attempts : ℕ
  consumedAt : Option Instant
  deriving DecidableEq

/-- A passkey, kept under its unique credential id. -/
structure BiometricEnrollment where
  userId : Uuid
  signCount : ℕ
  disabledAt : Option Instant
  deriving DecidableEq

structure Db where
  users : Table Uuid User
  sessions : Table Uuid Session
  refreshTokenAudits : Table String RefreshTokenAudit
  devices : Table Uuid Device
  mfaChallenges : Table Uuid MfaChallenge
  biometricEnrollments : Table String BiometricEnrollment

/-- The status of a user. -/
def Db.userStatus (db : Db) (userId : Uuid) : Option UserStatus :=
  (db.users.lookup userId).map User.status

/-! ## Sockets -/

/-- The rooms of the gateway. A socket whose token lacks a claim is in the room of `undefined`. -/
inductive Room
  | user (sub : Option Uuid)
  | session (sid : Option Uuid)
  | supportAdmins
  | supportGuest (tid : Option Uuid)
  deriving DecidableEq

/-- What the gateway keeps of a socket. -/
structure Socket where
  userId : Option Uuid
  sessionId : Option Uuid
  role : Option UserRole
  guestThreadId : Option Uuid
  rooms : List Room
  deriving DecidableEq

inductive PresenceStatus
  | online | away | offline
  deriving DecidableEq

/-- What the gateway knows of an admin: the status it reported and its sockets. -/
structure AdminPresence where
  status : PresenceStatus
  sockets : List Uuid
  deriving DecidableEq

/-- What is sent to sockets. An event of another service is known by its name. -/
inductive Message
  | sessionRevoked (userId sessionId : Uuid) (reason : SessionRevokedReason)
  | presenceChanged (status : PresenceStatus)
  | event (name : String)
  deriving DecidableEq

/-- A message that reached a socket, and the room it was addressed to (none for a broadcast). -/
structure Delivery where
  socketId : Uuid
  room : Option Room
  message : Message
  deriving DecidableEq

/-- A passkey ceremony under way. -/
structure PendingAuth where
  challenge : String
  expiresAt : Instant
  deriving DecidableEq

/-- What the services of sign-in share. -/
structure Realm where
  db : Db
  pendingAuth : Table Uuid PendingAuth
  sockets : Table Uuid Socket
  adminPresence : Table Uuid AdminPresence
  delivered : List Delivery

/-- The sockets in a room. -/
def Realm.inRoom (w : Realm) (room : Room) : List Uuid :=
  (w.sockets.entries.filter fun s => room ∈ s.2.rooms).map Sigma.fst

/-- `server.to(room).emit(...)`. -/
def Realm.toRoom (room : Room) (message : Message) (w : Realm) : Realm :=
  let deliveries := (w.inRoom room).map fun s => ⟨s, some room, message⟩
  { w with delivered := w.delivered ++ deliveries }

/-- `server.emit(...)`: to every socket. -/
def Realm.toAll (message : Message) (w : Realm) : Realm :=
  let deliveries := w.sockets.keys.map fun s => ⟨s, none, message⟩
  { w with delivered := w.delivered ++ deliveries }

/-! ## Handlers -/

/-- What the services read of the configuration, and the functions of other packages they use. -/
structure Env where
  ttl : TokenTtl
  refreshTtlMs : ℤ
  idleMs : ℤ
  mfaTtlMs : ℤ
  mfaMaxAttempts : ℕ
  /-- The digest of a text. -/
  sha256 : Text → String
  /-- `argon2.hash` under a salt. -/
  argonHash : ℕ → String → String
  argonVerify : String → String → Bool
  /-- `verifyAuthenticationResponse`: the new counter, for an assertion that answers the challenge
  under the credential with the counter. -/
  verifyAssertion : String → String → ℕ → String → Option ℕ
  /-- The database's comparison of e-mail addresses, which ignores case. -/
  sameEmail : String → String → Bool

/-- A request handler over the realm. -/
abbrev Handler (α : Type) := Prog Realm Error α

/-- The body of a transaction. -/
abbrev Tx (α : Type) := StateT Db (Except Error) α

/-- A query outside a transaction. -/
def query {α : Type} (f : Db → α) : Handler α := .read fun w => f w.db

/-- Commit `body`; an error leaves the database as it was. -/
def transaction {α : Type} (body : Tx α) : Handler α :=
  .attempt (fun _ => true) fun w => match body w.db with
    | .ok r => .ok (r.1, { w with db := r.2 })
    | .error e => .error e

/-- Emit an event to the sockets. -/
def emit (f : Realm → Realm) : Handler Unit := .modify (fun _ => true) f

theorem run_query {α : Type} (f : Db → α) (w : Realm) : (query f).run w = (.ok (f w.db), w) := rfl

theorem run_transaction {α : Type} (body : Tx α) (w : Realm) :
    (transaction body).run w = match body w.db with
      | .ok r => (.ok r.1, { w with db := r.2 })
      | .error e => (.error e, w) := by
  unfold transaction
  rw [Prog.run_attempt]
  cases body w.db <;> rfl

/-! ## Rules -/

section Rules

variable {α β : Type} {G : List (Realm × Realm) → Prop} {own : List (Realm × Realm)}

/-- The guarantee lets a thread leave the database as it is. -/
class Idle (G : List (Realm × Realm) → Prop) : Prop where
  idle : ∀ {w w' : Realm} {own : List (Realm × Realm)}, w'.db = w.db → G ((w, w') :: own)

theorem does_query [Idle G] {f : Db → α} {k : α → Handler β}
    {Q : List (Realm × Realm) → Except Error β → Prop}
    (hk : ∀ w : Realm, (k (f w.db)).Does G Q ((w, w) :: own)) : (query f >>= k).Does G Q own :=
  Prog.does_bind (Prog.does_read fun w => ⟨Idle.idle rfl, hk w⟩)

theorem does_transaction [Idle G] {body : Tx α} {k : α → Handler β}
    {Q : List (Realm × Realm) → Except Error β → Prop}
    (hok : ∀ (w : Realm) r, body w.db = .ok r →
      G ((w, { w with db := r.2 }) :: own) ∧ (k r.1).Does G Q ((w, { w with db := r.2 }) :: own))
    (herr : ∀ (w : Realm) e, body w.db = .error e → Q ((w, w) :: own) (.error e)) :
    (transaction body >>= k).Does G Q own := by
  refine Prog.does_bind (Prog.does_attempt (fun w a w' _ hb => ?_) fun w e _ hb =>
    ⟨Idle.idle rfl, herr w e ?_⟩)
  · cases hbody : body w.db with
    | error e => simp [hbody] at hb
    | ok r =>
      simp only [hbody, Except.ok.injEq, Prod.mk.injEq] at hb
      obtain ⟨rfl, rfl⟩ := hb
      exact hok w r hbody
  · cases hbody : body w.db with
    | error e' =>
      simp only [hbody, Except.error.injEq] at hb
      rw [hb]
    | ok r => simp [hbody] at hb

/-- A handler that leaves the database alone and does not fail. -/
def Mute (p : Handler α) : Prop := p.Each (fun w w' => w'.db = w.db) ∧ p.NeverFails

theorem mute_pure (a : α) : Mute (pure a : Handler α) := ⟨Prog.each_pure a, Prog.neverFails_pure a⟩

theorem mute_emit {f : Realm → Realm} (hf : ∀ w, (f w).db = w.db) : Mute (emit f) :=
  ⟨Prog.each_modify hf, Prog.neverFails_modify⟩

theorem mute_bind {p : Handler α} {k : α → Handler β} (hp : Mute p) (hk : ∀ a, Mute (k a)) :
    Mute (p >>= k) :=
  ⟨Prog.each_bind hp.1 fun a => (hk a).1, Prog.neverFails_bind hp.2 fun a => (hk a).2⟩

theorem mute_forM {f : α → Handler Unit} (hf : ∀ a, Mute (f a)) (l : List α) : Mute (l.forM f) := by
  induction l with
  | nil => exact mute_pure _
  | cons a l ih => exact mute_bind (hf a) fun _ => ih

/-- The steps leave the database as it is. -/
def Still (own : List (Realm × Realm)) : Prop := ∀ x ∈ own, x.2.db = x.1.db

/-- A mute handler, then more: what was done so far is still known. -/
theorem Mute.does_bind [Idle G] {p : Handler α} {k : α → Handler β}
    {Q : List (Realm × Realm) → Except Error β → Prop} (hp : Mute p)
    (hk : ∀ a later, Still later → (k a).Does G Q (later ++ own)) : (p >>= k).Does G Q own := by
  obtain ⟨heach, hnever⟩ := hp
  refine Prog.does_bind ?_
  induction p generalizing own with
  | ret a => exact hk a [] (by simp [Still])
  | fail e => exact hnever.elim
  | act ready eff next ih =>
    intro w _
    refine ⟨Idle.idle (heach w).1, ih w (fun a later hlater => ?_) (heach w).2 (hnever w)⟩
    rw [← List.singleton_append, ← List.append_assoc]
    refine hk a (later ++ [(w, eff w)]) fun x hx => ?_
    rcases List.mem_append.1 hx with hx | hx
    · exact hlater x hx
    · rw [List.mem_singleton.1 hx]
      exact (heach w).1

end Rules

end BankDemo.Identity
