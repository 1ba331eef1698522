import BankDemo.Identity.Store

/-!
# Sessions

`SessionsService`, the admin's revocation of a session and the access strategy that every
authenticated request goes through. A session is issued with a refresh token of which it keeps the
hash; rotating the token replaces the hash and leaves the old one in the audit, so that a token
presented a second time is recognised and its family revoked.

The transactions come with what they did to the database (`issueTx_ok`, `rotateTx_ok`, `purgeTx_ok`);
revocations and the access strategy are the `Upkeep` of the session table. The rules for the handlers
are in `Sessions/Rules.lean`.
-/

namespace BankDemo.Identity

open Crypto

/-! ## Idle sessions -/

/-- `TOUCH_INTERVAL_MS`. -/
def touchIntervalMs : ℤ := 60000

/-- No activity for `idleMs` or longer. -/
def isIdle (lastSeenAt : Instant) (idleMs : ℤ) (now : Instant) : Bool :=
  idleMs ≤ now - lastSeenAt

/-- A throttled write of `lastSeenAt` is due. -/
def shouldTouch (lastSeenAt now : Instant) : Bool := touchIntervalMs ≤ now - lastSeenAt

/-! ## Statements -/

/-- The columns that a revocation sets. -/
def revoke (now : Instant) (reason : SessionRevokedReason) (s : Session) : Session :=
  { s with revokedAt := some now, revokedReason := some reason }

/-- The unrevoked sessions with a property. -/
def unrevoked (p : Uuid → Session → Bool) (sessions : Table Uuid Session) :
    List (Uuid × Session) :=
  (sessions.entries.filter fun e => p e.1 e.2 && e.2.revokedAt.isNone).map fun e => (e.1, e.2)

/-- `session.updateMany`: the unrevoked sessions with a property are revoked. -/
def revokeMany (p : Uuid → Session → Bool) (now : Instant) (reason : SessionRevokedReason)
    (db : Db) : Db :=
  { db with sessions :=
      db.sessions.updateMany (fun k s => p k s && s.revokedAt.isNone) (revoke now reason) }

/-- `session.create`: the id, the access token and the hash are unique, and the user and the device
are there. -/
def createSession (id : Uuid) (row : Session) : Tx Unit := fun db =>
  if (db.sessions.lookup id).isSome then .error .uniqueViolation
  else if (db.sessions.findRow fun s => s.accessTokenJti = row.accessTokenJti ∨
      s.refreshTokenHash = row.refreshTokenHash).isSome then .error .uniqueViolation
  else if (db.users.lookup row.userId).isNone then .error .foreignKey
  else if (db.devices.lookup row.deviceId).isNone then .error .foreignKey
  else .ok ((), { db with sessions := db.sessions.insert id row })

/-- `session.update` on columns that are not unique. -/
def updateSession (id : Uuid) (f : Session → Session) : Tx Unit := fun db =>
  match db.sessions.lookup id with
  | none => .error .recordNotFound
  | some s => .ok ((), { db with sessions := db.sessions.insert id (f s) })

/-- `session.update` with new tokens. -/
def updateTokens (id accessTokenJti : Uuid) (refreshTokenHash : String) : Tx Session := fun db =>
  match db.sessions.lookup id with
  | none => .error .recordNotFound
  | some s =>
    if (Table.findRow (db.sessions.erase id) fun s => s.accessTokenJti = accessTokenJti ∨
        s.refreshTokenHash = refreshTokenHash).isSome then .error .uniqueViolation
    else
      let updated := { s with accessTokenJti, refreshTokenHash }
      .ok (updated, { db with sessions := db.sessions.insert id updated })

/-- `refreshTokenAudit.create`: the hash is unique. -/
def createAudit (tokenHash : String) (row : RefreshTokenAudit) : Tx Unit := fun db =>
  if (db.refreshTokenAudits.lookup tokenHash).isSome then .error .uniqueViolation
  else .ok ((), { db with refreshTokenAudits := db.refreshTokenAudits.insert tokenHash row })

/-! ## Revocations -/

/-- `emitRevoked`: the gateway tells the sockets of the session. -/
def emitRevoked (userId sessionId : Uuid) (reason : SessionRevokedReason) : Handler Unit :=
  emit (Realm.toRoom (.session (some sessionId)) (.sessionRevoked userId sessionId reason))

/-- Find the unrevoked sessions with a property, revoke them and tell their sockets. -/
def revokeWhere (p : Uuid → Session → Bool) (now : Instant) (reason : SessionRevokedReason) :
    Handler (List Uuid) := do
  let found ← query fun db => unrevoked p db.sessions
  if found.isEmpty then return []
  transaction fun db => .ok ((), revokeMany p now reason db)
  found.forM fun s => emitRevoked s.2.userId s.1 reason
  return found.map Prod.fst

/-- `revokeAllForUser`. -/
def revokeAllForUser (now : Instant) (userId : Uuid) (reason : SessionRevokedReason) :
    Handler (List Uuid) :=
  revokeWhere (fun _ s => s.userId = userId) now reason

/-- `revokeFamily`. -/
def revokeFamily (now : Instant) (familyId : Uuid) (reason : SessionRevokedReason) :
    Handler (List Uuid) :=
  revokeWhere (fun _ s => s.refreshTokenFamilyId = familyId) now reason

/-- `revokeAllOther`. -/
def revokeAllOther (now : Instant) (userId currentSessionId : Uuid)
    (reason : SessionRevokedReason) : Handler (List Uuid) :=
  revokeWhere (fun id s => s.userId = userId ∧ id ≠ currentSessionId) now reason

/-- `revokeOne`. -/
def revokeOne (now : Instant) (sessionId actingUserId : Uuid) (reason : SessionRevokedReason) :
    Handler Unit := do
  match ← query fun db => db.sessions.lookup sessionId with
  | none => throw (.notFound "Session not found")
  | some s =>
    if s.userId ≠ actingUserId then throw (.forbidden "Not your session")
    else if s.revokedAt.isSome then return ()
    else
      transaction (updateSession sessionId (revoke now reason))
      emitRevoked s.userId sessionId reason

/-- `AdminSessionsService.revoke`: whether the session was revoked already. -/
def adminRevoke (now : Instant) (sessionId : Uuid) : Handler Bool := do
  match ← query fun db => db.sessions.lookup sessionId with
  | none => throw (.notFound "Session not found")
  | some s =>
    if s.revokedAt.isSome then return true
    else
      transaction (updateSession sessionId (revoke now .adminRevoke))
      emitRevoked s.userId sessionId .adminRevoke
      return false

/-- What `purgeForUser` deletes: the audit of the families, and the user's sessions and devices. -/
def purgeTx (userId : Uuid) (familyIds : List Uuid) : Tx (ℕ × ℕ) := fun db =>
  let sessions := db.sessions.deleteMany fun _ s => s.userId = userId
  if (sessions.entries.any fun e =>
      ((db.devices.lookup e.2.deviceId).map Device.userId) = some userId) then .error .foreignKey
  else .ok ((db.sessions.count fun _ s => s.userId = userId,
      db.devices.count fun _ d => d.userId = userId),
    { db with
      refreshTokenAudits := db.refreshTokenAudits.deleteMany fun _ a => a.familyId ∈ familyIds
      sessions
      devices := db.devices.deleteMany fun _ d => d.userId = userId })

/-- `purgeForUser`: how many sessions were logged out, and how many sessions and devices deleted. -/
def purgeForUser (now : Instant) (userId : Uuid) : Handler (ℕ × ℕ × ℕ) := do
  let active ← query fun db =>
    unrevoked (fun _ s => s.userId = userId ∧ now < s.expiresAt) db.sessions
  active.forM fun s => emitRevoked userId s.1 .adminRevoke
  let familyIds ← query fun db =>
    ((db.sessions.entries.filter fun e => e.2.userId = userId).map
      fun e => e.2.refreshTokenFamilyId).dedup
  let (sessionsDeleted, devicesDeleted) ← transaction (purgeTx userId familyIds)
  return (active.length, sessionsDeleted, devicesDeleted)

/-! ## Issuing and rotating -/

/-- The random identifiers that `issueSession` draws. -/
structure Draws where
  sessionId : Uuid
  familyId : Uuid
  accessJti : Uuid
  refreshJti : Uuid
  deriving DecidableEq

structure IssueSessionInput where
  userId : Uuid
  deviceId : Uuid
  role : UserRole
  deriving DecidableEq

structure IssueSessionResult where
  sessionId : Uuid
  session : Session
  accessToken : Token
  refreshToken : Token
  revokedIds : List Uuid
  deriving DecidableEq

section Issue

variable (env : Env) (now : Instant)

/-- The refresh token of a new session. -/
def issuedRefresh (ids : Draws) (userId : Uuid) : Token :=
  signRefresh env.ttl now ids.refreshJti userId ids.sessionId ids.familyId

/-- The row of a new session. -/
def issuedRow (ids : Draws) (input : IssueSessionInput) : Session where
  userId := input.userId
  deviceId := input.deviceId
  accessTokenJti := ids.accessJti
  refreshTokenHash := env.sha256 (.signed (issuedRefresh env now ids input.userId))
  refreshTokenFamilyId := ids.familyId
  expiresAt := now + env.refreshTtlMs
  lastSeenAt := now
  revokedAt := none
  revokedReason := none

/-- The sessions of a user other than the one just made. -/
def otherThan (userId sessionId : Uuid) (id : Uuid) (s : Session) : Bool :=
  s.userId = userId ∧ id ≠ sessionId

/-- The transaction of `issueSession`: make the session and revoke the others. -/
def issueTx (ids : Draws) (input : IssueSessionInput) : Tx (List Uuid) := do
  createSession ids.sessionId (issuedRow env now ids input)
  let others ← fun db => .ok (unrevoked (otherThan input.userId ids.sessionId) db.sessions, db)
  unless others.isEmpty do
    fun db => .ok ((), revokeMany (otherThan input.userId ids.sessionId) now .newerLogin db)
  return others.map Prod.fst

/-- `issueSession`. -/
def issueSession (ids : Draws) (input : IssueSessionInput) : Handler IssueSessionResult := do
  let revokedIds ← transaction (issueTx env now ids input)
  revokedIds.forM fun sid => emitRevoked input.userId sid .newerLogin
  return {
    sessionId := ids.sessionId
    session := issuedRow env now ids input
    accessToken := signAccess env.ttl now ids.accessJti input.userId ids.sessionId input.role
    refreshToken := issuedRefresh env now ids input.userId
    revokedIds }

/-- The refresh token that a rotation puts in the place of the one presented. -/
def rotatedRefresh (refreshJti sid : Uuid) (s : Session) : Token :=
  signRefresh env.ttl now refreshJti s.userId sid s.refreshTokenFamilyId

/-- The transaction of `rotateRefresh`: the presented hash goes to the audit, the new one to the
session. -/
def rotateTx (accessJti refreshJti : Uuid) (presentedHash : String) (sid : Uuid) (s : Session) :
    Tx Session := do
  createAudit presentedHash ⟨s.refreshTokenFamilyId, sid⟩
  updateTokens sid accessJti (env.sha256 (.signed (rotatedRefresh env now refreshJti sid s)))

/-- A token that no session is waiting for: its family is revoked. -/
def rejectRefresh {α : Type} (claims : Claims) : Handler α := do
  if let some fam := claims.fam then
    let _ ← revokeFamily now fam .reuseDetected
  throw (.forbidden "Refresh token no longer valid")

/-- `rotateRefresh`. -/
def rotateRefresh (accessJti refreshJti : Uuid) (presented : Text) :
    Handler IssueSessionResult := do
  match verifyRefresh now presented with
  | none => throw (.forbidden "Invalid refresh token")
  | some claims =>
    let presentedHash := env.sha256 presented
    match ← query fun db => db.refreshTokenAudits.lookup presentedHash with
    | some replay =>
      let _ ← revokeFamily now replay.familyId .reuseDetected
      throw (.forbidden "Refresh reuse detected; session revoked")
    | none =>
      let session ← query fun db =>
        (db.sessions.findRow fun s => s.refreshTokenHash = presentedHash).map fun s =>
          (s, (db.users.lookup s.2.userId).map User.role)
      match session with
      | none => rejectRefresh now claims
      | some ((sid, s), role) =>
        if s.revokedAt.isSome then rejectRefresh now claims
        else if isIdle s.lastSeenAt env.idleMs now then
          transaction (updateSession sid (revoke now .idleTimeout))
          throw (.forbidden "Session timed out")
        else
          let updated ← transaction (rotateTx env now accessJti refreshJti presentedHash sid s)
          return {
            sessionId := sid
            session := updated
            accessToken := signAccess env.ttl now accessJti s.userId sid role
            refreshToken := rotatedRefresh env now refreshJti sid s
            revokedIds := [] }

/-! ## The access strategy -/

/-- Who a request is from. -/
structure Principal where
  sub : Option Uuid
  sid : Option Uuid
  role : Option UserRole
  deriving DecidableEq

/-- `JwtAccessStrategy`: the signature and the expiry of the token, then `validate`. -/
def validate (text : Text) : Handler Principal := do
  match verifyAccess now text with
  | none => throw (.unauthorized "Unauthorized")
  | some payload =>
    match payload.sid with
    | none => throw .validation
    | some sid =>
      match ← query fun db => db.sessions.lookup sid with
      | none => throw (.unauthorized "Session no longer active")
      | some s =>
        if s.revokedAt.isSome then throw (.unauthorized "Session no longer active")
        else if s.expiresAt ≤ now then throw (.unauthorized "Session expired")
        else if isIdle s.lastSeenAt env.idleMs now then
          transaction (updateSession sid (revoke now .idleTimeout))
          throw (.unauthorized "Session timed out")
        else
          if shouldTouch s.lastSeenAt now then
            transaction (updateSession sid fun s => { s with lastSeenAt := now })
          return ⟨payload.sub, payload.sid, payload.role⟩

end Issue

/-! ## What the statements do -/

theorem mem_unrevoked {p : Uuid → Session → Bool} {sessions : Table Uuid Session} {id : Uuid}
    {s : Session} : (id, s) ∈ unrevoked p sessions ↔
      sessions.lookup id = some s ∧ p id s = true ∧ s.revokedAt = none := by
  rw [← Table.mem_entries_iff]
  simp only [unrevoked, List.mem_map, List.mem_filter, Bool.and_eq_true, Option.isNone_iff_eq_none,
    Prod.mk.injEq]
  constructor
  · rintro ⟨⟨id', s'⟩, ⟨hmem, hp, hs⟩, rfl, rfl⟩
    exact ⟨hmem, hp, hs⟩
  · rintro ⟨hmem, hp, hs⟩
    exact ⟨⟨id, s⟩, ⟨hmem, hp, hs⟩, rfl, rfl⟩

theorem lookup_revokeMany (p : Uuid → Session → Bool) (now : Instant)
    (reason : SessionRevokedReason) (db : Db) (id : Uuid) :
    (revokeMany p now reason db).sessions.lookup id = (db.sessions.lookup id).map fun s =>
      if p id s && s.revokedAt.isNone then revoke now reason s else s :=
  Table.lookup_updateMany _ _ _ _

/-- Without a session to revoke, nothing changes. -/
theorem revokeMany_of_empty {p : Uuid → Session → Bool} {now : Instant}
    {reason : SessionRevokedReason} {db : Db} (h : unrevoked p db.sessions = []) :
    revokeMany p now reason db = db := by
  have hsame : db.sessions.updateMany (fun k s => p k s && s.revokedAt.isNone)
      (revoke now reason) = db.sessions := by
    refine AList.ext ?_
    refine (List.map_congr_left fun e he => ?_).trans (List.map_id _)
    have hp : (p e.1 e.2 && e.2.revokedAt.isNone) = false := by
      by_contra hp
      have hmem : (e.1, e.2) ∈ unrevoked p db.sessions :=
        List.mem_map.2 ⟨e, List.mem_filter.2 ⟨he, by simpa using hp⟩, rfl⟩
      rw [h] at hmem
      cases hmem
    simp [hp]
  unfold revokeMany
  rw [hsame]

theorem createSession_ok {id : Uuid} {row : Session} {db : Db} {r : Unit × Db}
    (h : createSession id row db = .ok r) : db.sessions.lookup id = none ∧
      (∀ k s, db.sessions.lookup k = some s → s.refreshTokenHash ≠ row.refreshTokenHash) ∧
      (db.users.lookup row.userId).isSome ∧
      r.2 = { db with sessions := db.sessions.insert id row } := by
  unfold createSession at h
  split at h
  · cases h
  · rename_i hid
    split at h
    · cases h
    · rename_i hunique
      split at h
      · cases h
      · rename_i huser
        split at h
        · cases h
        · cases h
          refine ⟨by simpa using hid, fun k s hs heq => ?_, ?_, rfl⟩
          · have hfalse := Table.findRow_none (by simpa using hunique) hs
            simp [heq] at hfalse
          · cases hlookup : db.users.lookup row.userId with
            | none => simp [hlookup] at huser
            | some u => rfl

theorem updateSession_ok {id : Uuid} {f : Session → Session} {db : Db} {r : Unit × Db}
    (h : updateSession id f db = .ok r) : ∃ s, db.sessions.lookup id = some s ∧
      r.2 = { db with sessions := db.sessions.insert id (f s) } := by
  unfold updateSession at h
  split at h
  · cases h
  · rename_i s hs
    cases h
    exact ⟨s, hs, rfl⟩

/-- The database after `issueSession`. -/
def issuedDb (env : Env) (now : Instant) (ids : Draws) (input : IssueSessionInput) (db : Db) : Db :=
  revokeMany (otherThan input.userId ids.sessionId) now .newerLogin
    { db with sessions := db.sessions.insert ids.sessionId (issuedRow env now ids input) }

/-- The transaction of `issueSession`, its session once made. -/
theorem issueTx_eq {env : Env} {now : Instant} {ids : Draws} {input : IssueSessionInput}
    {db : Db} (h : createSession ids.sessionId (issuedRow env now ids input) db =
      .ok ((), { db with
        sessions := db.sessions.insert ids.sessionId (issuedRow env now ids input) })) :
    issueTx env now ids input db =
      .ok ((unrevoked (otherThan input.userId ids.sessionId)
        (db.sessions.insert ids.sessionId (issuedRow env now ids input))).map Prod.fst,
        issuedDb env now ids input db) := by
  simp only [issueTx, Bind.bind, StateT.bind, Except.bind, h]
  split
  · rename_i hempty
    unfold issuedDb
    rw [revokeMany_of_empty (List.isEmpty_iff.1 hempty)]
    rfl
  · rfl

theorem issueTx_ok {env : Env} {now : Instant} {ids : Draws} {input : IssueSessionInput} {db : Db}
    {r : List Uuid × Db} (h : issueTx env now ids input db = .ok r) :
    db.sessions.lookup ids.sessionId = none ∧ (db.users.lookup input.userId).isSome ∧
      r.2 = issuedDb env now ids input db := by
  obtain ⟨⟨⟩, db₁, hcreate, -⟩ := Prog.body_bind_ok.1 h
  obtain ⟨hfresh, -, huser, hdb₁⟩ := createSession_ok hcreate
  simp only at hdb₁
  subst hdb₁
  rw [issueTx_eq hcreate] at h
  cases h
  exact ⟨hfresh, huser, rfl⟩

/-- The row of a session after a rotation. -/
def rotatedRow (env : Env) (now : Instant) (accessJti refreshJti sid : Uuid) (read s : Session) :
    Session :=
  { s with
    accessTokenJti := accessJti
    refreshTokenHash := env.sha256 (.signed (rotatedRefresh env now refreshJti sid read)) }

/-- The database after a rotation: `read` is the session as the lookup found it, `s` as the
transaction finds it. -/
def rotatedDb (env : Env) (now : Instant) (accessJti refreshJti : Uuid) (presentedHash : String)
    (sid : Uuid) (read s : Session) (db : Db) : Db :=
  { db with
    refreshTokenAudits :=
      db.refreshTokenAudits.insert presentedHash ⟨read.refreshTokenFamilyId, sid⟩
    sessions := db.sessions.insert sid (rotatedRow env now accessJti refreshJti sid read s) }

theorem rotateTx_ok {env : Env} {now : Instant} {accessJti refreshJti : Uuid}
    {presentedHash : String} {sid : Uuid} {read : Session} {db : Db} {r : Session × Db}
    (h : rotateTx env now accessJti refreshJti presentedHash sid read db = .ok r) :
    db.refreshTokenAudits.lookup presentedHash = none ∧ ∃ s, db.sessions.lookup sid = some s ∧
      r.1 = rotatedRow env now accessJti refreshJti sid read s ∧
      r.2 = rotatedDb env now accessJti refreshJti presentedHash sid read s db := by
  obtain ⟨_, db₁, haudit, h⟩ := Prog.body_bind_ok.1 h
  unfold createAudit at haudit
  split at haudit
  · cases haudit
  · rename_i hnone
    cases haudit
    refine ⟨by simpa using hnone, ?_⟩
    unfold updateTokens at h
    split at h
    · cases h
    · rename_i s hs
      split at h
      · cases h
      · cases h
        exact ⟨s, hs, rfl, rfl⟩

theorem purgeTx_ok {userId : Uuid} {familyIds : List Uuid} {db : Db} {r : (ℕ × ℕ) × Db}
    (h : purgeTx userId familyIds db = .ok r) : r.2 = { db with
      refreshTokenAudits := db.refreshTokenAudits.deleteMany fun _ a => a.familyId ∈ familyIds
      sessions := db.sessions.deleteMany fun _ s => s.userId = userId
      devices := db.devices.deleteMany fun _ d => d.userId = userId } := by
  unfold purgeTx at h
  dsimp only at h
  split at h
  · cases h
  · cases h
    rfl

/-! ## Upkeep

What revocations and the access strategy do to the database. -/

/-- Sessions are revoked, or one is touched. -/
inductive Upkeep : Db → Db → Prop
  | revokeMany (p : Uuid → Session → Bool) (now : Instant) (reason : SessionRevokedReason)
      (db : Db) : Upkeep db (revokeMany p now reason db)
  | revoke {db : Db} {id : Uuid} {s : Session} (now : Instant) (reason : SessionRevokedReason)
      (hs : db.sessions.lookup id = some s) :
      Upkeep db { db with sessions := db.sessions.insert id (revoke now reason s) }
  | touch {db : Db} {id : Uuid} {s : Session} (now : Instant)
      (hs : db.sessions.lookup id = some s) :
      Upkeep db { db with sessions := db.sessions.insert id { s with lastSeenAt := now } }

/-- A session after upkeep: not less revoked, and otherwise the same but for its last activity. -/
structure Kept (s s' : Session) : Prop where
  userId : s'.userId = s.userId
  refreshTokenHash : s'.refreshTokenHash = s.refreshTokenHash
  refreshTokenFamilyId : s'.refreshTokenFamilyId = s.refreshTokenFamilyId
  revoked : s.revokedAt.isSome → s'.revokedAt.isSome

theorem kept_refl (s : Session) : Kept s s := ⟨rfl, rfl, rfl, id⟩

theorem Kept.trans {s s' s'' : Session} (h : Kept s s') (h' : Kept s' s'') : Kept s s'' :=
  ⟨h'.userId.trans h.userId, h'.refreshTokenHash.trans h.refreshTokenHash,
    h'.refreshTokenFamilyId.trans h.refreshTokenFamilyId, fun hs => h'.revoked (h.revoked hs)⟩

theorem kept_revoke (now : Instant) (reason : SessionRevokedReason) (s : Session) :
    Kept s (revoke now reason s) := ⟨rfl, rfl, rfl, fun _ => rfl⟩

/-- The sessions after upkeep. -/
theorem Upkeep.sessions {db db' : Db} (h : Upkeep db db') (id : Uuid) :
    match db.sessions.lookup id with
    | none => db'.sessions.lookup id = none
    | some s => ∃ s', db'.sessions.lookup id = some s' ∧ Kept s s' := by
  have hinsert : ∀ {db : Db} {id' : Uuid} {s₀ s₁ : Session}, db.sessions.lookup id' = some s₀ →
      Kept s₀ s₁ → match db.sessions.lookup id with
        | none => (db.sessions.insert id' s₁).lookup id = none
        | some s => ∃ s', (db.sessions.insert id' s₁).lookup id = some s' ∧ Kept s s' := by
    intro db id' s₀ s₁ hs₀ hkept
    rw [Table.lookup_insert_ite]
    by_cases hid : id = id'
    · subst hid
      rw [if_pos rfl, hs₀]
      exact ⟨s₁, rfl, hkept⟩
    · rw [if_neg hid]
      cases db.sessions.lookup id with
      | none => rfl
      | some s => exact ⟨s, rfl, kept_refl s⟩
  cases h with
  | revokeMany p now reason =>
    rw [lookup_revokeMany]
    cases db.sessions.lookup id with
    | none => rfl
    | some s =>
      refine ⟨_, rfl, ?_⟩
      dsimp only
      split
      · exact kept_revoke now reason s
      · exact kept_refl s
  | revoke now reason hs => exact hinsert hs (kept_revoke now reason _)
  | touch now hs => exact hinsert hs ⟨rfl, rfl, rfl, fun h => h⟩

theorem Upkeep.frame {db db' : Db} (h : Upkeep db db') :
    db'.users = db.users ∧ db'.refreshTokenAudits = db.refreshTokenAudits ∧
      db'.devices = db.devices ∧ db'.mfaChallenges = db.mfaChallenges := by
  cases h <;> exact ⟨rfl, rfl, rfl, rfl⟩

end BankDemo.Identity
