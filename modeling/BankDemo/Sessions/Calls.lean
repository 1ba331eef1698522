import BankDemo.Sessions.Rules

/-!
# Runs of session calls

The calls that read and write sessions, and what their steps and outcomes can be (`Took`,
`Promise`). A step is idle, upkeep, the making of a session, a rotation or a purge; `handle_does` says
so for every call, and the properties of sessions are derived from it.
-/

namespace BankDemo.Identity

open Crypto

/-- A call, with the instant it runs at and the random identifiers it draws. -/
inductive Call
  | issueSession (now : Instant) (ids : Draws) (input : IssueSessionInput)
  | rotateRefresh (now : Instant) (accessJti refreshJti : Uuid) (presented : Text)
  | revokeAllForUser (now : Instant) (userId : Uuid) (reason : SessionRevokedReason)
  | revokeFamily (now : Instant) (familyId : Uuid) (reason : SessionRevokedReason)
  | revokeOne (now : Instant) (sessionId actingUserId : Uuid) (reason : SessionRevokedReason)
  | revokeAllOther (now : Instant) (userId currentSessionId : Uuid)
      (reason : SessionRevokedReason)
  | purgeForUser (now : Instant) (userId : Uuid)
  | adminRevoke (now : Instant) (sessionId : Uuid)
  | validate (now : Instant) (text : Text)
  deriving DecidableEq

/-- What a call returns. -/
inductive Answer
  | issued (r : IssueSessionResult)
  | revoked (ids : List Uuid)
  | done
  | already (b : Bool)
  | purged (n : ℕ × ℕ × ℕ)
  | principal (p : Principal)
  deriving DecidableEq

/-- The program of a call. -/
def handle (env : Env) : Call → Handler Answer
  | .issueSession now ids input => issueSession env now ids input >>= fun r => pure (.issued r)
  | .rotateRefresh now accessJti refreshJti presented =>
    rotateRefresh env now accessJti refreshJti presented >>= fun r => pure (.issued r)
  | .revokeAllForUser now userId reason =>
    revokeAllForUser now userId reason >>= fun ids => pure (.revoked ids)
  | .revokeFamily now familyId reason =>
    revokeFamily now familyId reason >>= fun ids => pure (.revoked ids)
  | .revokeOne now sessionId actingUserId reason =>
    revokeOne now sessionId actingUserId reason >>= fun _ => pure .done
  | .revokeAllOther now userId currentSessionId reason =>
    revokeAllOther now userId currentSessionId reason >>= fun ids => pure (.revoked ids)
  | .purgeForUser now userId => purgeForUser now userId >>= fun n => pure (.purged n)
  | .adminRevoke now sessionId => adminRevoke now sessionId >>= fun b => pure (.already b)
  | .validate now text => validate env now text >>= fun p => pure (.principal p)

/-- The random identifiers of a call. -/
def Call.draws : Call → List Uuid
  | .issueSession _ ids _ => [ids.sessionId, ids.familyId, ids.accessJti, ids.refreshJti]
  | .rotateRefresh _ accessJti refreshJti _ => [accessJti, refreshJti]
  | _ => []

/-- The steps that a call can take: `Took env c own` for the newest of its own steps. -/
inductive Took (env : Env) : Call → List (Realm × Realm) → Prop
  | idle {c : Call} {w w' : Realm} {own : List (Realm × Realm)} (h : w'.db = w.db) :
      Took env c ((w, w') :: own)
  | upkeep {c : Call} {w : Realm} {db : Db} {own : List (Realm × Realm)} (h : Upkeep w.db db) :
      Took env c ((w, { w with db }) :: own)
  | issued {now : Instant} {ids : Draws} {input : IssueSessionInput} {w : Realm}
      (hfresh : w.db.sessions.lookup ids.sessionId = none) :
      Took env (.issueSession now ids input)
        [(w, { w with db := issuedDb env now ids input w.db })]
  | rotated {now : Instant} {accessJti refreshJti : Uuid} {presented : Text} {w₁ w₂ w₃ : Realm}
      {sid : Uuid} {read s : Session} (hfound : Rotatable env now presented w₁ w₂ sid read)
      (haudit : w₃.db.refreshTokenAudits.lookup (env.sha256 presented) = none)
      (hs : w₃.db.sessions.lookup sid = some s) :
      Took env (.rotateRefresh now accessJti refreshJti presented)
        [(w₃, rotated env now accessJti refreshJti presented sid read s w₃), (w₂, w₂), (w₁, w₁)]
  | purged {now : Instant} {userId : Uuid} {w : Realm} {own : List (Realm × Realm)}
      (familyIds : List Uuid) : Took env (.purgeForUser now userId)
        ((w, { w with db := purgedDb userId familyIds w.db }) :: own)

instance (env : Env) (c : Call) : Keeps (Took env c) where
  idle := .idle
  upkeep := .upkeep

/-- How a call can end after its steps. -/
def Promise (env : Env) : Call → List (Realm × Realm) → Except Error Answer → Prop
  | .issueSession now ids input, own, .ok a => ∃ r w later, a = .issued r ∧
      r.refreshToken = issuedRefresh env now ids input.userId ∧
      own = later ++ [(w, { w with db := issuedDb env now ids input w.db })]
  | .issueSession _ _ _, own, .error _ => ∃ w, own = [(w, w)]
  | .rotateRefresh now accessJti refreshJti presented, own, .ok a =>
    ∃ r w₁ w₂ w₃ sid read s, a = .issued r ∧
      r.refreshToken = rotatedRefresh env now refreshJti sid read ∧
      Rotatable env now presented w₁ w₂ sid read ∧
      w₃.db.refreshTokenAudits.lookup (env.sha256 presented) = none ∧
      own = [(w₃, rotated env now accessJti refreshJti presented sid read s w₃), (w₂, w₂),
        (w₁, w₁)]
  | .rotateRefresh now _ _ presented, own, .error _ =>
    Tended own ∧ (verifyRefresh now presented = none ∨
      ∃ w₁ later, own = later ++ [(w₁, w₁)] ∧ ∀ replay : RefreshTokenAudit,
        w₁.db.refreshTokenAudits.lookup (env.sha256 presented) = some replay →
          Swept (ofFamily replay.familyId) later)
  | .validate now text, own, .ok _ =>
    ∃ w claims sid s later, Valid env now text w claims sid s ∧ own = later ++ [(w, w)]
  | _, _, _ => True

/-- **What session calls do**, one step at a time, and how they end. -/
theorem handle_does (env : Env) (c : Call) : (handle env c).Does (Took env c) (Promise env c) [] := by
  cases c with
  | issueSession now ids input =>
    refine does_issueSession (fun w hfresh _ => ⟨.issued hfresh, fun r later hr => ?_⟩)
      fun w e => ⟨w, rfl⟩
    exact ⟨r, w, later, rfl, hr.refreshToken, rfl⟩
  | rotateRefresh now accessJti refreshJti presented =>
    refine does_rotateRefresh (fun w₁ w₂ w₃ sid read s hfound haudit hs => ?_)
      (fun hnone e => ⟨tended_nil, .inl hnone⟩) fun w₁ later e htended hreplay => ?_
    · refine ⟨.rotated hfound haudit hs, fun r hr => ?_⟩
      exact ⟨r, w₁, w₂, w₃, sid, read, s, rfl, hr.refreshToken, hfound, haudit, rfl⟩
    · refine ⟨fun x hx => ?_, .inr ⟨w₁, later, rfl, hreplay⟩⟩
      rcases List.mem_append.1 hx with hx | hx
      · exact htended x hx
      · rw [List.mem_singleton.1 hx]
        exact .inl rfl
  | revokeAllForUser now userId reason => exact does_revokeWhere fun _ _ _ _ => trivial
  | revokeFamily now familyId reason => exact does_revokeWhere fun _ _ _ _ => trivial
  | revokeOne now sessionId actingUserId reason =>
    exact does_revokeOne (fun _ => trivial) fun _ _ => trivial
  | revokeAllOther now userId currentSessionId reason =>
    exact does_revokeWhere fun _ _ _ _ => trivial
  | purgeForUser now userId =>
    exact does_purgeForUser (fun _ families _ => .purged families) (fun _ _ => trivial)
      fun _ _ => trivial
  | adminRevoke now sessionId => exact does_adminRevoke (fun _ _ => trivial) fun _ _ => trivial
  | validate now text =>
    exact does_validate (fun w claims sid s later hvalid => ⟨w, claims, sid, s, later, hvalid, rfl⟩)
      fun _ _ => trivial

/-! ## One step -/

variable {env : Env} {s₀ : Realm} {tr : List (Step Realm Call)} {P : Pool Realm Error Answer Call}

theorem lookup_issuedDb {now : Instant} {ids : Draws} {input : IssueSessionInput} {db : Db}
    {id : Uuid} {s' : Session} (h : (issuedDb env now ids input db).sessions.lookup id = some s') :
    (id = ids.sessionId ∧ s' = issuedRow env now ids input) ∨
      ∃ s, db.sessions.lookup id = some s ∧ Kept s s' := by
  unfold issuedDb at h
  rw [lookup_revokeMany] at h
  obtain ⟨s, hs, rfl⟩ := Option.map_eq_some_iff.1 h
  dsimp only at hs
  rw [Table.lookup_insert_ite] at hs
  split at hs
  · rename_i hid
    obtain rfl := Option.some.inj hs
    refine .inl ⟨hid, ?_⟩
    rw [if_neg]
    simp [otherThan, hid]
  · refine .inr ⟨s, hs, ?_⟩
    split
    · exact kept_revoke _ _ s
    · exact kept_refl s

/-- Where a session after a step comes from: it was made by the step, rotated by it, or it was there
before and is not less revoked. -/
theorem Took.session {c : Call} {w w' : Realm} {own : List (Realm × Realm)}
    (h : Took env c ((w, w') :: own)) {id : Uuid} {s' : Session}
    (hs' : w'.db.sessions.lookup id = some s') :
    (∃ now ids input, c = .issueSession now ids input ∧ own = [] ∧ id = ids.sessionId ∧
      s' = issuedRow env now ids input ∧ w.db.sessions.lookup id = none) ∨
    (∃ now accessJti refreshJti presented w₁ w₂ read s,
      c = .rotateRefresh now accessJti refreshJti presented ∧ own = [(w₂, w₂), (w₁, w₁)] ∧
      Rotatable env now presented w₁ w₂ id read ∧ w.db.sessions.lookup id = some s ∧
      w.db.refreshTokenAudits.lookup (env.sha256 presented) = none ∧
      w' = Identity.rotated env now accessJti refreshJti presented id read s w ∧
      s' = rotatedRow env now accessJti refreshJti id read s) ∨
    ∃ s, w.db.sessions.lookup id = some s ∧ Kept s s' := by
  cases h with
  | idle hdb =>
    rw [hdb] at hs'
    exact .inr (.inr ⟨s', hs', kept_refl s'⟩)
  | upkeep hup =>
    have hsessions := hup.sessions id
    dsimp only at hs'
    cases hs : w.db.sessions.lookup id with
    | none =>
      rw [hs] at hsessions
      rw [hsessions] at hs'
      cases hs'
    | some s =>
      rw [hs] at hsessions
      obtain ⟨s'', hs'', hkept⟩ := hsessions
      obtain rfl := Option.some.inj (hs'.symm.trans hs'')
      exact .inr (.inr ⟨s, rfl, hkept⟩)
  | @issued now ids input _ hfresh =>
    rcases lookup_issuedDb hs' with ⟨rfl, rfl⟩ | hold
    · exact .inl ⟨now, ids, input, rfl, rfl, rfl, rfl, hfresh⟩
    · exact .inr (.inr hold)
  | @rotated now accessJti refreshJti presented w₁ w₂ _ sid read s hfound haudit hs =>
    simp only [Identity.rotated, rotatedDb] at hs'
    rw [Table.lookup_insert_ite] at hs'
    split at hs'
    · rename_i hid
      subst hid
      obtain rfl := Option.some.inj hs'
      exact .inr (.inl ⟨now, accessJti, refreshJti, presented, w₁, w₂, read, s, rfl, rfl, hfound,
        hs, haudit, rfl, rfl⟩)
    · exact .inr (.inr ⟨s', hs', kept_refl s'⟩)
  | purged familyIds =>
    obtain ⟨hs, -⟩ := Table.lookup_deleteMany.1 hs'
    exact .inr (.inr ⟨s', hs, kept_refl s'⟩)

/-- A session comes into being by `issueSession` only, in its first step. -/
theorem Took.made {c : Call} {w w' : Realm} {own : List (Realm × Realm)}
    (h : Took env c ((w, w') :: own)) {id : Uuid} (hnone : w.db.sessions.lookup id = none)
    {s' : Session} (hs' : w'.db.sessions.lookup id = some s') :
    ∃ now ids input, c = .issueSession now ids input ∧ own = [] ∧ id = ids.sessionId := by
  rcases h.session hs' with ⟨now, ids, input, hc, hown, hid, -⟩ | ⟨_, _, _, _, _, _, _, s, -, -, -,
    hs, -⟩ | ⟨s, hs, -⟩
  · exact ⟨now, ids, input, hc, hown, hid⟩
  · rw [hnone] at hs
    cases hs
  · rw [hnone] at hs
    cases hs

/-! ## Runs -/

/-- The runs of session calls. -/
abbrev SessionRun (env : Env) := Run (fun _ => handle env)

/-- Different calls draw different identifiers, and none that is in use. -/
structure Fresh (s₀ : Realm) (P : Pool Realm Error Answer Call) : Prop where
  disjoint : (P.threads.map fun t => t.call.draws).Pairwise fun l l' => ∀ id ∈ l, id ∉ l'
  unused : ∀ t ∈ P.threads, ∀ id ∈ t.call.draws, s₀.db.sessions.lookup id = none

/-- Every step of a run is one that its call can take. -/
theorem took_of_run {ok : Call → Prop} (hrun : SessionRun env ok s₀ tr P)
    {later earlier : List (Step Realm Call)} {x : Step Realm Call}
    (hsplit : tr = later ++ x :: earlier) :
    Took env x.call ((x.pre, x.post) :: own x.tid earlier) :=
  (hrun.does fun _ c _ => handle_does env c).1 later x earlier hsplit

/-- Every thread ends as its call promises. -/
theorem promise_of_run {ok : Call → Prop} (hrun : SessionRun env ok s₀ tr P) {i : ℕ}
    {t : Thread Realm Error Answer Call} (ht : P.threads[i]? = some t) :
    t.rest.Does (Took env t.call) (Promise env t.call) (own i tr) :=
  (hrun.does fun _ c _ => handle_does env c).2 i t ht

/-- An identifier is drawn by one thread. -/
theorem Fresh.tid_eq (hfresh : Fresh s₀ P) {i j : ℕ} {t t' : Thread Realm Error Answer Call}
    (hi : P.threads[i]? = some t) (hj : P.threads[j]? = some t') {id : Uuid}
    (hid : id ∈ t.call.draws) (hid' : id ∈ t'.call.draws) : i = j :=
  place_eq (List.pairwise_map.1 hfresh.disjoint) hi hj (fun h => h id hid hid')
    fun h => h id hid' hid

/-! ## A sample realm -/

/-- The configuration with the values used when the environment sets none, and simple stand-ins for
the digests and the passkey check. -/
def sampleEnv : Env where
  ttl := .default
  refreshTtlMs := 30 * 24 * 60 * 60 * 1000
  idleMs := 15 * 60 * 1000
  mfaTtlMs := 300 * 1000
  mfaMaxAttempts := 5
  sha256
    | .signed token => "token " ++ toString token.claims.jti
    | .other text => "text " ++ text
  argonHash _ text := "$" ++ text
  argonVerify hash text := hash == "$" ++ text
  verifyAssertion challenge credentialId counter assertion :=
    if assertion == challenge ++ " signed by " ++ credentialId then some (counter + 1) else none
  sameEmail stored email := stored == email

/-- Ann (1), Bob (2) and the admin Eve (3), each with a device they trust. -/
def sampleRealm : Realm where
  db := {
    users := ((∅ : Table Uuid User).insert 1
        ⟨"ann@example.com", some "+15550001", "$ann", .customer, .active⟩ |>.insert 2
        ⟨"bob@example.com", some "+15550002", "$bob", .customer, .active⟩ |>.insert 3
        ⟨"eve@example.com", none, "$eve", .admin, .active⟩)
    sessions := ∅
    refreshTokenAudits := ∅
    devices := ((∅ : Table Uuid Device).insert 11 ⟨1, "phone", true, none⟩ |>.insert 12
        ⟨2, "phone", true, none⟩ |>.insert 13 ⟨3, "laptop", true, none⟩)
    mfaChallenges := ∅
    biometricEnrollments := ∅ }
  pendingAuth := ∅
  sockets := ∅
  adminPresence := ∅
  delivered := []

/-- Ann signs in at the instant 0, with identifiers from `n` on. -/
def sampleIssue (n : ℕ) : Call :=
  .issueSession 0 ⟨n, n + 1, n + 2, n + 3⟩ ⟨1, 11, .customer⟩

/-- Ann's access token of that session. -/
def sampleAccess (n : ℕ) : Text :=
  .signed (signAccess sampleEnv.ttl 0 (n + 2) 1 n (some .customer))

/-- Ann's refresh token of that session. -/
def sampleRefresh (n : ℕ) : Text :=
  .signed (issuedRefresh sampleEnv 0 ⟨n, n + 1, n + 2, n + 3⟩ 1)

end BankDemo.Identity
