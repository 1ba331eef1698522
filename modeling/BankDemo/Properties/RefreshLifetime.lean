import BankDemo.Properties.TokenPurpose

/-!
# How long a session can be refreshed

`validate` checks `expiresAt`, `rotateRefresh` does not: a refresh token is good for its own time from the
last rotation, so a session can be refreshed past its absolute lifetime.

* `refresh_lifetime`: a rotation keeps to the rule of the access strategy exactly where the session is
  unexpired, or where the rotation is refused for another reason. In the runs whose rotations find
  unexpired sessions only, no other sessions get tokens.
-/

namespace BankDemo.Identity

open Crypto

/-! ## One call -/

section OneCall

variable {env : Env} {now : Instant} {accessJti refreshJti : Uuid} {presented : Text} {w : Realm}
  {sid : Uuid} {s : Session}

/-- The token is the current one of the session. -/
def Current (env : Env) (presented : Text) (w : Realm) (sid : Uuid) (s : Session) : Prop :=
  (w.db.sessions.findRow fun s => s.refreshTokenHash = env.sha256 presented) = some (sid, s)

/-- The access strategy accepts the access tokens of the session. -/
def AccessAccepted (env : Env) (now : Instant) (w : Realm) (sid : Uuid) : Prop :=
  ∀ text claims, verifyAccess now text = some claims → claims.sid = some sid →
    ∃ p, ((validate env now text).run w).1 = .ok p

/-- Where the rotation succeeds, the access strategy accepts. -/
def RefreshKeepsRule (env : Env) (now : Instant) (accessJti refreshJti : Uuid) (presented : Text)
    (w : Realm) (sid : Uuid) : Prop :=
  (∃ r, ((rotateRefresh env now accessJti refreshJti presented).run w).1 = .ok r) →
    AccessAccepted env now w sid

/-- An identifier that the rotation draws, or the hash of the token it signs, is another session's. -/
def Collides (env : Env) (now : Instant) (accessJti refreshJti : Uuid) (w : Realm) (sid : Uuid)
    (s : Session) : Prop :=
  (Table.findRow (w.db.sessions.erase sid) fun t => t.accessTokenJti = accessJti ∨
    t.refreshTokenHash = env.sha256 (.signed (rotatedRefresh env now refreshJti sid s))).isSome

/-- The rotation is refused, however long the session lives: the token is not verified or was rotated
before, the session is revoked or idle, or what is drawn is in use. -/
def Refused (env : Env) (now : Instant) (accessJti refreshJti : Uuid) (presented : Text) (w : Realm)
    (sid : Uuid) (s : Session) : Prop :=
  verifyRefresh now presented = none ∨
    (w.db.refreshTokenAudits.lookup (env.sha256 presented)).isSome ∨ s.revokedAt.isSome ∨
    isIdle s.lastSeenAt env.idleMs now = true ∨ Collides env now accessJti refreshJti w sid s

/-- What the access strategy asks of a session. -/
theorem accessAccepted_iff (hs : w.db.sessions.lookup sid = some s) :
    AccessAccepted env now w sid ↔
      s.revokedAt = none ∧ now < s.expiresAt ∧ isIdle s.lastSeenAt env.idleMs now = false := by
  constructor
  · intro h
    -- some access token of the session is good
    have hverify : verifyAccess now (.signed ⟨{ sid := some sid, jti := 0 }, seconds now + 1⟩) =
        some { sid := some sid, jti := 0 } := by
      simp [verifyAccess, verify]
    obtain ⟨p, hp⟩ := h _ _ hverify rfl
    obtain ⟨claims, sid', s', hvalid⟩ := valid_of_validate hp
    obtain rfl := Option.some.inj (hverify.symm.trans hvalid.verified)
    obtain rfl := Option.some.inj hvalid.sid_eq
    obtain rfl := Option.some.inj (hs.symm.trans hvalid.found)
    exact ⟨hvalid.unrevoked, hvalid.unexpired, hvalid.active⟩
  · rintro ⟨hrevoked, hexpires, hidle⟩ text claims hverify hsid
    exact validate_of_valid ⟨hverify, hsid, hs, hrevoked, hexpires, hidle⟩

/-- The transaction of a rotation fails only where something drawn is in use. -/
theorem rotateTx_iff (hs : w.db.sessions.lookup sid = some s)
    (haudit : w.db.refreshTokenAudits.lookup (env.sha256 presented) = none) :
    (∃ r, rotateTx env now accessJti refreshJti (env.sha256 presented) sid s w.db = .ok r) ↔
      ¬ Collides env now accessJti refreshJti w sid s := by
  have hcreate : createAudit (env.sha256 presented) ⟨s.refreshTokenFamilyId, sid⟩ w.db = .ok ((),
      { w.db with refreshTokenAudits :=
        w.db.refreshTokenAudits.insert (env.sha256 presented) ⟨s.refreshTokenFamilyId, sid⟩ }) := by
    simp [createAudit, haudit]
  constructor
  · rintro ⟨r, hr⟩
    obtain ⟨_, db₁, hfirst, hsecond⟩ := Prog.body_bind_ok.1 hr
    rw [hcreate] at hfirst
    cases hfirst
    unfold updateTokens at hsecond
    simp only [hs] at hsecond
    split at hsecond
    · cases hsecond
    · assumption
  · intro hfree
    refine ⟨(rotatedRow env now accessJti refreshJti sid s s,
      rotatedDb env now accessJti refreshJti (env.sha256 presented) sid s s w.db),
      Prog.body_bind_ok.2 ⟨(), _, hcreate, ?_⟩⟩
    unfold updateTokens
    simp only [hs]
    exact if_neg hfree

/-- When a rotation succeeds. -/
theorem rotateRefresh_ok_iff (hcurrent : Current env presented w sid s) :
    (∃ r, ((rotateRefresh env now accessJti refreshJti presented).run w).1 = .ok r) ↔
      ¬ Refused env now accessJti refreshJti presented w sid s := by
  have hs : w.db.sessions.lookup sid = some s := (Table.findRow_some hcurrent).1
  unfold rotateRefresh Refused
  cases hverify : verifyRefresh now presented with
  | none => simp
  | some claims =>
    dsimp only
    rw [Prog.run_bind, run_query]
    dsimp only
    cases haudit : w.db.refreshTokenAudits.lookup (env.sha256 presented) with
    | some replay =>
      refine iff_of_false ?_ (by simp)
      rintro ⟨r, hr⟩
      exact not_ok_of_throw hr
    | none =>
      dsimp only
      rw [Prog.run_bind, run_query]
      dsimp only
      rw [show (w.db.sessions.findRow fun s => s.refreshTokenHash = env.sha256 presented) =
        some (sid, s) from hcurrent]
      dsimp only [Option.map_some]
      by_cases hrevoked : s.revokedAt.isSome
      · rw [if_pos hrevoked]
        refine iff_of_false ?_ (by simp [hrevoked])
        rintro ⟨r, hr⟩
        unfold rejectRefresh at hr
        cases hfam : claims.fam with
        | none =>
          rw [hfam] at hr
          cases hr
        | some fam =>
          rw [hfam] at hr
          exact not_ok_of_throw hr
      rw [if_neg hrevoked]
      by_cases hidle : isIdle s.lastSeenAt env.idleMs now = true
      · rw [if_pos hidle]
        refine iff_of_false ?_ (by simp [hidle])
        rintro ⟨r, hr⟩
        exact not_ok_of_throw hr
      rw [if_neg hidle, Prog.run_bind, run_transaction]
      have htx := @rotateTx_iff env now accessJti refreshJti presented w sid s hs haudit
      cases hrotate : rotateTx env now accessJti refreshJti (env.sha256 presented) sid s w.db with
      | ok r =>
        refine iff_of_true ⟨_, rfl⟩ ?_
        simpa [hrevoked, hidle] using htx.1 ⟨r, hrotate⟩
      | error e =>
        refine iff_of_false (by rintro ⟨r, hr⟩; cases hr) ?_
        have hcollides : Collides env now accessJti refreshJti w sid s := by
          by_contra hfree
          obtain ⟨r, hr⟩ := htx.2 hfree
          rw [hrotate] at hr
          cases hr
        simp [hcollides]

theorem refreshKeepsRule_iff (hcurrent : Current env presented w sid s) :
    RefreshKeepsRule env now accessJti refreshJti presented w sid ↔
      now < s.expiresAt ∨ Refused env now accessJti refreshJti presented w sid s := by
  have hs : w.db.sessions.lookup sid = some s := (Table.findRow_some hcurrent).1
  rw [RefreshKeepsRule, rotateRefresh_ok_iff hcurrent, accessAccepted_iff hs]
  constructor
  · intro h
    by_cases hrefused : Refused env now accessJti refreshJti presented w sid s
    · exact .inr hrefused
    · exact .inl (h hrefused).2.1
  · intro h haccepted
    have hexpires := h.resolve_right haccepted
    simp only [Refused, not_or] at haccepted
    obtain ⟨-, -, hrevoked, hidle, -⟩ := haccepted
    exact ⟨by simpa using hrevoked, hexpires, by simpa using hidle⟩

end OneCall

/-! ## Runs -/

/-- When a call presents which token for rotation. -/
def Call.rotates : Call → Option (Instant × Text)
  | .rotateRefresh now _ _ presented => some (now, presented)
  | _ => none

/-- A rotation that finds a session to rotate finds it unexpired. -/
def InTime (env : Env) (x : Step Realm Call) : Prop :=
  ∀ r ∈ x.call.rotates,
    ∀ found ∈ x.pre.db.sessions.findRow fun s => s.refreshTokenHash = env.sha256 r.2,
      found.2.revokedAt = none → isIdle found.2.lastSeenAt env.idleMs r.1 = false →
        r.1 < found.2.expiresAt

instance (env : Env) : DecidablePred (InTime env) := fun x => by
  delta InTime
  infer_instance

/-- A rotation that returned has read a session that the access strategy would accept. -/
theorem rotated_in_time {env : Env} {s₀ : Realm} {tr : List (Step Realm Call)}
    {P : Pool Realm Error Answer Call} {ok : Call → Prop} (hrun : SessionRun env ok s₀ tr P)
    (htime : ∀ x ∈ tr, InTime env x) {i : ℕ} {now : Instant} {accessJti refreshJti : Uuid}
    {presented : Text} {a : Answer}
    (hreturned : P.Returned i (.rotateRefresh now accessJti refreshJti presented) a) :
    ∃ r sid read, a = .issued r ∧ r.refreshToken = rotatedRefresh env now refreshJti sid read ∧
      (∃ x ∈ tr, x.pre.db.sessions.lookup sid = some read) ∧ read.revokedAt = none ∧
      now < read.expiresAt ∧ isIdle read.lastSeenAt env.idleMs now = false := by
  have hpromise : Promise env (.rotateRefresh now accessJti refreshJti presented) (own i tr)
      (.ok a) := promise_of_run hrun hreturned.thread
  obtain ⟨r, w₁, w₂, w₃, sid, read, s, ha, htoken, hfound, -, hown⟩ := hpromise
  have hmem : (w₂, w₂) ∈ own i tr := by
    rw [hown]
    exact List.mem_cons_of_mem _ List.mem_cons_self
  obtain ⟨x, hx, hxtid, hxpre, -⟩ := mem_own.1 hmem
  obtain ⟨t, ht, hcall⟩ := hrun.thread_of_step hx
  have hxcall : x.call = .rotateRefresh now accessJti refreshJti presented := by
    rw [hxtid, hreturned.thread] at ht
    cases ht
    exact hcall.symm
  refine ⟨r, sid, read, ha, htoken, ⟨x, hx, hxpre ▸ hfound.waiting.1⟩, hfound.unrevoked, ?_,
    hfound.active⟩
  exact htime x hx (now, presented) (by rw [hxcall]; rfl) (sid, read) (hxpre ▸ hfound.found)
    hfound.unrevoked hfound.active

/-- **How long a session can be refreshed**: exactly where the session found is unexpired does a
rotation that is not refused otherwise keep to the rule of the access strategy; and in a run whose
rotations all find unexpired sessions, no session gets tokens past its lifetime. -/
theorem refresh_lifetime (env : Env) :
    (∀ now accessJti refreshJti presented w sid s, Current env presented w sid s →
      (RefreshKeepsRule env now accessJti refreshJti presented w sid ↔
        now < s.expiresAt ∨ Refused env now accessJti refreshJti presented w sid s)) ∧
    ∀ ok s₀ tr P, SessionRun env ok s₀ tr P → (∀ x ∈ tr, InTime env x) →
      ∀ i now accessJti refreshJti presented a,
        P.Returned i (.rotateRefresh now accessJti refreshJti presented) a →
          ∃ r sid read, a = .issued r ∧
            r.refreshToken = rotatedRefresh env now refreshJti sid read ∧
            (∃ x ∈ tr, x.pre.db.sessions.lookup sid = some read) ∧ read.revokedAt = none ∧
            now < read.expiresAt ∧ isIdle read.lastSeenAt env.idleMs now = false :=
  ⟨fun _ _ _ _ _ _ _ hcurrent => refreshKeepsRule_iff hcurrent,
    fun _ _ _ _ hrun htime _ _ _ _ _ _ hreturned => rotated_in_time hrun htime hreturned⟩

/-- Ann signs in, and presents her refresh token a second later. -/
def sampleRefreshing : List (Choice Call) :=
  [.call (sampleIssue 100), .step 0, .call (.rotateRefresh 1000 110 111 (sampleRefresh 100)),
    .step 1, .step 1, .step 1]

def sampleRefreshed : List (Step Realm Call) × Pool Realm Error Answer Call :=
  exec (fun _ => handle sampleEnv) sampleRealm sampleRefreshing

/-- The session of the sample. -/
def sampleSession : Session := issuedRow sampleEnv 0 ⟨100, 101, 102, 103⟩ ⟨1, 11, .customer⟩

/-- The realm after she signed in. -/
def signedInRealm : Realm :=
  ((issueSession sampleEnv 0 ⟨100, 101, 102, 103⟩ ⟨1, 11, .customer⟩).run sampleRealm).2

/-- What she gets. -/
def sampleRenewal : IssueSessionResult where
  sessionId := 100
  session := rotatedRow sampleEnv 1000 110 111 100 sampleSession sampleSession
  accessToken := signAccess sampleEnv.ttl 1000 110 1 100 (some .customer)
  refreshToken := rotatedRefresh sampleEnv 1000 111 100 sampleSession
  revokedIds := []

theorem refresh_lifetime_sample :
    (RefreshKeepsRule sampleEnv 1000 110 111 (sampleRefresh 100) signedInRealm 100 ↔
      1000 < sampleSession.expiresAt ∨
        Refused sampleEnv 1000 110 111 (sampleRefresh 100) signedInRealm 100 sampleSession) ∧
    ∃ r sid read, Answer.issued sampleRenewal = .issued r ∧
      r.refreshToken = rotatedRefresh sampleEnv 1000 111 sid read ∧
      (∃ x ∈ sampleRefreshed.1, x.pre.db.sessions.lookup sid = some read) ∧
      read.revokedAt = none ∧ 1000 < read.expiresAt ∧
      isIdle read.lastSeenAt sampleEnv.idleMs 1000 = false := by
  refine ⟨(refresh_lifetime sampleEnv).1 _ _ _ _ _ _ _ ?_, (refresh_lifetime sampleEnv).2 _ _ _ _
    (exec_run sampleRefreshing fun _ _ => trivial) ?_ 1 1000 110 111 (sampleRefresh 100) _ ?_⟩
  · unfold Current
    decide +kernel
  · decide +kernel
  · decide +kernel

/-! ## Past the lifetime -/

/-- A configuration under which sessions are not idle before 60 days. -/
def patientEnv : Env := { sampleEnv with idleMs := 60 * 24 * 60 * 60 * 1000 }

/-- The instant a number of days after the epoch. -/
def dayMs (n : ℤ) : Instant := n * (24 * 60 * 60 * 1000)

/-- The session, after Ann refreshed it on day 29. -/
def day29Session : Session :=
  rotatedRow patientEnv (dayMs 29) 110 111 100 sampleSession sampleSession

/-- The realm then. -/
def day29Realm : Realm :=
  ((rotateRefresh patientEnv (dayMs 29) 110 111 (sampleRefresh 100)).run signedInRealm).2

/-- The token she got. -/
def day29Refresh : Text := .signed (rotatedRefresh patientEnv (dayMs 29) 111 100 sampleSession)

/-- On day 31 the session is past its 30 days, and is refreshed. -/
theorem refreshed_past_lifetime : Current patientEnv day29Refresh day29Realm 100 day29Session ∧
    day29Session.expiresAt = dayMs 30 ∧
    ¬ RefreshKeepsRule patientEnv (dayMs 31) 120 121 day29Refresh day29Realm 100 := by
  have hcurrent : Current patientEnv day29Refresh day29Realm 100 day29Session := by
    unfold Current
    decide +kernel
  refine ⟨hcurrent, by decide, fun hrule => ?_⟩
  rcases (refreshKeepsRule_iff hcurrent).1 hrule with hlate | hrefused
  · exact absurd hlate (by decide)
  · unfold Refused Collides at hrefused
    exact absurd hrefused (by decide +kernel)

end BankDemo.Identity
