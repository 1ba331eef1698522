import BankDemo.Sessions.Service

/-!
# Rules for the session handlers

One rule for each handler of `Sessions/Service.lean`: which actions it takes and how it ends,
followed by whatever comes next. Later modules use the handlers through these rules only. A
guarantee that lets sessions be revoked and touched is a `Keeps`.
-/

namespace BankDemo.Identity

open Crypto

variable {α β : Type} {G : List (Realm × Realm) → Prop} {own : List (Realm × Realm)}
  {Q : List (Realm × Realm) → Except Error β → Prop} {env : Env} {now : Instant}

/-- The guarantee lets sessions be revoked and touched. -/
class Keeps (G : List (Realm × Realm) → Prop) : Prop extends Idle G where
  upkeep : ∀ {w : Realm} {db : Db} {own : List (Realm × Realm)}, Upkeep w.db db →
    G ((w, { w with db }) :: own)

theorem mute_emitRevoked (userId sessionId : Uuid) (reason : SessionRevokedReason) :
    Mute (emitRevoked userId sessionId reason) :=
  mute_emit fun _ => rfl

/-- Outcomes of a step after which every session with a property is revoked. -/
def Swept (p : Uuid → Session → Bool) (own : List (Realm × Realm)) : Prop :=
  ∃ x ∈ own, ∀ id s, x.2.db.sessions.lookup id = some s → p id s = true → s.revokedAt.isSome

theorem Swept.append {p : Uuid → Session → Bool} {own : List (Realm × Realm)} (h : Swept p own)
    (later : List (Realm × Realm)) : Swept p (later ++ own) := by
  obtain ⟨x, hx, hp⟩ := h
  exact ⟨x, List.mem_append_right _ hx, hp⟩

theorem swept_revokeMany {p : Uuid → Session → Bool} {reason : SessionRevokedReason}
    (w : Realm) (own : List (Realm × Realm)) :
    Swept p ((w, { w with db := revokeMany p now reason w.db }) :: own) := by
  refine ⟨_, List.mem_cons_self, fun id s hs hps => ?_⟩
  dsimp only at hs
  rw [lookup_revokeMany] at hs
  obtain ⟨s₀, -, rfl⟩ := Option.map_eq_some_iff.1 hs
  by_cases hsel : (p id s₀ && s₀.revokedAt.isNone) = true
  · rw [if_pos hsel]
    rfl
  · rw [if_neg hsel] at hps ⊢
    rw [Option.isSome_iff_ne_none]
    simpa [hps] using hsel

/-- The steps are upkeep at most. -/
def Tended (own : List (Realm × Realm)) : Prop :=
  ∀ x ∈ own, x.2.db = x.1.db ∨ Upkeep x.1.db x.2.db

theorem tended_cons {w w' : Realm} {own : List (Realm × Realm)}
    (h : w'.db = w.db ∨ Upkeep w.db w'.db) (hown : Tended own) : Tended ((w, w') :: own) :=
  List.forall_mem_cons.2 ⟨h, hown⟩

theorem tended_nil : Tended [] := by simp [Tended]

theorem Tended.append {own later : List (Realm × Realm)} (hown : Tended own)
    (hlater : Still later) : Tended (later ++ own) := by
  intro x hx
  rcases List.mem_append.1 hx with hx | hx
  · exact .inl (hlater x hx)
  · exact hown x hx

theorem does_revokeWhere [Keeps G] {p : Uuid → Session → Bool} {reason : SessionRevokedReason}
    {k : List Uuid → Handler β}
    (hk : ∀ ids later, Tended later → Swept p later → (k ids).Does G Q (later ++ own)) :
    (revokeWhere p now reason >>= k).Does G Q own := by
  simp only [revokeWhere, bind_assoc]
  refine does_query fun w => ?_
  split
  · rename_i hempty
    rw [pure_bind]
    refine hk [] [(w, w)] (tended_cons (.inl rfl) tended_nil)
      ⟨_, List.mem_cons_self, fun id s hs hps => ?_⟩
    by_contra hnone
    have hmem := mem_unrevoked.2 ⟨hs, hps, by simpa using hnone⟩
    rw [List.isEmpty_iff.1 hempty] at hmem
    cases hmem
  · simp only [bind_assoc]
    refine does_transaction (fun w' r hr => ?_) fun w' e he => by cases he
    cases hr
    refine ⟨Keeps.upkeep (.revokeMany p now reason _), ?_⟩
    refine (mute_forM (fun s => mute_emitRevoked _ _ _) _).does_bind fun _ later hlater => ?_
    have hswept := @swept_revokeMany now p reason w' [(w, w)]
    have htended : Tended [(w', { w' with db := revokeMany p now reason w'.db }), (w, w)] :=
      tended_cons (.inr (.revokeMany p now reason w'.db)) (tended_cons (.inl rfl) tended_nil)
    have hnext := hk ((unrevoked p w.db.sessions).map Prod.fst) _ (htended.append hlater)
      (hswept.append later)
    rw [List.append_assoc] at hnext
    exact hnext

/-- An update of one session, then more. -/
theorem does_updateSession [Keeps G] {id : Uuid} {f : Session → Session} {k : Unit → Handler β}
    (hf : ∀ {db : Db} {s : Session}, db.sessions.lookup id = some s →
      Upkeep db { db with sessions := db.sessions.insert id (f s) })
    (hk : ∀ w w', Upkeep w.db w'.db → (k ()).Does G Q ((w, w') :: own))
    (herr : ∀ w e, Q ((w, w) :: own) (.error e)) :
    (transaction (updateSession id f) >>= k).Does G Q own := by
  refine does_transaction (fun w r hr => ?_) fun w e _ => herr w e
  obtain ⟨s, hs, hdb⟩ := updateSession_ok hr
  have hup : Upkeep w.db r.2 := by
    rw [hdb]
    exact hf hs
  exact ⟨Keeps.upkeep hup, hk _ _ hup⟩

theorem does_revokeOne [Keeps G] {sessionId actingUserId : Uuid} {reason : SessionRevokedReason}
    {k : Unit → Handler β} (hk : ∀ later, (k ()).Does G Q (later ++ own))
    (herr : ∀ later e, Q (later ++ own) (.error e)) :
    (revokeOne now sessionId actingUserId reason >>= k).Does G Q own := by
  simp only [revokeOne, bind_assoc]
  refine does_query fun w => ?_
  cases w.db.sessions.lookup sessionId with
  | none => exact herr [(w, w)] _
  | some s =>
    dsimp only
    split
    · exact herr [(w, w)] _
    · split
      · exact hk [(w, w)]
      · rw [bind_assoc]
        refine does_updateSession (fun hs => .revoke now reason hs) (fun w₁ w₂ _ => ?_)
          fun w₁ e => herr [(w₁, w₁), (w, w)] e
        refine (mute_emitRevoked _ _ _).does_bind fun _ later _ => ?_
        have hnext := hk (later ++ [(w₁, w₂), (w, w)])
        rw [List.append_assoc] at hnext
        exact hnext

theorem does_adminRevoke [Keeps G] {sessionId : Uuid} {k : Bool → Handler β}
    (hk : ∀ b later, (k b).Does G Q (later ++ own))
    (herr : ∀ later e, Q (later ++ own) (.error e)) :
    (adminRevoke now sessionId >>= k).Does G Q own := by
  simp only [adminRevoke, bind_assoc]
  refine does_query fun w => ?_
  cases w.db.sessions.lookup sessionId with
  | none => exact herr [(w, w)] _
  | some s =>
    dsimp only
    split
    · exact hk true [(w, w)]
    · simp only [bind_assoc]
      refine does_updateSession (fun hs => .revoke now _ hs) (fun w₁ w₂ _ => ?_)
        fun w₁ e => herr [(w₁, w₁), (w, w)] e
      refine (mute_emitRevoked _ _ _).does_bind fun _ later _ => ?_
      have hnext := hk false (later ++ [(w₁, w₂), (w, w)])
      rw [List.append_assoc] at hnext
      exact hnext

/-- The database after a purge. -/
def purgedDb (userId : Uuid) (familyIds : List Uuid) (db : Db) : Db :=
  { db with
    refreshTokenAudits := db.refreshTokenAudits.deleteMany fun _ a => a.familyId ∈ familyIds
    sessions := db.sessions.deleteMany fun _ s => s.userId = userId
    devices := db.devices.deleteMany fun _ d => d.userId = userId }

theorem does_purgeForUser [Idle G] {userId : Uuid} {k : ℕ × ℕ × ℕ → Handler β}
    (hpurge : ∀ w families own, G ((w, { w with db := purgedDb userId families w.db }) :: own))
    (hk : ∀ n later, (k n).Does G Q (later ++ own))
    (herr : ∀ later e, Q (later ++ own) (.error e)) :
    (purgeForUser now userId >>= k).Does G Q own := by
  simp only [purgeForUser, bind_assoc]
  refine does_query fun w => ?_
  refine (mute_forM (fun s => mute_emitRevoked _ _ _) _).does_bind fun _ later _ => ?_
  refine does_query fun w₁ => ?_
  have happend : ∀ x : Realm × Realm, x :: (w₁, w₁) :: (later ++ (w, w) :: own) =
      (x :: (w₁, w₁) :: (later ++ [(w, w)])) ++ own := by simp
  refine does_transaction (fun w₂ r hr => ?_) fun w₂ e _ => ?_
  · have hdb := purgeTx_ok hr
    rw [hdb]
    refine ⟨hpurge w₂ _ _, ?_⟩
    rw [pure_bind, happend]
    exact hk _ _
  · rw [happend]
    exact herr _ _

/-- What `issueSession` returns. -/
structure Issuance (env : Env) (now : Instant) (ids : Draws) (input : IssueSessionInput)
    (r : IssueSessionResult) : Prop where
  sessionId : r.sessionId = ids.sessionId
  session : r.session = issuedRow env now ids input
  accessToken : r.accessToken =
    signAccess env.ttl now ids.accessJti input.userId ids.sessionId input.role
  refreshToken : r.refreshToken = issuedRefresh env now ids input.userId

/-- `issueSession` takes one action that matters, which makes the session. -/
theorem does_issueSession [Idle G] {ids : Draws} {input : IssueSessionInput}
    {k : IssueSessionResult → Handler β}
    (hok : ∀ w : Realm, w.db.sessions.lookup ids.sessionId = none →
      (w.db.users.lookup input.userId).isSome →
      G ((w, { w with db := issuedDb env now ids input w.db }) :: own) ∧
      ∀ r later, Issuance env now ids input r → (k r).Does G Q
        (later ++ (w, { w with db := issuedDb env now ids input w.db }) :: own))
    (herr : ∀ w e, Q ((w, w) :: own) (.error e)) :
    (issueSession env now ids input >>= k).Does G Q own := by
  simp only [issueSession, bind_assoc]
  refine does_transaction (fun w r hr => ?_) fun w e _ => herr w e
  obtain ⟨hfresh, huser, hdb⟩ := issueTx_ok hr
  obtain ⟨hG, hk⟩ := hok w hfresh huser
  rw [hdb]
  refine ⟨hG, ?_⟩
  refine (mute_forM (fun s => mute_emitRevoked _ _ _) _).does_bind fun _ later _ => ?_
  rw [pure_bind]
  exact hk _ later ⟨rfl, rfl, rfl, rfl⟩

/-- What a rotation found: the presented token verified, it was not in the audit at `w₁`, and at
`w₂` the session `sid` was waiting for it and was neither revoked nor idle. -/
structure Rotatable (env : Env) (now : Instant) (presented : Text) (w₁ w₂ : Realm) (sid : Uuid)
    (s : Session) : Prop where
  verified : (verifyRefresh now presented).isSome
  unaudited : w₁.db.refreshTokenAudits.lookup (env.sha256 presented) = none
  found : (w₂.db.sessions.findRow fun s => s.refreshTokenHash = env.sha256 presented) =
    some (sid, s)
  unrevoked : s.revokedAt = none
  active : isIdle s.lastSeenAt env.idleMs now = false

theorem Rotatable.waiting {presented : Text} {w₁ w₂ : Realm} {sid : Uuid} {s : Session}
    (h : Rotatable env now presented w₁ w₂ sid s) :
    w₂.db.sessions.lookup sid = some s ∧ s.refreshTokenHash = env.sha256 presented := by
  obtain ⟨hs, hhash⟩ := Table.findRow_some h.found
  exact ⟨hs, by simpa using hhash⟩

/-- The realm after a rotation. -/
def rotated (env : Env) (now : Instant) (accessJti refreshJti : Uuid) (presented : Text)
    (sid : Uuid) (read s : Session) (w : Realm) : Realm :=
  let presentedHash := env.sha256 presented
  { w with db := rotatedDb env now accessJti refreshJti presentedHash sid read s w.db }

/-- What `rotateRefresh` returns: `read` is the session as the lookup found it, `s` as the transaction
found it. -/
structure Renewal (env : Env) (now : Instant) (accessJti refreshJti sid : Uuid) (read s : Session)
    (r : IssueSessionResult) : Prop where
  sessionId : r.sessionId = sid
  session : r.session = rotatedRow env now accessJti refreshJti sid read s
  accessToken : ∃ role, r.accessToken = signAccess env.ttl now accessJti read.userId sid role
  refreshToken : r.refreshToken = rotatedRefresh env now refreshJti sid read

/-- The sessions of a family. -/
def ofFamily (familyId : Uuid) (_ : Uuid) (s : Session) : Bool := s.refreshTokenFamilyId = familyId

/-- The end of `rejectRefresh`. -/
theorem does_rejectRefresh [Keeps G] {claims : Claims} {k : α → Handler β}
    (herr : ∀ later e, Tended later → Q (later ++ own) (.error e)) :
    ((rejectRefresh now claims : Handler α) >>= k).Does G Q own := by
  unfold rejectRefresh
  cases claims.fam with
  | none => exact herr [] _ tended_nil
  | some fam =>
    simp only [bind_assoc]
    exact does_revokeWhere fun _ later htended _ => herr later _ htended

/-- `rotateRefresh`: a token in the audit leads to its family being revoked; otherwise the only
action besides upkeep is the rotation of a session that waits for the token. -/
theorem does_rotateRefresh [Keeps G] {accessJti refreshJti : Uuid} {presented : Text}
    {k : IssueSessionResult → Handler β}
    (hok : ∀ w₁ w₂ w₃ sid read s, Rotatable env now presented w₁ w₂ sid read →
      w₃.db.refreshTokenAudits.lookup (env.sha256 presented) = none →
      w₃.db.sessions.lookup sid = some s →
      G ((w₃, rotated env now accessJti refreshJti presented sid read s w₃) ::
        (w₂, w₂) :: (w₁, w₁) :: own) ∧
      ∀ r, Renewal env now accessJti refreshJti sid read s r →
        (k r).Does G Q ((w₃, rotated env now accessJti refreshJti presented sid read s w₃) ::
          (w₂, w₂) :: (w₁, w₁) :: own))
    (hinvalid : verifyRefresh now presented = none → ∀ e, Q own (.error e))
    (herr : ∀ w₁ later e, Tended later → (∀ replay : RefreshTokenAudit,
        w₁.db.refreshTokenAudits.lookup (env.sha256 presented) = some replay →
        Swept (ofFamily replay.familyId) later) →
      Q (later ++ (w₁, w₁) :: own) (.error e)) :
    (rotateRefresh env now accessJti refreshJti presented >>= k).Does G Q own := by
  unfold rotateRefresh
  cases hverify : verifyRefresh now presented with
  | none => exact hinvalid hverify _
  | some claims =>
    simp only [bind_assoc]
    refine does_query fun w₁ => ?_
    cases haudit : w₁.db.refreshTokenAudits.lookup (env.sha256 presented) with
    | some replay =>
      simp only [bind_assoc]
      refine does_revokeWhere fun _ later htended hswept =>
        herr w₁ later _ htended fun replay' hreplay' => ?_
      obtain rfl := Option.some.inj (haudit.symm.trans hreplay')
      exact hswept
    | none =>
      have hother : ∀ later e, Tended later → Q (later ++ (w₁, w₁) :: own) (.error e) := by
        intro later e htended
        refine herr w₁ later e htended fun replay hreplay => ?_
        rw [haudit] at hreplay
        cases hreplay
      simp only [bind_assoc]
      refine does_query fun w₂ => ?_
      have hother₂ : ∀ later e, Tended later →
          Q (later ++ (w₂, w₂) :: (w₁, w₁) :: own) (.error e) := by
        intro later e htended
        rw [List.append_cons]
        refine hother _ e fun x hx => ?_
        rcases List.mem_append.1 hx with hx | hx
        · exact htended x hx
        · rw [List.mem_singleton.1 hx]
          exact .inl rfl
      cases hfind : w₂.db.sessions.findRow fun s => s.refreshTokenHash = env.sha256 presented with
      | none => exact does_rejectRefresh hother₂
      | some found =>
        obtain ⟨sid, s⟩ := found
        simp only [Option.map_some]
        split
        · exact does_rejectRefresh hother₂
        · rename_i hrevoked
          split
          · simp only [bind_assoc]
            refine does_updateSession (fun hs => .revoke now _ hs) (fun w₃ w₄ hup => ?_)
              fun w₃ e => hother₂ [(w₃, w₃)] e (tended_cons (.inl rfl) tended_nil)
            exact hother₂ [(w₃, w₄)] _ (tended_cons (.inr hup) tended_nil)
          · rename_i hidle
            simp only [bind_assoc, pure_bind]
            refine does_transaction (fun w₃ r hr => ?_) fun w₃ e _ =>
              hother₂ [(w₃, w₃)] e (tended_cons (.inl rfl) tended_nil)
            obtain ⟨hnone, s', hs', hrow, hdb⟩ := rotateTx_ok hr
            have hfound : Rotatable env now presented w₁ w₂ sid s :=
              ⟨by rw [hverify]; rfl, haudit, hfind, by simpa using hrevoked,
                by simpa using hidle⟩
            obtain ⟨hG, hk⟩ := hok w₁ w₂ w₃ sid s s' hfound hnone hs'
            rw [hdb]
            exact ⟨hG, hk _ ⟨rfl, hrow, ⟨_, rfl⟩, rfl⟩⟩

/-- What the access strategy accepts: a token that verifies, of a session that at `w` is there,
unrevoked, unexpired and not idle. -/
structure Valid (env : Env) (now : Instant) (text : Text) (w : Realm) (claims : Claims)
    (sid : Uuid) (s : Session) : Prop where
  verified : verifyAccess now text = some claims
  sid_eq : claims.sid = some sid
  found : w.db.sessions.lookup sid = some s
  unrevoked : s.revokedAt = none
  unexpired : now < s.expiresAt
  active : isIdle s.lastSeenAt env.idleMs now = false

theorem does_validate [Keeps G] {text : Text} {k : Principal → Handler β}
    (hok : ∀ w claims sid s later, Valid env now text w claims sid s →
      (k ⟨claims.sub, claims.sid, claims.role⟩).Does G Q (later ++ (w, w) :: own))
    (herr : ∀ later e, Q (later ++ own) (.error e)) :
    (validate env now text >>= k).Does G Q own := by
  unfold validate
  cases hverify : verifyAccess now text with
  | none => exact herr [] _
  | some claims =>
    dsimp only
    cases hsid : claims.sid with
    | none => exact herr [] _
    | some sid =>
      simp only [bind_assoc]
      refine does_query fun w => ?_
      cases hs : w.db.sessions.lookup sid with
      | none => exact herr [(w, w)] _
      | some s =>
        dsimp only
        split
        · exact herr [(w, w)] _
        · rename_i hrevoked
          split
          · exact herr [(w, w)] _
          · rename_i hexpired
            split
            · simp only [bind_assoc]
              exact does_updateSession (fun hs => .revoke now _ hs)
                (fun w₁ w₂ _ => herr [(w₁, w₂), (w, w)] _) fun w₁ e => herr [(w₁, w₁), (w, w)] e
            · rename_i hidle
              have hvalid : Valid env now text w claims sid s :=
                ⟨hverify, hsid, hs, by simpa using hrevoked, not_le.1 hexpired,
                  by simpa using hidle⟩
              split
              · simp only [bind_assoc, pure_bind]
                refine does_updateSession (fun hs => .touch now hs) (fun w₁ w₂ _ => ?_)
                  fun w₁ e => herr [(w₁, w₁), (w, w)] e
                rw [← hsid]
                exact hok w claims sid s [(w₁, w₂)] hvalid
              · rw [pure_bind, ← hsid]
                exact hok w claims sid s [] hvalid

end BankDemo.Identity
