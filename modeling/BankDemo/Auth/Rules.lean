import BankDemo.Auth.Service
import BankDemo.Elevation.Service

/-!
# Rules for the sign-in handlers

One rule for each handler of `Auth/Service.lean`, as for the sessions. What a sign-in does besides
making a session is written down as `Aside`: devices and passkeys change, and challenges are answered
or sent again, but neither users nor sessions change, nor whose a challenge is. A guarantee that lets
this happen is an `Admits`.
-/

namespace BankDemo.Identity

open Crypto

/-- A device or a passkey is changed, or a challenge, but not whose the challenge is. -/
inductive Aside (db : Db) : Db → Prop
  | devices (devices : Table Uuid Device) : Aside db { db with devices }
  | enrollment {credentialId : String} {e : BiometricEnrollment} (signCount : ℕ)
      (he : db.biometricEnrollments.lookup credentialId = some e) : Aside db { db with
        biometricEnrollments := db.biometricEnrollments.insert credentialId { e with signCount } }
  | challenge {db' : Db} (h : Altered db db') : Aside db db'

theorem Aside.frame {db db' : Db} (h : Aside db db') :
    db'.users = db.users ∧ db'.sessions = db.sessions := by
  cases h with
  | devices _ => exact ⟨rfl, rfl⟩
  | enrollment _ _ => exact ⟨rfl, rfl⟩
  | challenge h =>
    obtain ⟨_, _, _, -, -, rfl⟩ := h
    exact ⟨rfl, rfl⟩

/-- Whose a challenge is does not change. -/
theorem Aside.challenges {db db' : Db} (h : Aside db db') (id : Uuid) :
    (db'.mfaChallenges.lookup id).map MfaChallenge.userId =
      (db.mfaChallenges.lookup id).map MfaChallenge.userId := by
  cases h with
  | devices _ => rfl
  | enrollment _ _ => rfl
  | challenge h =>
    obtain ⟨id', row, row', hrow, howner, rfl⟩ := h
    dsimp only
    rw [Table.lookup_insert_ite]
    split
    · rename_i hid
      subst hid
      rw [hrow, Option.map_some, Option.map_some, howner]
    · rfl

/-- The guarantee lets sessions be revoked and touched, and devices, passkeys and challenges be
changed. -/
class Admits (G : List (Realm × Realm) → Prop) : Prop extends Keeps G where
  aside : ∀ {w : Realm} {db : Db} {own : List (Realm × Realm)}, Aside w.db db →
    G ((w, { w with db }) :: own)

variable {β : Type} {G : List (Realm × Realm) → Prop} {own : List (Realm × Realm)}
  {Q : List (Realm × Realm) → Except Error β → Prop} {env : Env} {now : Instant}

theorem admits_altered [Admits G] (w : Realm) (db : Db) (own : List (Realm × Realm))
    (h : Altered w.db db) : G ((w, { w with db }) :: own) :=
  Admits.aside (.challenge h)

/-! ## Devices -/

theorem updateDevice_ok {id : Uuid} {f : Device → Device} {db : Db} {r : Unit × Db}
    (h : updateDevice id f db = .ok r) : Aside db r.2 := by
  unfold updateDevice at h
  split at h
  · cases h
  · cases h
    exact .devices _

theorem createDevice_ok {id : Uuid} {row : Device} {db : Db} {r : Unit × Db}
    (h : createDevice id row db = .ok r) : Aside db r.2 := by
  unfold createDevice at h
  split at h
  · cases h
  · split at h
    · cases h
    · split at h
      · cases h
      · cases h
        exact .devices _

/-- A transaction that changes a device or a passkey, then more. -/
theorem does_aside [Admits G] {α : Type} {body : Tx α} {k : α → Handler β}
    (hbody : ∀ {db : Db} {r}, body db = .ok r → Aside db r.2)
    (hk : ∀ a own', own <:+ own' → (k a).Does G Q own')
    (herr : ∀ own' e, own <:+ own' → Q own' (.error e)) :
    (transaction body >>= k).Does G Q own :=
  does_transaction
    (fun _ r hr => ⟨Admits.aside (hbody hr), hk r.1 _ (List.suffix_cons _ _)⟩)
    fun _ e _ => herr _ e (List.suffix_cons _ _)

theorem does_upsertOnLogin [Admits G] {userId : Uuid} {fingerprint : String} {newId : Uuid}
    {k : Uuid → Handler β} (hk : ∀ id own', own <:+ own' → (k id).Does G Q own')
    (herr : ∀ own' e, own <:+ own' → Q own' (.error e)) :
    (upsertOnLogin userId fingerprint newId >>= k).Does G Q own := by
  simp only [upsertOnLogin, bind_assoc]
  refine does_query fun w => ?_
  have hgrown : own <:+ (w, w) :: own := List.suffix_cons _ _
  cases findKnown userId fingerprint w.db with
  | some found =>
    simp only [bind_assoc, pure_bind]
    exact does_aside updateDevice_ok (fun _ own' hown' => hk found.1 own' (hgrown.trans hown'))
      fun own' e hown' => herr own' e (hgrown.trans hown')
  | none =>
    simp only [bind_assoc, pure_bind]
    exact does_aside createDevice_ok (fun _ own' hown' => hk newId own' (hgrown.trans hown'))
      fun own' e hown' => herr own' e (hgrown.trans hown')

/-! ## Passkeys -/

theorem updateEnrollment_ok {credentialId : String} {signCount : ℕ} {db : Db} {r : Unit × Db}
    (h : updateEnrollment credentialId signCount db = .ok r) : Aside db r.2 := by
  unfold updateEnrollment at h
  split at h
  · cases h
  · rename_i e he
    cases h
    exact .enrollment signCount he

theorem does_finishAuthentication [Admits G] {handle : Uuid} {credentialId assertion : String}
    {k : Uuid → Handler β} (hk : ∀ userId own', own <:+ own' → (k userId).Does G Q own')
    (herr : ∀ own' e, own <:+ own' → Q own' (.error e)) :
    (finishAuthentication env now handle credentialId assertion >>= k).Does G Q own := by
  simp only [finishAuthentication, bind_assoc]
  refine Prog.does_bind fun w₁ _ => ⟨Idle.idle rfl, ?_⟩
  have hone : ∀ x : Realm × Realm, own <:+ x :: own := fun x => List.suffix_cons x own
  dsimp only [Prog.Does]
  cases w₁.pendingAuth.lookup handle with
  | none => exact herr _ _ (hone _)
  | some pending =>
    dsimp only
    split
    · exact herr _ _ (hone _)
    · split
      · exact herr _ _ (hone _)
      · simp only [bind_assoc]
        refine does_query fun w₂ => ?_
        have htwo : ∀ x : Realm × Realm, own <:+ (w₂, w₂) :: x :: own :=
          fun x => (hone x).trans (List.suffix_cons _ _)
        cases w₂.db.biometricEnrollments.lookup credentialId with
        | none => exact herr _ _ (htwo _)
        | some enrollment =>
          dsimp only
          split
          · exact herr _ _ (htwo _)
          · cases env.verifyAssertion pending.challenge credentialId enrollment.signCount
                assertion with
            | none => exact herr _ _ (htwo _)
            | some newCounter =>
              simp only [bind_assoc, pure_bind]
              exact does_aside updateEnrollment_ok
                (fun _ own' hown' => hk enrollment.userId own' ((htwo _).trans hown'))
                fun own' e hown' => herr own' e ((htwo _).trans hown')

/-! ## Signing in -/

/-- The user was found active by one of the steps. -/
def FoundActive (userId : Uuid) (own : List (Realm × Realm)) : Prop :=
  ∃ w, (w, w) ∈ own ∧ w.db.userStatus userId = some .active

theorem foundActive_cons {userId : Uuid} {w : Realm} {user : User} (own : List (Realm × Realm))
    (hu : w.db.users.lookup userId = some user) (hactive : user.status = .active) :
    FoundActive userId ((w, w) :: own) :=
  ⟨w, List.mem_cons_self, by simp [Db.userStatus, hu, hactive]⟩

theorem FoundActive.suffix {userId : Uuid} {own own' : List (Realm × Realm)}
    (h : FoundActive userId own) (hown' : own <:+ own') : FoundActive userId own' := by
  obtain ⟨w, hw, hactive⟩ := h
  exact ⟨w, hown'.mem hw, hactive⟩

/-- The guarantee lets a session be made after the steps `own`, and `done` holds when it was. -/
def MakesSession (env : Env) (now : Instant) (ids : Draws) (input : IssueSessionInput)
    (G : List (Realm × Realm) → Prop) (done : IssueSessionResult → List (Realm × Realm) → Prop)
    (own : List (Realm × Realm)) : Prop :=
  ∀ w : Realm, w.db.sessions.lookup ids.sessionId = none →
    G ((w, { w with db := issuedDb env now ids input w.db }) :: own) ∧
    ∀ r later, Issuance env now ids input r →
      done r (later ++ (w, { w with db := issuedDb env now ids input w.db }) :: own)

theorem does_makesSession [Idle G] {ids : Draws} {input : IssueSessionInput}
    {k : IssueSessionResult → Handler β}
    (hok : MakesSession env now ids input G (fun r own => (k r).Does G Q own) own)
    (herr : ∀ own' e, own <:+ own' → Q own' (.error e)) :
    (issueSession env now ids input >>= k).Does G Q own :=
  does_issueSession (fun w hfresh _ => hok w hfresh) fun _ e => herr _ e (List.suffix_cons _ _)

theorem does_login [Admits G] {email password fingerprint : String} {d : SignInDraws}
    {k : LoginOutcome → Handler β}
    (hissue : ∀ input own', own <:+ own' → FoundActive input.userId own' →
      MakesSession env now d.session input G (fun r own => (k (.session r)).Does G Q own) own')
    (hchallenge : ∀ userId own' w, own <:+ own' →
      w.db.mfaChallenges.lookup d.challenge.id = none →
      G ((w, w.withChallenge d.challenge.id (challengeRow env now d.challenge userId)) :: own') ∧
      (k (.mfa (signMfa env.ttl now d.mfaJti userId d.challenge.id))).Does G Q
        ((w, w.withChallenge d.challenge.id (challengeRow env now d.challenge userId)) :: own'))
    (herr : ∀ own' e, own <:+ own' → Q own' (.error e)) :
    (login env now email password fingerprint d >>= k).Does G Q own := by
  simp only [login, bind_assoc]
  refine does_query fun w₁ => ?_
  have hone : own <:+ (w₁, w₁) :: own := List.suffix_cons _ _
  cases hfind : w₁.db.users.findRow fun u => env.sameEmail u.email (JsString.trim email) with
  | none => exact herr _ _ hone
  | some found =>
    obtain ⟨userId, user⟩ := found
    dsimp only
    split
    · exact herr _ _ hone
    · rename_i hactive
      have hfound : FoundActive userId ((w₁, w₁) :: own) :=
        foundActive_cons own (Table.findRow_some hfind).1 (not_not.1 hactive)
      split
      · exact herr _ _ hone
      · simp only [bind_assoc]
        refine does_query fun w₂ => ?_
        have htwo : (w₁, w₁) :: own <:+ (w₂, w₂) :: (w₁, w₁) :: own := List.suffix_cons _ _
        split
        · simp only [bind_assoc, pure_bind]
          refine does_upsertOnLogin (fun deviceId own₁ hown₁ => ?_)
            fun own' e hown' => herr own' e (hone.trans (htwo.trans hown'))
          have hsuffix := htwo.trans hown₁
          exact does_makesSession
            (hissue ⟨userId, deviceId, user.role⟩ own₁ (hone.trans hsuffix)
              (hfound.suffix hsuffix))
            fun own' e hown' => herr own' e (hone.trans (hsuffix.trans hown'))
        · simp only [bind_assoc, pure_bind]
          exact does_createChallenge
            (fun w₃ hnone => hchallenge userId _ w₃ (hone.trans htwo) hnone)
            fun w₃ e => herr _ e (hone.trans (htwo.trans (List.suffix_cons _ _)))

/-- The end of `mfaVerify` and of the passkey sign-in: the device is trusted and a session made. -/
theorem does_trustAndIssue [Admits G] {userId newId : Uuid} {fingerprint : String}
    {role : UserRole} {ids : Draws} {k : IssueSessionResult → Handler β}
    (hissue : ∀ input own', own <:+ own' → input.userId = userId →
      MakesSession env now ids input G (fun r own => (k r).Does G Q own) own')
    (herr : ∀ own' e, own <:+ own' → Q own' (.error e)) :
    (upsertOnLogin userId fingerprint newId >>= fun deviceId => markTrusted deviceId >>= fun _ =>
      issueSession env now ids ⟨userId, deviceId, role⟩ >>= k).Does G Q own := by
  refine does_upsertOnLogin (fun deviceId own₁ hown₁ => ?_) herr
  refine does_aside updateDevice_ok (fun _ own₂ hown₂ => ?_)
    fun own' e hown' => herr own' e (hown₁.trans hown')
  have hsuffix := hown₁.trans hown₂
  exact does_makesSession (hissue _ own₂ hsuffix rfl)
    fun own' e hown' => herr own' e (hsuffix.trans hown')

theorem does_mfaVerify [Admits G] {mfaToken : Text} {code fingerprint : String} {d : SignInDraws}
    {k : IssueSessionResult → Handler β}
    (hissue : ∀ input own', own <:+ own' →
      MakesSession env now d.session input G (fun r own => (k r).Does G Q own) own')
    (herr : ∀ own' e, own <:+ own' → Q own' (.error e)) :
    (mfaVerify env now mfaToken code fingerprint d >>= k).Does G Q own := by
  unfold mfaVerify
  cases verifyMfa now mfaToken with
  | none => exact herr _ _ (List.suffix_refl _)
  | some claims =>
    simp only [bind_assoc]
    refine does_verifyCode admits_altered (fun id w₁ w₂ row _ _ _ => ?_)
      fun later e => herr _ e (List.suffix_append later own)
    have htwo : ∀ x : Realm × Realm, own <:+ x :: (w₁, w₁) :: own := fun x =>
      (List.suffix_cons _ _).trans (List.suffix_cons _ _)
    cases claims.sub with
    | none => exact herr _ _ (htwo _)
    | some sub =>
      simp only [bind_assoc]
      refine does_query fun w₃ => ?_
      have hthree : ∀ x : Realm × Realm, own <:+ (w₃, w₃) :: x :: (w₁, w₁) :: own := fun x =>
        (htwo x).trans (List.suffix_cons _ _)
      cases w₃.db.users.lookup sub with
      | none => exact herr _ _ (hthree _)
      | some user =>
        simp only [bind_assoc]
        exact does_trustAndIssue
          (fun input own' hown' _ => hissue input own' ((hthree _).trans hown'))
          fun own' e hown' => herr own' e ((hthree _).trans hown')

theorem does_mfaResend [Idle G] {mfaToken : Text} {code : String} {salt : ℕ} {jti : Uuid}
    {k : Token → Handler β}
    (halter : ∀ (w : Realm) (db : Db) own, Altered w.db db → G ((w, { w with db }) :: own))
    (hk : ∀ token own', own <:+ own' → (k token).Does G Q own')
    (herr : ∀ own' e, own <:+ own' → Q own' (.error e)) :
    (mfaResend env now mfaToken code salt jti >>= k).Does G Q own := by
  unfold mfaResend
  cases verifyMfa now mfaToken with
  | none => exact herr _ _ (List.suffix_refl _)
  | some claims =>
    dsimp only
    cases claims.sub with
    | none => exact herr _ _ (List.suffix_refl _)
    | some sub =>
      simp only [bind_assoc]
      refine does_query fun w => ?_
      have hone : own <:+ (w, w) :: own := List.suffix_cons _ _
      cases w.db.users.lookup sub with
      | none => exact herr _ _ hone
      | some user =>
        simp only [bind_assoc, pure_bind]
        exact does_resendCode halter
          (fun later => hk _ _ (hone.trans (List.suffix_append later _)))
          fun later e => herr _ e (hone.trans (List.suffix_append later _))

theorem does_biometricFinish [Admits G] {handle : Uuid} {credentialId assertion : String}
    {fingerprint : String} {d : SignInDraws} {k : IssueSessionResult → Handler β}
    (hissue : ∀ input own', own <:+ own' → FoundActive input.userId own' →
      MakesSession env now d.session input G (fun r own => (k r).Does G Q own) own')
    (herr : ∀ own' e, own <:+ own' → Q own' (.error e)) :
    (biometricFinish env now handle credentialId assertion fingerprint d >>= k).Does G Q own := by
  simp only [biometricFinish, bind_assoc]
  refine does_finishAuthentication (fun userId own₁ hown₁ => ?_) herr
  refine does_query fun w => ?_
  have hone : own <:+ (w, w) :: own₁ := hown₁.trans (List.suffix_cons _ _)
  cases hu : w.db.users.lookup userId with
  | none => exact herr _ _ hone
  | some user =>
    dsimp only
    split
    · exact herr _ _ hone
    · rename_i hactive
      have hfound := foundActive_cons own₁ hu (not_not.1 hactive)
      simp only [bind_assoc]
      refine does_trustAndIssue (fun input own' hown' hinput => ?_)
        fun own' e hown' => herr own' e (hone.trans hown')
      subst hinput
      exact hissue input own' (hone.trans hown') (hfound.suffix hown')

/-! ## The status of a user -/

/-- The realm after a user's status was set. -/
def Realm.withStatus (w : Realm) (id : Uuid) (u : User) (status : UserStatus) : Realm :=
  { w with db := { w.db with users := w.db.users.insert id { u with status } } }

theorem does_setStatus [Keeps G] {actorUserId targetUserId : Uuid} {freeze : Bool}
    {k : Bool → Handler β}
    (hset : ∀ (w : Realm) u own', w.db.users.lookup targetUserId = some u →
      G ((w, w.withStatus targetUserId u (if freeze then .frozen else .active)) :: own'))
    (hk : ∀ b own', own <:+ own' → (k b).Does G Q own')
    (herr : ∀ own' e, own <:+ own' → Q own' (.error e)) :
    (setStatus now actorUserId targetUserId freeze >>= k).Does G Q own := by
  unfold setStatus
  dsimp only
  split
  · exact herr _ _ (List.suffix_refl _)
  · simp only [bind_assoc]
    refine does_query fun w => ?_
    have hone : own <:+ (w, w) :: own := List.suffix_cons _ _
    cases w.db.users.lookup targetUserId with
    | none => exact herr _ _ hone
    | some target =>
      dsimp only
      by_cases hsame : target.status = if freeze = true then .frozen else .active
      · rw [if_pos hsame, pure_bind]
        exact hk true _ hone
      · rw [if_neg hsame]
        simp only [bind_assoc]
        refine does_transaction (fun w₁ r hr => ?_)
          fun w₁ e _ => herr _ e (hone.trans (List.suffix_cons _ _))
        unfold updateStatus at hr
        split at hr
        · cases hr
        · rename_i u hu
          cases hr
          refine ⟨hset w₁ u _ hu, ?_⟩
          have htwo : ∀ x : Realm × Realm, own <:+ x :: (w, w) :: own := fun x =>
            hone.trans (List.suffix_cons _ _)
          split
          · simp only [bind_assoc, pure_bind]
            exact does_revokeWhere fun _ later _ _ =>
              hk false _ ((htwo _).trans (List.suffix_append later _))
          · simp only [pure_bind]
            exact hk false _ (htwo _)

end BankDemo.Identity
