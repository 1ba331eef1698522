import BankDemo.Auth.Devices

/-!
# What sign-in does to devices

One rule for each handler that touches a device, as in `Auth/Rules.lean`. A step leaves the devices
alone, renews one, adds one, marks one as trusted, or deletes those of a user (`Moved`). A device is
marked by a thread that has found it or added it for the fingerprint of its request (`Upserted`).

* `handle_does`: every step of every call is such a step, and leaves the fingerprints of challenges
  alone, but for the new one of a `login` that ends in a challenge.
-/

namespace BankDemo.Devices

open Crypto Identity

/-- The realm with a device put in. -/
def withDevice (w : Realm) (id : Uuid) (row : Device) : Realm :=
  { w with db := { w.db with devices := w.db.devices.insert id row } }

/-- The steps leave the devices as they are. -/
def Unmoved (own : List (Realm × Realm)) : Prop := ∀ x ∈ own, x.2.db.devices = x.1.db.devices

/-- One of the steps left the device of the user with the fingerprint, and one left it unrevoked. -/
structure Upserted (userId : Uuid) (fp : String) (id : Uuid) (own : List (Realm × Realm)) :
    Prop where
  found : ∃ x ∈ own, ∃ row, x.2.db.devices.lookup id = some row ∧ row.userId = userId ∧
    row.fingerprint = fp
  renewed : ∃ x ∈ own, ∃ row, x.2.db.devices.lookup id = some row ∧ row.revokedAt = none

theorem Upserted.suffix {userId : Uuid} {fp : String} {id : Uuid} {own own' : List (Realm × Realm)}
    (h : Upserted userId fp id own) (hown' : own <:+ own') : Upserted userId fp id own' := by
  obtain ⟨⟨x, hx, hfound⟩, y, hy, hrenewed⟩ := h
  exact ⟨⟨x, hown'.mem hx, hfound⟩, y, hown'.mem hy, hrenewed⟩

/-- What a step of a call that draws the device id `new` and computes the fingerprint `fp` can do to
the devices, after the call's own steps before it. -/
inductive Moved (new : Option Uuid) (fp : Option String) : List (Realm × Realm) → Prop
  | still {w w' : Realm} {own : List (Realm × Realm)} (h : w'.db.devices = w.db.devices) :
      Moved new fp ((w, w') :: own)
  | renewed {w : Realm} {own : List (Realm × Realm)} {id : Uuid} {row : Device}
      (hrow : w.db.devices.lookup id = some row) :
      Moved new fp ((w, withDevice w id { row with revokedAt := none }) :: own)
  | added {w : Realm} {own : List (Realm × Realm)} {id userId : Uuid} {f : String}
      (hnew : new = some id) (hfp : fp = some f) (hnone : w.db.devices.lookup id = none)
      (hfree : ∀ k row, w.db.devices.lookup k = some row → row.userId = userId →
        row.fingerprint ≠ f) (hfirst : Unmoved own) :
      Moved new fp ((w, withDevice w id ⟨userId, f, false, none⟩) :: own)
  | trusted {w : Realm} {own : List (Realm × Realm)} {id userId : Uuid} {f : String} {row : Device}
      (hfp : fp = some f) (hrow : w.db.devices.lookup id = some row)
      (hup : Upserted userId f id own) :
      Moved new fp ((w, withDevice w id { row with trusted := true }) :: own)
  | purged {w w' : Realm} {own : List (Realm × Realm)} (userId : Uuid)
      (h : w'.db.devices = w.db.devices.deleteMany fun _ d => d.userId = userId) :
      Moved new fp ((w, w') :: own)

instance (new : Option Uuid) (fp : Option String) : Identity.Keeps (Moved new fp) where
  idle h := .still (by rw [h])
  upkeep h := .still h.frame.2.2.1

section Rules

variable {β : Type} {new : Option Uuid} {fp : Option String} {own : List (Realm × Realm)}
  {Q : List (Realm × Realm) → Except Error β → Prop} {env : Env} {now : Instant}

theorem moved_altered (w : Realm) (db : Identity.Db) (own : List (Realm × Realm)) (h : Altered w.db db) :
    Moved new fp ((w, { w with db }) :: own) := by
  obtain ⟨id, row, row', -, -, rfl⟩ := h
  exact .still rfl

theorem findKnown_some {userId : Uuid} {f : String} {db : Identity.Db} {id : Uuid} {row : Device}
    (h : findKnown userId f db = some (id, row)) :
    db.devices.lookup id = some row ∧ row.userId = userId ∧ row.fingerprint = f := by
  obtain ⟨hrow, hmatch⟩ := Table.findRow_some h
  exact ⟨hrow, of_decide_eq_true hmatch⟩

theorem updateDevice_row {id : Uuid} {f : Device → Device} {w : Realm} {r : Unit × Identity.Db}
    (h : updateDevice id f w.db = .ok r) : ∃ row, w.db.devices.lookup id = some row ∧
      { w with db := r.2 } = withDevice w id (f row) := by
  unfold updateDevice at h
  split at h
  · cases h
  · rename_i row hrow
    cases h
    exact ⟨row, hrow, rfl⟩

theorem createDevice_row {id : Uuid} {row : Device} {w : Realm} {r : Unit × Identity.Db}
    (h : createDevice id row w.db = .ok r) : w.db.devices.lookup id = none ∧
      (∀ k other, w.db.devices.lookup k = some other → other.userId = row.userId →
        other.fingerprint ≠ row.fingerprint) ∧
      { w with db := r.2 } = withDevice w id row := by
  unfold createDevice at h
  split at h
  · cases h
  · rename_i hid
    split at h
    · cases h
    · rename_i hknown
      split at h
      · cases h
      · cases h
        refine ⟨by simpa using hid, fun k other hother huser hfp => ?_, rfl⟩
        have hno := Table.findRow_none (by simpa [findKnown] using hknown) hother
        simp [huser, hfp] at hno

theorem lookup_withDevice (w : Realm) (id : Uuid) (row : Device) :
    (withDevice w id row).db.devices.lookup id = some row := by
  simp [withDevice]

/-- `upsertOnLogin`, before which the devices were left alone. -/
theorem moved_upsertOnLogin {userId newId : Uuid} {f : String} {k : Uuid → Identity.Handler β}
    (hnew : new = some newId) (hfp : fp = some f) (hfirst : Unmoved own)
    (hk : ∀ id own', Upserted userId f id own' → (k id).Does (Moved new fp) Q own')
    (herr : ∀ own' e, Q own' (.error e)) :
    (upsertOnLogin userId f newId >>= k).Does (Moved new fp) Q own := by
  simp only [upsertOnLogin, bind_assoc]
  refine does_query fun w => ?_
  cases hknown : findKnown userId f w.db with
  | some found =>
    obtain ⟨id, row⟩ := found
    obtain ⟨hrow, huser, hprint⟩ := findKnown_some hknown
    simp only [bind_assoc, pure_bind]
    refine does_transaction (fun w₁ r hr => ?_) fun w₁ e _ => herr _ e
    obtain ⟨row₁, hrow₁, hdb⟩ := updateDevice_row hr
    rw [hdb]
    refine ⟨.renewed hrow₁, hk id _ ⟨⟨(w, w), by simp, row, hrow, huser, hprint⟩, ?_⟩⟩
    exact ⟨_, List.mem_cons_self, _, lookup_withDevice _ _ _, rfl⟩
  | none =>
    simp only [bind_assoc, pure_bind]
    refine does_transaction (fun w₁ r hr => ?_) fun w₁ e _ => herr _ e
    obtain ⟨hnone, hfree, hdb⟩ := createDevice_row hr
    rw [hdb]
    have hunmoved : Unmoved ((w, w) :: own) := List.forall_mem_cons.2 ⟨rfl, hfirst⟩
    refine ⟨.added hnew hfp hnone hfree hunmoved, hk newId _ ⟨?_, ?_⟩⟩
    · exact ⟨_, List.mem_cons_self, _, lookup_withDevice _ _ _, rfl, rfl⟩
    · exact ⟨_, List.mem_cons_self, _, lookup_withDevice _ _ _, rfl⟩

theorem moved_markTrusted {id userId : Uuid} {f : String} {k : Unit → Identity.Handler β}
    (hfp : fp = some f) (hup : Upserted userId f id own)
    (hk : ∀ w row, w.db.devices.lookup id = some row → (k ()).Does (Moved new fp) Q
      ((w, withDevice w id { row with trusted := true }) :: own))
    (herr : ∀ own' e, Q own' (.error e)) :
    (markTrusted id >>= k).Does (Moved new fp) Q own := by
  refine does_transaction (fun w r hr => ?_) fun w e _ => herr _ e
  obtain ⟨row, hrow, hdb⟩ := updateDevice_row hr
  rw [hdb]
  exact ⟨.trusted hfp hrow hup, hk w row hrow⟩

/-- A session is made, and the devices are left alone. -/
theorem moved_issueSession {ids : Draws} {input : IssueSessionInput}
    {k : IssueSessionResult → Identity.Handler β}
    (hk : ∀ r own', own <:+ own' → Issuance env now ids input r →
      (k r).Does (Moved new fp) Q own') (herr : ∀ own' e, Q own' (.error e)) :
    (issueSession env now ids input >>= k).Does (Moved new fp) Q own := by
  refine does_issueSession (fun w _ _ => ⟨.still rfl, fun r later hr => hk r _ ?_ hr⟩)
    fun w e => herr _ e
  exact (List.suffix_cons _ _).trans (List.suffix_append later _)

/-- The thread has marked the device as trusted, after it found or added it for the fingerprint. -/
def Marked (userId : Uuid) (fp : String) (id : Uuid) (own : List (Realm × Realm)) : Prop :=
  ∃ later w row before, own = later ++ (w, withDevice w id { row with trusted := true }) :: before ∧
    w.db.devices.lookup id = some row ∧ Upserted userId fp id before

theorem Marked.suffix {userId : Uuid} {f : String} {id : Uuid} {own own' : List (Realm × Realm)}
    (h : Marked userId f id own) (hown' : own <:+ own') : Marked userId f id own' := by
  obtain ⟨later, w, row, before, rfl, hrow, hup⟩ := h
  obtain ⟨more, rfl⟩ := hown'
  exact ⟨more ++ later, w, row, before, by simp, hrow, hup⟩

/-- The end of `mfaVerify` and of the passkey sign-in. -/
theorem moved_trustAndIssue {userId newId : Uuid} {f : String} {role : UserRole} {ids : Draws}
    {Q : List (Realm × Realm) → Except Error IssueSessionResult → Prop}
    (hnew : new = some newId) (hfp : fp = some f) (hfirst : Unmoved own)
    (hok : ∀ own' r, r.session.userId = userId → Marked userId f r.session.deviceId own' →
      Q own' (.ok r)) (herr : ∀ own' e, Q own' (.error e)) :
    (upsertOnLogin userId f newId >>= fun deviceId => markTrusted deviceId >>= fun _ =>
      issueSession env now ids ⟨userId, deviceId, role⟩).Does (Moved new fp) Q own := by
  refine moved_upsertOnLogin hnew hfp hfirst (fun id own₁ hup => ?_) herr
  refine moved_markTrusted hfp hup (fun w row hrow => ?_) herr
  rw [← bind_pure (issueSession env now ids _)]
  refine moved_issueSession (fun r own' hown' hr => hok own' r ?_ ?_) herr
  · rw [hr.session]
    rfl
  · have hmarked : Marked userId f id
        ((w, withDevice w id { row with trusted := true }) :: own₁) :=
      ⟨[], w, row, own₁, rfl, hrow, hup⟩
    rw [hr.session]
    exact hmarked.suffix hown'

/-! ## The services -/

theorem recognize_does {email password f : String} {d : SignInDraws} :
    (recognize env now email password f d).Does (Moved (some d.deviceId) (some f))
      (fun _ _ => True) [] := by
  refine does_query fun w₁ => ?_
  cases w₁.db.users.findRow fun u => env.sameEmail u.email (JsString.trim email) with
  | none => trivial
  | some found =>
    dsimp only
    split
    · trivial
    · split
      · trivial
      · refine does_query fun w₂ => ?_
        split
        · refine moved_upsertOnLogin rfl rfl (by simp [Unmoved]) (fun id own' _ => ?_)
            fun _ _ => trivial
          exact moved_issueSession (fun _ _ _ _ => trivial) fun _ _ => trivial
        · trivial

/-- The device of the session that `mfaVerify` returns is marked. -/
theorem mfaVerify_does {mfaToken : Text} {code f : String} {d : SignInDraws} :
    (Identity.mfaVerify env now mfaToken code f d).Does (Moved (some d.deviceId) (some f))
      (fun own r => ∀ a, r = .ok a → Marked a.session.userId f a.session.deviceId own) [] := by
  have hfail : ∀ (own : List (Realm × Realm)) (e : Error), ∀ a, Except.error e = .ok a →
      Marked (IssueSessionResult.session a).userId f a.session.deviceId own :=
    fun _ _ a h => by cases h
  unfold Identity.mfaVerify
  cases verifyMfa now mfaToken with
  | none => exact hfail _ _
  | some claims =>
    dsimp only
    refine does_verifyCode moved_altered (fun id w₁ w₂ row _ _ _ => ?_) fun later e => hfail _ e
    cases claims.sub with
    | none => exact hfail _ _
    | some sub =>
      dsimp only
      refine does_query fun w₃ => ?_
      cases w₃.db.users.lookup sub with
      | none => exact hfail _ _
      | some user =>
        dsimp only
        refine moved_trustAndIssue rfl rfl ?_ (fun own' r huser hmarked a ha => ?_) hfail
        · exact List.forall_mem_cons.2 ⟨rfl, List.forall_mem_cons.2 ⟨rfl,
            List.forall_mem_cons.2 ⟨rfl, by simp⟩⟩⟩
        · obtain rfl := Except.ok.inj ha
          rw [huser]
          exact hmarked

theorem each_finishAuthentication {handle : Uuid} {credentialId assertion : String} :
    (finishAuthentication env now handle credentialId assertion).Each
      fun w w' => w'.db.devices = w.db.devices := by
  have hquery : ∀ {α : Type} (f : Identity.Db → α), (Identity.query f).Each
      fun w w' => w'.db.devices = w.db.devices := fun f => Prog.each_read _ fun _ => rfl
  refine Prog.each_bind (fun w => ⟨rfl, trivial⟩) fun pending => ?_
  split
  · exact Prog.each_throw _
  · split
    · exact Prog.each_throw _
    · split
      · exact Prog.each_throw _
      · refine Prog.each_bind (hquery _) fun enrollment => ?_
        split
        · exact Prog.each_throw _
        · split
          · exact Prog.each_throw _
          · split
            · exact Prog.each_throw _
            · refine Prog.each_bind (Prog.each_attempt (fun _ => rfl) fun w r hb => ?_)
                fun _ => Prog.each_pure _
              split at hb
              · rename_i r' hr'
                cases hb
                unfold updateEnrollment at hr'
                split at hr'
                · cases hr'
                · cases hr'
                  rfl
              · cases hb

theorem biometricFinish_does {handle : Uuid} {credentialId assertion f : String}
    {d : SignInDraws} :
    (Identity.biometricFinish env now handle credentialId assertion f d).Does
      (Moved (some d.deviceId) (some f)) (fun _ _ => True) [] := by
  refine each_finishAuthentication.does_bind (fun _ _ _ h => .still h) (fun userId later hlater => ?_)
    fun _ _ => trivial
  refine does_query fun w => ?_
  cases w.db.users.lookup userId with
  | none => trivial
  | some user =>
    dsimp only
    split
    · trivial
    · refine moved_trustAndIssue rfl rfl ?_ (fun _ _ _ _ => trivial) fun _ _ => trivial
      rw [List.append_nil]
      exact List.forall_mem_cons.2 ⟨rfl, hlater⟩

/-- The other requests leave the devices alone. -/
theorem respond_moves {c : Request} (hc : c.issues = none) :
    (respond env c).Does (Moved none none) (fun _ _ => True) [] := by
  cases c with
  | login | mfaVerify | biometricFinish => cases hc
  | mfaResend now mfaToken code salt jti =>
    exact does_mfaResend moved_altered (fun _ _ _ => trivial) fun _ _ _ => trivial
  | biometricBegin now handle challenge =>
    exact Prog.does_bind (Prog.does_modify fun w _ => ⟨.still rfl, trivial⟩)
  | rotateRefresh now accessJti refreshJti presented =>
    exact does_rotateRefresh (fun w₁ w₂ w₃ sid read s _ _ _ => ⟨.still rfl, fun _ _ => trivial⟩)
      (fun _ _ => trivial) fun _ _ _ _ _ => trivial
  | setStatus now actorUserId targetUserId freeze =>
    exact does_setStatus (fun w u own' _ => .still rfl) (fun _ _ _ => trivial) fun _ _ _ => trivial
  | beginChallenge now userId scope d =>
    exact does_beginChallenge (fun w₁ w₂ _ => ⟨.still rfl, trivial⟩) fun _ _ => trivial
  | verifyChallenge now userId challengeId code scope jti =>
    exact does_verifyChallenge moved_altered (fun w₁ w₂ row _ _ => trivial) fun _ _ => trivial

/-- A call of the sessions leaves the devices alone, or deletes those of a user. -/
theorem took_moved {c : Identity.Call} {own : List (Realm × Realm)} (h : Took env c own) :
    Moved none none own := by
  cases h with
  | idle h => exact .still (by rw [h])
  | upkeep h => exact .still h.frame.2.2.1
  | issued _ => exact .still rfl
  | rotated _ _ _ => exact .still rfl
  | purged _ => exact .purged _ rfl

end Rules

/-! ## Each call -/

/-- The steps on the realm. -/
def realms (own : List (Lobby × Lobby)) : List (Realm × Realm) :=
  own.map (Prod.map Lobby.realm Lobby.realm)

/-- What a step of a call can do: to the devices, and to the fingerprints of challenges. -/
structure Did (env : Env) (c : Call) (own : List (Lobby × Lobby)) : Prop where
  moved : Moved c.deviceId (c.fingerprint env) (realms own)
  stored : ∀ s s' before, own = (s, s') :: before →
    s'.pendingDeviceFingerprint = s.pendingDeviceFingerprint ∨
      ∃ id fp, c.challengeId = some id ∧ c.fingerprint env = some fp ∧
        s'.pendingDeviceFingerprint = s.pendingDeviceFingerprint.insert id fp

/-- How a call can end: a challenge keeps the fingerprint of its `login`, and `mfaVerify` has marked
the device of the session that it returns. -/
def Vow (env : Env) : Call → List (Lobby × Lobby) → Except Error Answer → Prop
  | .login _ client dto d, own, .ok (.outcome (.mfa _)) => ∃ s s' before, own = (s, s') :: before ∧
      s'.pendingDeviceFingerprint.lookup d.challenge.id =
        some (fingerprint env (loginCtx client dto))
  | .mfaVerify _ client _ _ _, own, .ok (.signedIn issued) =>
    Marked issued.session.userId (fingerprint env (readClientCtx client)) issued.session.deviceId
      (realms own)
  | _, _, _ => True

section Calls

variable {α : Type} {env : Env}

/-- A program on the realm, for a call. -/
theorem does_onRealm {c : Call} {p : Identity.Handler α}
    {Q : List (Realm × Realm) → Except Error α → Prop}
    (hp : p.Does (Moved c.deviceId (c.fingerprint env)) Q []) :
    (onRealm p).Does (Did env c) (fun own r => Q (realms own) r) [] := by
  have hstart : p.Does (Moved c.deviceId (c.fingerprint env)) Q (realms []) := hp
  refine hstart.zoom (fun t s own h => ⟨h, fun s₁ s₂ before heq => ?_⟩) fun own r h => h
  cases heq
  exact .inl rfl

/-- A call that is a program on the realm and an answer. -/
theorem does_answer {c : Call} {p : Identity.Handler α} {f : α → Answer}
    {Q : List (Realm × Realm) → Except Error α → Prop}
    (hp : p.Does (Moved c.deviceId (c.fingerprint env)) Q [])
    (hvow : ∀ own a, Q (realms own) (.ok a) → Vow env c own (.ok (f a)))
    (herr : ∀ own e, Vow env c own (.error e)) :
    (onRealm p >>= fun a => (pure (f a) : Handler Answer)).Does (Did env c) (Vow env c) [] := by
  refine Prog.does_bind ((does_onRealm hp).imp (fun _ h => h) fun own r hr => ?_)
  cases r with
  | ok a => exact hvow own a hr
  | error e => exact herr own e

/-- The challenge of a `login` is stored with the fingerprint. -/
theorem does_createEmailChallenge {now : Instant} {client : Client} {dto : LoginDto}
    {d : SignInDraws} {userId : Uuid} {own : List (Lobby × Lobby)} {k : Uuid → Handler Answer}
    {Q : List (Lobby × Lobby) → Except Error Answer → Prop}
    (hk : ∀ s s', s'.pendingDeviceFingerprint.lookup d.challenge.id =
        some (fingerprint env (loginCtx client dto)) →
      (k d.challenge.id).Does (Did env (.login now client dto d)) Q ((s, s') :: own))
    (herr : ∀ own e, Q own (.error e)) :
    (createEmailChallenge env now d.challenge userId (fingerprint env (loginCtx client dto)) >>=
      k).Does (Did env (.login now client dto d)) Q own := by
  refine Prog.does_bind (Prog.does_attempt (fun s a s' _ hb => ?_) fun s e _ _ => ?_)
  · split at hb
    · cases hb
    · rename_i r hr
      obtain ⟨-, hdb⟩ := createChallengeTx_ok hr
      cases hb
      refine ⟨⟨.still (by simp [hdb]), fun s₁ s₂ before heq => ?_⟩, hk s _ (by simp)⟩
      cases heq
      exact .inr ⟨_, _, rfl, rfl, rfl⟩
  · refine ⟨⟨.still rfl, fun s₁ s₂ before heq => ?_⟩, herr _ e⟩
    cases heq
    exact .inl rfl

/-- **What the calls of sign-in do** to devices, one step at a time, and how they end. -/
theorem handle_does (c : Call) (hok : c.Admissible) :
    (handle env c).Does (Did env c) (Vow env c) [] := by
  cases c with
  | login now client dto d =>
    simp only [handle, login, bind_assoc]
    have hrecognize : (recognize env now dto.email dto.password
        (fingerprint env (loginCtx client dto)) d).Does
        (Moved (Call.login now client dto d).deviceId
          ((Call.login now client dto d).fingerprint env)) (fun _ _ => True) [] := recognize_does
    refine Prog.does_bind ((does_onRealm hrecognize).imp (fun _ h => h) fun own r _ => ?_)
    cases r with
    | error e => trivial
    | ok found =>
      cases found with
      | inl issued => trivial
      | inr userId =>
        simp only [bind_assoc, pure_bind]
        exact does_createEmailChallenge (fun s s' hstored => ⟨s, s', own, rfl, hstored⟩)
          fun _ _ => trivial
  | mfaVerify now client mfaToken code d =>
    exact does_answer mfaVerify_does (fun own a hQ => hQ a rfl) fun _ _ => trivial
  | biometricFinish now client handle credentialId assertion d =>
    exact does_answer biometricFinish_does (fun _ _ _ => trivial) fun _ _ => trivial
  | request c => exact does_answer (respond_moves hok) (fun _ _ _ => trivial) fun _ _ => trivial
  | session c =>
    have hsession : (Identity.handle env c).Does (Moved none none) (fun _ _ => True) [] :=
      (Identity.handle_does env c).imp (fun _ h => took_moved h) fun _ _ _ => trivial
    exact does_answer hsession (fun _ _ _ => trivial) fun _ _ => trivial

end Calls

/-! ## Runs -/

/-- The runs of the calls, in which they interleave. -/
abbrev LobbyRun (env : Env) : Lobby → List (Step Lobby Call) → Pool Lobby Error Answer Call → Prop :=
  Run (fun _ => handle env) Call.Admissible

variable {env : Env} {s₀ : Lobby} {tr : List (Step Lobby Call)} {P : Pool Lobby Error Answer Call}

/-- Every step of a run is one that its call can take. -/
theorem did_of_run (hrun : LobbyRun env s₀ tr P) {later earlier : List (Step Lobby Call)}
    {x : Step Lobby Call} (hsplit : tr = later ++ x :: earlier) :
    Did env x.call ((x.pre, x.post) :: own x.tid earlier) :=
  (hrun.does fun _ c hc => handle_does c hc).1 later x earlier hsplit

/-- Every call that returned ends as vowed. -/
theorem vow_of_run (hrun : LobbyRun env s₀ tr P) {i : ℕ} {c : Call} {a : Answer}
    (hreturned : P.Returned i c a) : Vow env c (own i tr) (.ok a) :=
  (hrun.does fun _ c hc => handle_does c hc).2 i _ hreturned.thread

end BankDemo.Devices
