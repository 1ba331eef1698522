import BankDemo.Sessions.Rules

/-!
# Challenges

`MfaService`: a challenge is a row with the hash of a six-digit code that was sent to the user. The
same rows serve sign-in (`createEmailChallenge`) and elevation (`createSmsChallenge`), and `verify`
takes the identifier of a challenge and a code, whoever asks and whatever for.

How the code travels to the user is left out: a challenge comes with the code that was drawn.
-/

namespace BankDemo.Identity

/-- The random values that a new challenge draws. -/
structure ChallengeDraws where
  id : Uuid
  code : String
  salt : ℕ
  deriving DecidableEq

section

variable (env : Env) (now : Instant)

/-- The row of a new challenge. -/
def challengeRow (d : ChallengeDraws) (userId : Uuid) : MfaChallenge where
  userId
  codeHash := env.argonHash d.salt d.code
  expiresAt := now + env.mfaTtlMs
  attempts := 0
  consumedAt := none

/-- `mfaChallenge.create`. -/
def createChallengeTx (id : Uuid) (row : MfaChallenge) : Tx Unit := fun db =>
  if (db.mfaChallenges.lookup id).isSome then .error .uniqueViolation
  else if (db.users.lookup row.userId).isNone then .error .foreignKey
  else .ok ((), { db with mfaChallenges := db.mfaChallenges.insert id row })

/-- `mfaChallenge.update`. -/
def updateChallenge (id : Uuid) (f : MfaChallenge → MfaChallenge) : Tx Unit := fun db =>
  match db.mfaChallenges.lookup id with
  | none => .error .recordNotFound
  | some row => .ok ((), { db with mfaChallenges := db.mfaChallenges.insert id (f row) })

/-- What `createSmsChallenge` and `createEmailChallenge` share: the row. -/
def createChallenge (d : ChallengeDraws) (userId : Uuid) : Handler Uuid := do
  transaction (createChallengeTx d.id (challengeRow env now d userId))
  return d.id

/-- `createSmsChallenge`. -/
def createSmsChallenge (d : ChallengeDraws) (userId : Uuid) : Handler Uuid :=
  createChallenge env now d userId

/-- `createEmailChallenge`. -/
def createEmailChallenge (d : ChallengeDraws) (userId : Uuid) : Handler Uuid :=
  createChallenge env now d userId

/-- `MfaService.verify`. -/
def verifyCode (challengeId : Option Uuid) (code : String) : Handler Unit := do
  match challengeId with
  | none => throw .validation
  | some id =>
    match ← query fun db => db.mfaChallenges.lookup id with
    | none => throw (.badRequest "Invalid challenge")
    | some challenge =>
      if challenge.consumedAt.isSome then throw (.badRequest "Challenge already used")
      else if challenge.expiresAt < now then throw (.badRequest "Challenge expired")
      else if env.mfaMaxAttempts ≤ challenge.attempts then throw (.badRequest "Too many attempts")
      else if env.argonVerify challenge.codeHash code then
        transaction (updateChallenge id fun c => { c with consumedAt := some now })
      else
        transaction (updateChallenge id fun c => { c with attempts := c.attempts + 1 })
        throw (.badRequest "Invalid code")

/-- `MfaService.resend`. -/
def resendCode (challengeId : Option Uuid) (code : String) (salt : ℕ) : Handler Unit := do
  match challengeId with
  | none => throw .validation
  | some id =>
    match ← query fun db => db.mfaChallenges.lookup id with
    | none => throw (.badRequest "Invalid challenge")
    | some existing =>
      if existing.consumedAt.isSome then throw (.badRequest "Challenge already used")
      else
        transaction (updateChallenge id fun c => { c with
          codeHash := env.argonHash salt code
          expiresAt := now + env.mfaTtlMs
          attempts := 0 })

end

/-! ## Rules -/

theorem createChallengeTx_ok {id : Uuid} {row : MfaChallenge} {db : Db} {r : Unit × Db}
    (h : createChallengeTx id row db = .ok r) : db.mfaChallenges.lookup id = none ∧
      r.2 = { db with mfaChallenges := db.mfaChallenges.insert id row } := by
  unfold createChallengeTx at h
  split at h
  · cases h
  · rename_i hid
    split at h
    · cases h
    · cases h
      exact ⟨by simpa using hid, rfl⟩

theorem updateChallenge_ok {id : Uuid} {f : MfaChallenge → MfaChallenge} {db : Db} {r : Unit × Db}
    (h : updateChallenge id f db = .ok r) : ∃ row, db.mfaChallenges.lookup id = some row ∧
      r.2 = { db with mfaChallenges := db.mfaChallenges.insert id (f row) } := by
  unfold updateChallenge at h
  split at h
  · cases h
  · rename_i row hrow
    cases h
    exact ⟨row, hrow, rfl⟩

/-- The realm with a challenge put in. -/
def Realm.withChallenge (w : Realm) (id : Uuid) (row : MfaChallenge) : Realm :=
  { w with db := { w.db with mfaChallenges := w.db.mfaChallenges.insert id row } }

/-- A challenge is changed, but not whose it is. -/
def Altered (db db' : Db) : Prop :=
  ∃ id row row', db.mfaChallenges.lookup id = some row ∧ row'.userId = row.userId ∧
    db' = { db with mfaChallenges := db.mfaChallenges.insert id row' }

section Rules

variable {β : Type} {G : List (Realm × Realm) → Prop} {own : List (Realm × Realm)}
  {Q : List (Realm × Realm) → Except Error β → Prop} {env : Env} {now : Instant}

theorem does_createChallenge [Idle G] {d : ChallengeDraws} {userId : Uuid} {k : Uuid → Handler β}
    (hok : ∀ w : Realm, w.db.mfaChallenges.lookup d.id = none →
      G ((w, w.withChallenge d.id (challengeRow env now d userId)) :: own) ∧
      (k d.id).Does G Q ((w, w.withChallenge d.id (challengeRow env now d userId)) :: own))
    (herr : ∀ w e, Q ((w, w) :: own) (.error e)) :
    (createChallenge env now d userId >>= k).Does G Q own := by
  simp only [createChallenge, bind_assoc, pure_bind]
  refine does_transaction (fun w r hr => ?_) fun w e _ => herr w e
  obtain ⟨hnone, hdb⟩ := createChallengeTx_ok hr
  rw [hdb]
  exact hok w hnone

theorem does_updateChallenge [Idle G] {id : Uuid} {f : MfaChallenge → MfaChallenge}
    {k : Unit → Handler β} (hf : ∀ row, (f row).userId = row.userId)
    (halter : ∀ (w : Realm) (db : Db), Altered w.db db → G ((w, { w with db }) :: own))
    (hk : ∀ (w : Realm) row, w.db.mfaChallenges.lookup id = some row →
      (k ()).Does G Q ((w, w.withChallenge id (f row)) :: own))
    (herr : ∀ w e, Q ((w, w) :: own) (.error e)) :
    (transaction (updateChallenge id f) >>= k).Does G Q own := by
  refine does_transaction (fun w r hr => ?_) fun w e _ => herr w e
  obtain ⟨row, hrow, hdb⟩ := updateChallenge_ok hr
  rw [hdb]
  exact ⟨halter w _ ⟨id, row, f row, hrow, hf row, rfl⟩, hk w row hrow⟩

/-- `verify` takes at most one action that matters, and succeeds by consuming the challenge. -/
theorem does_verifyCode [Idle G] {challengeId : Option Uuid} {code : String} {k : Unit → Handler β}
    (halter : ∀ (w : Realm) (db : Db) own, Altered w.db db → G ((w, { w with db }) :: own))
    (hk : ∀ id w₁ w₂ row, challengeId = some id → (w₁.db.mfaChallenges.lookup id).isSome →
      w₂.db.mfaChallenges.lookup id = some row →
      (k ()).Does G Q ((w₂, w₂.withChallenge id { row with consumedAt := some now }) ::
        (w₁, w₁) :: own))
    (herr : ∀ later e, Q (later ++ own) (.error e)) :
    (verifyCode env now challengeId code >>= k).Does G Q own := by
  unfold verifyCode
  cases challengeId with
  | none => exact herr [] _
  | some id =>
    simp only [bind_assoc]
    refine does_query fun w₁ => ?_
    have hone : ∀ e, Q ((w₁, w₁) :: own) (.error e) := herr [(w₁, w₁)]
    have htwo : ∀ x e, Q (x :: (w₁, w₁) :: own) (.error e) := fun x => herr [x, (w₁, w₁)]
    cases hfound : w₁.db.mfaChallenges.lookup id with
    | none => exact hone _
    | some challenge =>
      dsimp only
      split
      · exact hone _
      · split
        · exact hone _
        · split
          · exact hone _
          · split
            · refine does_updateChallenge (fun _ => rfl) (fun w db => halter w db _)
                (fun w₂ row hrow => hk id w₁ w₂ row rfl ?_ hrow) fun w₂ e => htwo _ e
              rw [hfound]
              rfl
            · simp only [bind_assoc]
              exact does_updateChallenge (fun _ => rfl) (fun w db => halter w db _)
                (fun w₂ row hrow => htwo _ _) fun w₂ e => htwo _ e

theorem does_resendCode [Idle G] {challengeId : Option Uuid} {code : String} {salt : ℕ}
    {k : Unit → Handler β}
    (halter : ∀ (w : Realm) (db : Db) own, Altered w.db db → G ((w, { w with db }) :: own))
    (hk : ∀ later, (k ()).Does G Q (later ++ own))
    (herr : ∀ later e, Q (later ++ own) (.error e)) :
    (resendCode env now challengeId code salt >>= k).Does G Q own := by
  unfold resendCode
  cases challengeId with
  | none => exact herr [] _
  | some id =>
    simp only [bind_assoc]
    refine does_query fun w₁ => ?_
    cases w₁.db.mfaChallenges.lookup id with
    | none => exact herr [(w₁, w₁)] _
    | some existing =>
      dsimp only
      split
      · exact herr [(w₁, w₁)] _
      · exact does_updateChallenge (fun _ => rfl) (fun w db => halter w db _)
          (fun w₂ row hrow => hk [_, (w₁, w₁)]) fun w₂ e => herr [_, (w₁, w₁)] e

end Rules

end BankDemo.Identity
