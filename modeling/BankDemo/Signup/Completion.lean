import BankDemo.Signup.Contacts

/-!
# Sign-ups that complete

The handler of a completion loads the session and calls `complete`. Alone, it either makes a user of a
session that has passed every check (`Completable`), or it does nothing.
-/

namespace BankDemo.Signup

/-- A call of `SignupService.complete`, with the session it loads and the ids it draws. -/
structure CompleteCall where
  now : Instant
  sessionId : Uuid
  userId : Uuid
  kycId : Uuid

/-- The handler of a sign-up's completion. -/
def completeHandler (c : CompleteCall) : Handler Uuid := do
  let session ← load c.now c.sessionId
  complete c.sessionId session c.userId c.kycId

/-- A sign-up that `complete` makes a user of: the checks let it through, and the ids are new. -/
structure Completable (c : CompleteCall) (db : Db) (s : SignupSession) : Prop where
  row : db.signupSessions.lookup c.sessionId = some s
  alive : ¬ s.expiresAt < c.now
  stage : s.stage = .docsSubmitted
  email : JsString.truthy s.email = true
  passwordHash : JsString.truthy s.passwordHash = true
  firstName : JsString.truthy s.firstName = true
  lastName : JsString.truthy s.lastName = true
  newEmail : ∀ u x, db.users.lookup u = some x → some x.email ≠ s.email
  newPhone : ∀ u x, db.users.lookup u = some x → s.phoneE164.isSome → x.phoneE164 ≠ s.phoneE164
  newUser : db.users.lookup c.userId = none
  newRecord : db.kycRecords.lookup c.kycId = none
  noRecord : ∀ k r, db.kycRecords.lookup k = some r → r.userId ≠ c.userId
  noClash : sessionClash db c.sessionId s = false

/-- The sign-up is completable, and completed, or nothing happens. -/
def Finishes (c : CompleteCall) (r : Registry) : Except Error Uuid → Registry → Prop
  | .ok _, r' => ∃ s, Completable c r.db s ∧ Completion c.sessionId c.userId c.kycId s r r'
  | .error _, r' => r' = r

theorem createUser_phone {id : Uuid} {row : User} {db : Db} {r : Unit × Db}
    (h : createUser id row db = .ok r) {u : Uuid} {x : User}
    (hx : db.users.lookup u = some x) (hphone : row.phoneE164.isSome) :
    x.phoneE164 ≠ row.phoneE164 := by
  unfold createUser at h
  split at h
  · cases h
  · split at h
    · cases h
    · split at h
      · cases h
      · rename_i htaken
        intro heq
        rw [hphone, Bool.true_and, Bool.not_eq_true, Option.isSome_eq_false_iff,
          Option.isNone_iff_eq_none] at htaken
        have hfree := Table.findRow_none htaken hx
        simp [heq] at hfree

theorem updateSession_noClash {id : Uuid} {f : SignupSession → SignupSession}
    {db : Db} {r : SignupSession × Db} (h : updateSession id f db = .ok r)
    {s : SignupSession} (hs : db.signupSessions.lookup id = some s) :
    sessionClash db id (f s) = false := by
  unfold updateSession at h
  rw [hs] at h
  dsimp only at h
  split at h
  · cases h
  · rename_i hclash
    simpa using hclash

theorem resolve_finishes {c : CompleteCall} {s : SignupSession} {email passwordHash : String}
    {r : Registry} (hrow : r.db.signupSessions.lookup c.sessionId = some s)
    (halive : ¬ s.expiresAt < c.now) (hstage : s.stage = .docsSubmitted)
    (hemail : s.email = some email) (hhash : s.passwordHash = some passwordHash)
    (hpresent : ¬ (email = "" ∨ passwordHash = "" ∨ ¬ JsString.truthy s.firstName ∨
      ¬ JsString.truthy s.lastName)) :
    (resolve c.sessionId c.userId c.kycId (userOf s email passwordHash)).Ensures r
      (Finishes c r) := by
  refine Prog.ensures_attempt (fun a r' hb => ?_) fun _ _ => rfl
  split at hb
  · rename_i res hres
    have hcompletion : Completion c.sessionId c.userId c.kycId s r { r with db := res.2 } :=
      completion_of_completeTx hstage hemail rfl hres
    obtain ⟨_, db₁, h₁, h⟩ := Prog.body_bind_ok.1 hres
    obtain ⟨_, db₂, h₂, h⟩ := Prog.body_bind_ok.1 h
    obtain ⟨_, db₃, h₃, h⟩ := Prog.body_bind_ok.1 h
    cases h₃
    have hphone := fun u x hx hsome => createUser_phone (u := u) (x := x) h₁ hx hsome
    obtain ⟨hdb₁, hnew, hfree⟩ := createUser_ok h₁
    obtain ⟨hdb₂, hkycNew, hkycFree⟩ := createKycRecord_ok h₂
    simp only at hdb₁ hdb₂
    subst hdb₁ hdb₂
    rw [not_or, not_or, not_or, not_not, not_not] at hpresent
    obtain ⟨hemail', hhash', hfirst, hlast⟩ := hpresent
    cases hb
    refine ⟨s, ⟨hrow, halive, hstage, ?_, ?_, hfirst, hlast, ?_, hphone, hnew, hkycNew, hkycFree, ?_⟩,
      hcompletion⟩
    · simpa [hemail, JsString.truthy] using hemail'
    · simpa [hhash, JsString.truthy] using hhash'
    · intro u x hx heq
      rw [hemail] at heq
      exact hfree u x hx (Option.some.inj heq)
    · -- the transaction changes neither of the unique columns of the session
      dsimp only at h
      split at h
      · rename_i hupdate
        exact updateSession_noClash hupdate hrow
      · cases h
  · cases hb

theorem completeHandler_finishes (c : CompleteCall) (r : Registry) :
    (completeHandler c).Ensures r (Finishes c r) := by
  unfold completeHandler load
  simp only [bind_assoc]
  refine ensures_query ?_
  cases hrow : r.db.signupSessions.lookup c.sessionId with
  | none => exact Prog.ensures_throw rfl
  | some s =>
    simp only
    split
    · exact Prog.ensures_throw rfl
    · rename_i halive
      split
      · exact Prog.ensures_throw rfl
      · unfold complete
        rw [pure_bind]
        split
        · exact Prog.ensures_throw rfl
        · rename_i hstage
          split
          · rename_i email passwordHash hemail hhash
            split
            · exact Prog.ensures_throw rfl
            · rename_i hpresent
              have hresolve := resolve_finishes hrow halive (not_not.1 hstage) hemail hhash hpresent
              refine ensures_query ?_
              split
              · exact Prog.ensures_throw rfl
              · split
                · exact hresolve
                · refine ensures_query ?_
                  split
                  · exact Prog.ensures_throw rfl
                  · exact hresolve
          · exact Prog.ensures_throw rfl

end BankDemo.Signup
