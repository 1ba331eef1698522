import BankDemo.Signup.Completion

/-!
# E-mail addresses in sign-ups

Where the addresses of sessions and users come from: `begin` writes the address of its request to a
new session, `complete` the address of the session to a new user, and no other step writes one.
-/

namespace BankDemo.Signup

/-- The address that a call may write to a session. -/
def Call.typed : Call → Option String
  | .begin _ _ input => some input.email
  | _ => none

/-- No user is new or changed, and a session has the address of one there was, or this one. -/
structure Addressed (typed : Option String) (w w' : Registry) : Prop where
  users : ∀ u x, w'.db.users.lookup u = some x → w.db.users.lookup u = some x
  sessions : ∀ s row email, w'.db.signupSessions.lookup s = some row → row.email = some email →
    typed = some email ∨
      ∃ s' row', w.db.signupSessions.lookup s' = some row' ∧ row'.email = some email

section Addressed

variable {typed : Option String} {w w' : Registry}

theorem addressed_refl (w : Registry) : Addressed typed w w :=
  ⟨fun _ _ h => h, fun s row _ hs he => .inr ⟨s, row, hs, he⟩⟩

theorem Addressed.trans {w₁ w₂ w₃ : Registry} (h : Addressed typed w₁ w₂)
    (h' : Addressed typed w₂ w₃) : Addressed typed w₁ w₃ := by
  refine ⟨fun u x hx => h.users u x (h'.users u x hx), fun s row email hs he => ?_⟩
  rcases h'.sessions s row email hs he with hnew | ⟨s', row', hs', he'⟩
  · exact .inl hnew
  · exact h.sessions s' row' email hs' he'

theorem Aside.addressed (h : Aside w w') : Addressed typed w w' := by
  refine ⟨fun u x hx => ?_, fun s row _ hs he => .inr ⟨s, row, ?_, he⟩⟩
  · rw [← h.users]
    exact hx
  · rw [← h.sessions]
    exact hs

/-- The sessions that are left are as they were, and the users, too. -/
theorem addressed_of_subset
    (husers : ∀ u x, w'.db.users.lookup u = some x → w.db.users.lookup u = some x)
    (hsessions : ∀ s row, w'.db.signupSessions.lookup s = some row →
      w.db.signupSessions.lookup s = some row) : Addressed typed w w' :=
  ⟨husers, fun s row _ hs he => .inr ⟨s, row, hsessions s row hs, he⟩⟩

/-! Each action of a step that makes no user. -/

variable {α : Type} {id : Uuid} {session : SignupSession}

theorem addressed_aside {p : Handler α} (hp : p.Each Aside) : p.Each (Addressed typed) :=
  hp.imp fun _ _ h => h.addressed

theorem addressed_transaction {body : Tx α}
    (hbody : ∀ (w : Registry) r, body w.db = .ok r → Addressed typed w { w with db := r.2 }) :
    (transaction body).Each (Addressed typed) :=
  each_committed addressed_refl hbody

theorem addressed_update {f : SignupSession → SignupSession}
    (hf : ∀ row, (f row).email = row.email) :
    (transaction (updateSession id f)).Each (Addressed typed) := by
  refine addressed_transaction fun w r hr => ?_
  obtain ⟨T, hdb, hT⟩ := updateSession_ok hr
  rw [hdb]
  refine ⟨fun _ _ h => h, fun s row email hs he => .inr ?_⟩
  obtain ⟨row', hrow', rfl | ⟨-, rfl⟩⟩ := updated_origin hT hs
  · exact ⟨s, row, hrow', he⟩
  · exact ⟨s, row', hrow', by rw [← hf]; exact he⟩

theorem addressed_load (now : Instant) (id : Uuid) : (load now id).Each (Addressed typed) := by
  refine Prog.each_bind (addressed_aside (each_query _)) fun s => ?_
  split
  · exact Prog.each_throw _
  · split
    · exact Prog.each_throw _
    · split
      · exact Prog.each_throw _
      · exact Prog.each_pure _

theorem addressed_require (actual required : SignupStage) :
    (requireStageAtLeast actual required).Each (Addressed typed) := by
  unfold requireStageAtLeast
  split
  · exact Prog.each_throw _
  · exact Prog.each_pure _

theorem addressed_advance {required : SignupStage} {f : SignupSession → SignupSession}
    (hf : ∀ row, (f row).email = row.email) :
    (advance id session required f).Each (Addressed typed) :=
  Prog.each_bind (addressed_require _ _) fun _ => addressed_update hf

theorem addressed_markChannelChosen : (markChannelChosen id session).Each (Addressed typed) := by
  refine Prog.each_bind (addressed_require _ _) fun _ => ?_
  split
  · exact Prog.each_bind (addressed_update fun _ => rfl) fun _ => Prog.each_pure _
  · exact Prog.each_pure _

theorem addressed_setDob (dob : Option Instant) :
    (setDob id session dob).Each (Addressed typed) := by
  refine Prog.each_bind (addressed_require _ _) fun _ => ?_
  split
  · exact Prog.each_throw _
  · exact addressed_update fun _ => rfl

theorem addressed_setDetails (d : DetailsDto) :
    (setDetails id session d).Each (Addressed typed) := by
  refine Prog.each_bind (addressed_require _ _) fun _ => ?_
  split
  · exact Prog.each_throw _
  · exact addressed_update fun _ => rfl

theorem addressed_setSsn (env : Env) (iv : ℕ) (ssnPlain : String) :
    (setSsn id session env iv ssnPlain).Each (Addressed typed) := by
  refine Prog.each_bind (addressed_require _ _) fun _ => ?_
  simp only
  split
  · exact Prog.each_throw _
  · refine Prog.each_bind (addressed_aside (each_query _)) fun dup => ?_
    split
    · exact Prog.each_throw _
    · exact addressed_update fun _ => rfl

theorem addressed_markDocsSubmitted : (markDocsSubmitted id session).Each (Addressed typed) := by
  refine Prog.each_bind (addressed_require _ _) fun _ => ?_
  refine Prog.each_bind (addressed_aside (each_query _)) fun missing => ?_
  split
  · exact Prog.each_throw _
  · exact addressed_update fun _ => rfl

theorem addressed_createSession {row : SignupSession} (hrow : row.email = typed) :
    (transaction (createSession id row)).Each (Addressed typed) := by
  refine addressed_transaction fun w r hr => ?_
  obtain ⟨T, hdb, hT⟩ := createSession_ok hr
  rw [hdb]
  refine ⟨fun _ _ h => h, fun s row' email hs he => ?_⟩
  rw [hT.lookup] at hs
  split at hs
  · obtain rfl := Option.some.inj hs
    exact .inl (hrow.symm.trans he)
  · exact .inr ⟨s, row', hs, he⟩

theorem addressed_openSession (env : Env) (now : Instant) (sessionId : Uuid)
    (input : BeginSignupDto) :
    (openSession env now sessionId input).Each (Addressed (some input.email)) := by
  have hcreate : (transaction (createSession sessionId (newSession env now input))).Each
      (Addressed (some input.email)) := addressed_createSession rfl
  refine Prog.each_bind (addressed_aside (each_query _)) fun found => ?_
  split
  · split
    · refine Prog.each_bind (addressed_transaction fun w r hr => ?_) fun _ => ?_
      · obtain ⟨husers, hsessions⟩ := dropSession_ok hr
        exact addressed_of_subset (fun u x hx => by rw [← husers.users]; exact hx) hsessions
      · exact Prog.each_bind hcreate fun _ => Prog.each_pure _
    · exact Prog.each_bind (addressed_update fun _ => rfl) fun _ => Prog.each_pure _
  · exact Prog.each_bind hcreate fun _ => Prog.each_pure _

theorem addressed_begin (env : Env) (now : Instant) (sessionId : Uuid) (input : BeginSignupDto) :
    (begin env now sessionId input).Each (Addressed (some input.email)) := by
  refine Prog.each_bind (addressed_aside (each_query _)) fun existing => ?_
  split
  · exact Prog.each_throw _
  · split
    · exact addressed_openSession env now sessionId input
    · refine Prog.each_bind (addressed_aside (each_query _)) fun taken => ?_
      split
      · exact Prog.each_throw _
      · exact addressed_openSession env now sessionId input

theorem addressed_deleteUser : (deleteUser id).Each (Addressed typed) := by
  refine Prog.each_bind (addressed_aside (each_query _)) fun target => ?_
  split
  · exact Prog.each_throw _
  · refine addressed_transaction fun w r hr => ?_
    obtain ⟨-, -, hsessions⟩ := deleteUserTx_ok hr
    refine addressed_of_subset (fun u x hx => ?_) hsessions
    unfold deleteUserTx at hr
    split at hr
    · cases hr
    · cases hr
      by_cases hu : u = id
      · subst hu
        rw [AList.lookup_erase] at hx
        cases hx
      · rw [AList.lookup_erase_ne hu] at hx
        exact hx

theorem addressed_quietly {p : Handler α} (hp : p.Each (Addressed typed)) :
    (quietly p).Each (Addressed typed) :=
  Prog.each_bind hp fun _ => Prog.each_pure _

end Addressed

/-- The calls that make or change users: `complete`, and those that stand for the admins' services. -/
def Call.makesUser : Call → Bool
  | .complete _ _ _ _ | .addUser _ _ | .editUser _ _ => true
  | _ => false

/-- Every action of a call that makes no user leaves the addresses, but for one that `begin` writes. -/
theorem handle_addressed (env : Env) {c : Call} (hc : c.makesUser = false) :
    (handle env c).Each (Addressed c.typed) := by
  cases c with
  | begin now sessionId input =>
    exact Prog.each_bind (addressed_begin env now sessionId input) fun _ => Prog.each_pure _
  | send now id channel d =>
    refine Prog.each_bind (addressed_load _ _) fun s => ?_
    refine Prog.each_bind (addressed_aside (each_send now id s channel d)) fun _ => ?_
    exact Prog.each_bind addressed_markChannelChosen fun _ => Prog.each_pure _
  | resend now id verificationId d =>
    refine Prog.each_bind (addressed_load _ _) fun s => ?_
    exact Prog.each_bind (addressed_aside (each_resend now id s verificationId d)) fun _ =>
      Prog.each_pure _
  | verify now id verificationId code =>
    refine Prog.each_bind (addressed_load _ _) fun s => ?_
    refine Prog.each_bind (addressed_aside (each_verify now id verificationId code)) fun _ => ?_
    exact Prog.each_bind (addressed_advance fun _ => rfl) fun _ => Prog.each_pure _
  | markChannelChosen now id =>
    exact Prog.each_bind (addressed_load _ _) fun _ => addressed_quietly addressed_markChannelChosen
  | markVerified now id channel =>
    exact Prog.each_bind (addressed_load _ _) fun _ =>
      addressed_quietly (addressed_advance fun _ => rfl)
  | setDob now id dob =>
    exact Prog.each_bind (addressed_load _ _) fun _ => addressed_quietly (addressed_setDob dob)
  | setCard now id cardChoice | setAddress now id addr | setPassword now id salt password =>
    exact Prog.each_bind (addressed_load _ _) fun _ =>
      addressed_quietly (addressed_advance fun _ => rfl)
  | setDetails now id d =>
    exact Prog.each_bind (addressed_load _ _) fun _ => addressed_quietly (addressed_setDetails d)
  | setSsn now id iv ssnPlain =>
    exact Prog.each_bind (addressed_load _ _) fun _ =>
      addressed_quietly (addressed_setSsn env iv ssnPlain)
  | upload now id documentId type contentType sizeBytes =>
    refine Prog.each_bind (addressed_load _ _) fun _ => ?_
    exact Prog.each_bind (addressed_aside (each_upload id documentId type contentType sizeBytes))
      fun _ => Prog.each_pure _
  | markDocsSubmitted now id =>
    exact Prog.each_bind (addressed_load _ _) fun _ =>
      addressed_quietly addressed_markDocsSubmitted
  | deleteUser id => exact addressed_quietly addressed_deleteUser
  | complete | addUser | editUser => cases hc

/-! ## What every address is -/

/-- Every address of a user or a session has the property. -/
structure EveryAddress (φ : String → Prop) (w : Registry) : Prop where
  users : ∀ u x, w.db.users.lookup u = some x → φ x.email
  sessions : ∀ s row email, w.db.signupSessions.lookup s = some row → row.email = some email →
    φ email

section EveryAddress

variable {φ : String → Prop} {typed : Option String} {w w' : Registry}

theorem Addressed.everyAddress (h : Addressed typed w w') (hw : EveryAddress φ w)
    (htyped : ∀ email, typed = some email → φ email) : EveryAddress φ w' := by
  refine ⟨fun u x hx => hw.users u x (h.users u x hx), fun s row email hs he => ?_⟩
  rcases h.sessions s row email hs he with hnew | ⟨s', row', hs', he'⟩
  · exact htyped email hnew
  · exact hw.sessions s' row' email hs' he'

/-- The address of a session that was loaded has the property, whatever happens to the session. -/
theorem keeps_load (now : Instant) (id : Uuid) :
    (load now id).Keeps (EveryAddress φ) fun r => ∀ copy email, r = .ok copy →
      copy.email = some email → φ email := by
  have hfail : ∀ e : Error, (throw e : Handler SignupSession).Keeps (EveryAddress φ)
      fun r => ∀ copy email, r = .ok copy → copy.email = some email → φ email := by
    intro e copy email hr
    cases hr
  refine Prog.keeps_read_bind fun w hw => ?_
  dsimp only
  cases hrow : w.db.signupSessions.lookup id with
  | none => exact hfail _
  | some row =>
    dsimp only
    split
    · exact hfail _
    · split
      · exact hfail _
      · intro copy email hr he
        obtain rfl := Except.ok.inj hr
        exact hw.sessions id row email hrow he

/-- The user that a completion makes has the address of the copy. -/
theorem keeps_resolve {id userId kycId : Uuid} {copy : SignupSession} {user : User}
    (hstage : copy.stage = .docsSubmitted) (hemail : copy.email = some user.email)
    (hphone : user.phoneE164 = copy.phoneE164) (huser : φ user.email) :
    (resolve id userId kycId user).Keeps (EveryAddress φ) fun _ => True := by
  refine Prog.keeps_attempt (fun w a w' hw hb => ⟨?_, trivial⟩) fun _ => trivial
  split at hb
  · rename_i r hr
    cases hb
    have hcompletion := completion_of_completeTx hstage hemail hphone hr
    obtain ⟨made, hmade, -, husers, -⟩ := hcompletion.user
    refine ⟨fun u x hx => ?_, fun s row email hs he => ?_⟩
    · rw [husers, Table.lookup_insert_ite] at hx
      split at hx
      · obtain rfl := Option.some.inj hx
        obtain heq := Option.some.inj (hmade.symm.trans hemail)
        rw [heq]
        exact huser
      · exact hw.users u x hx
    · obtain ⟨row', hrow', rfl | ⟨-, rfl⟩⟩ := updated_origin hcompletion.sessions hs
      · exact hw.sessions s row email hrow' he
      · exact hw.sessions s row' email hrow' he
  · cases hb

theorem keeps_complete {id userId kycId : Uuid} {copy : SignupSession}
    (hcopy : ∀ email, copy.email = some email → φ email) :
    (complete id copy userId kycId).Keeps (EveryAddress φ) fun _ => True := by
  unfold complete
  split
  · exact Prog.keeps_throw trivial
  · rename_i hstage
    split
    · rename_i email passwordHash hemail hhash
      have hresolve : (resolve id userId kycId (userOf copy email passwordHash)).Keeps
          (EveryAddress φ) fun _ => True :=
        keeps_resolve (not_not.1 hstage) hemail rfl (hcopy email hemail)
      split
      · exact Prog.keeps_throw trivial
      · refine Prog.keeps_read_bind fun _ _ => ?_
        split
        · exact Prog.keeps_throw trivial
        · split
          · exact hresolve
          · refine Prog.keeps_read_bind fun _ _ => ?_
            split
            · exact Prog.keeps_throw trivial
            · exact hresolve
    · exact Prog.keeps_throw trivial

/-- A sign-up keeps what every address is, if what `begin` takes is so, too. -/
theorem handle_keeps (env : Env) {c : Call}
    (hc : c.makesUser = true → ∃ now id userId kycId, c = .complete now id userId kycId)
    (htyped : ∀ email, c.typed = some email → φ email) :
    (handle env c).Keeps (EveryAddress φ) fun _ => True := by
  by_cases hmakes : c.makesUser = true
  · obtain ⟨now, id, userId, kycId, rfl⟩ := hc hmakes
    refine Prog.keeps_bind ((keeps_load now id).imp fun r hr => ?_)
    cases r with
    | ok copy =>
      exact (keeps_complete fun email => hr copy email rfl).seq fun _ => Prog.keeps_pure trivial
    | error e => trivial
  · exact (handle_addressed env (by simpa using hmakes)).keeps fun w w' h hw =>
      h.everyAddress hw htyped

end EveryAddress

end BankDemo.Signup
