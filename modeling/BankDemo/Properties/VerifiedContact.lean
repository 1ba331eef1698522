import BankDemo.Signup.Contacts

/-!
# Verified contacts

A session whose stage is `verified` or a later one should have proved the contact it has: a code
that was sent there was entered. Where codes are sent depends on the configuration. Codes for the
e-mail address go there; codes for the phone number go there with Twilio, and to the e-mail address
without it (`SignupSession.codeAddress`), so that then every session proves its e-mail address.

With Twilio this holds as long as no step changes the phone number of a session while a verification
of the number it has is open (`KeepsPhone`).
-/

namespace BankDemo.Signup

section Rules

variable {α β : Type} {env : Env} {tr : List (Step Registry Call)} {w : Registry} {id : Uuid}
  {s : SignupSession}

/-! ## Steps -/

/-- The call writes a stage that the other calls write together with what leads to it. -/
def Call.marks : Call → Bool
  | .markChannelChosen _ _ | .markVerified _ _ _ => true
  | _ => false

theorem carries_of_completion {userId kycId : Uuid} {w' : Registry}
    (hs : w.db.signupSessions.lookup id = some s) (h : Completion id userId kycId s w w') :
    Carries w w' := by
  refine carries_of_updated hs h.sent h.verifications h.sessions ⟨rfl, rfl⟩ fun _ => ⟨?_, rfl⟩
  rw [h.copy_stage]
  decide

theorem safe_quietly {α : Type} {p : Handler α}
    (h : ∀ k : α → Handler Answer, (∀ a w', Proven env tr w' → Safe env tr w' (k a)) →
      Safe env tr w (p >>= k)) : Safe env tr w (quietly p) :=
  h _ fun _ _ h' => Prog.ensures_pure h'

/-- A call that begins by loading the session, and needs no more than the invariant. -/
theorem safe_loading {now : Instant} {k : SignupSession → Handler β} (h : Proven env tr w)
    (hk : ∀ s, w.db.signupSessions.lookup id = some s → Safe env tr w (k s)) :
    Safe env tr w (load now id >>= k) :=
  ensures_load hk fun _ => h

theorem safe_upload {documentId : Uuid} {type : DocumentType} {contentType : String}
    {sizeBytes : ℕ} {k : Uuid → Handler β} (h : Proven env tr w)
    (hk : ∀ a w', Proven env tr w' → Safe env tr w' (k a)) :
    Safe env tr w (upload env id documentId type contentType sizeBytes >>= k) := by
  unfold upload
  split
  · exact Prog.ensures_throw h
  · split
    · exact Prog.ensures_throw h
    · simp only [bind_assoc, pure_bind]
      refine safe_transaction h (fun r hr => ?_) fun _ w' h' => hk _ w' h'
      unfold createDocument at hr
      split at hr
      · cases hr
      · split at hr
        · cases hr
        · cases hr
          exact carries_of_same rfl rfl rfl

/-- A call other than `begin` and `verify` keeps the invariant. -/
theorem safe_handle {c : Call} (h : Proven env tr w) (hmarks : c.marks = false)
    (hbegin : ∀ now sessionId input, c ≠ .begin now sessionId input)
    (hverify : ∀ now id verificationId code, c ≠ .verify now id verificationId code) :
    Safe env tr w (handle env c) := by
  have hdone : ∀ (a : Answer) w', Proven env tr w' → Safe env tr w' (pure a : Handler Answer) :=
    fun a w' h' => Prog.ensures_pure h'
  cases c with
  | begin now sessionId input => exact (hbegin _ _ _ rfl).elim
  | verify now id verificationId code => exact (hverify _ _ _ _ rfl).elim
  | markChannelChosen now id => cases hmarks
  | markVerified now id channel => cases hmarks
  | send now id channel d =>
    refine safe_loading h fun s hs => safe_send h hs fun result w' h' hsessions => ?_
    exact safe_markChannelChosen h' (hsessions ▸ hs) fun w'' h'' => hdone _ w'' h''
  | resend now id verificationId d =>
    exact safe_loading h fun s hs => safe_resend h hs fun _ w' h' => hdone _ w' h'
  | setDob now id dob =>
    exact safe_loading h fun s hs => safe_quietly fun k hk => safe_setDob h hs hk
  | setCard now id cardChoice =>
    exact safe_loading h fun s hs => safe_quietly fun k hk =>
      safe_advance h hs (by decide) ⟨rfl, rfl⟩ rfl hk
  | setAddress now id addr =>
    exact safe_loading h fun s hs => safe_quietly fun k hk =>
      safe_advance h hs (by decide) ⟨rfl, rfl⟩ rfl hk
  | setPassword now id salt password =>
    exact safe_loading h fun s hs => safe_quietly fun k hk =>
      safe_advance h hs (by decide) ⟨rfl, rfl⟩ rfl hk
  | setDetails now id d =>
    exact safe_loading h fun s hs => safe_quietly fun k hk => safe_setDetails h hs hk
  | setSsn now id iv ssnPlain =>
    exact safe_loading h fun s hs => safe_quietly fun k hk => safe_setSsn h hs hk
  | upload now id documentId type contentType sizeBytes =>
    exact safe_loading h fun s hs => safe_upload h fun _ w' h' => hdone _ w' h'
  | markDocsSubmitted now id =>
    exact safe_loading h fun s hs => safe_quietly fun k hk => safe_markDocsSubmitted h hs hk
  | complete now id userId kycId =>
    refine safe_loading h fun s hs => ensures_complete (fun a w' hcompletion => ?_) fun _ => h
    exact hdone _ w' (h.carry (carries_of_completion hs hcompletion))
  | addUser id row =>
    refine safe_quietly fun k hk => safe_transaction h (fun r hr => ?_) hk
    unfold addUser at hr
    split at hr
    · cases hr
    · cases hr
      exact carries_of_same rfl rfl rfl
  | editUser id f =>
    refine safe_quietly fun k hk => safe_transaction h (fun r hr => ?_) hk
    unfold editUser at hr
    split at hr
    · cases hr
    · split at hr
      · cases hr
      · cases hr
        exact carries_of_same rfl rfl rfl
  | deleteUser id =>
    refine safe_quietly fun k hk => ?_
    simp only [deleteUser, bind_assoc]
    refine ensures_query ?_
    cases w.db.users.lookup id with
    | none => exact Prog.ensures_throw h
    | some target => exact safe_transaction h (fun r hr => carries_of_deleteUserTx hr) hk

/-- **Every call keeps the invariant**, if with Twilio it keeps the phone numbers that are being
verified. -/
theorem Proven.step {c : Call}
    (hargon : ∀ salt code text, env.argonVerify (env.argonHash salt code) text = true → text = code)
    (h : Proven env tr w) (hmarks : c.marks = false)
    (hphone : env.twilio = true → KeepsPhone w ((handle env c).run w).2) :
    Proven env (⟨0, c, w, ((handle env c).run w).2⟩ :: tr) ((handle env c).run w).2 := by
  by_cases hverify : ∃ now id verificationId code, c = .verify now id verificationId code
  · obtain ⟨now, id, verificationId, code, rfl⟩ := hverify
    exact ensures_verify hargon h
  by_cases hbegin : ∃ now sessionId input, c = .begin now sessionId input
  · obtain ⟨now, sessionId, input, rfl⟩ := hbegin
    have hstep : (handle env (.begin now sessionId input)).Ensures w fun _ w' =>
        (env.twilio = true → KeepsPhone w w') → Proven env tr w' :=
      ensures_begin h fun _ _ => Prog.ensures_pure rfl
    exact (hstep hphone).cons _
  · push Not at hverify hbegin
    exact Proven.cons (safe_handle h hmarks hbegin hverify) _

/-- A user that the step makes by completing a session has a contact that was proved for it. -/
def Backed (env : Env) (tr : List (Step Registry Call)) (x : Step Registry Call) : Prop :=
  ∀ now id userId kycId user, x.call = .complete now id userId kycId →
    x.pre.db.users.lookup userId = none → x.post.db.users.lookup userId = some user →
    Presented tr id (.email user.email) ∨
      (env.twilio = true ∧ ∃ phone, user.phoneE164 = some phone ∧ Presented tr id (.phone phone))

theorem Backed.cons {x : Step Registry Call} (h : Backed env tr x) (y : Step Registry Call) :
    Backed env (y :: tr) x := by
  intro now id userId kycId user hc hpre hpost
  refine (h now id userId kycId user hc hpre hpost).imp (fun hp => hp.cons y) ?_
  rintro ⟨htwilio, phone, hphone, hp⟩
  exact ⟨htwilio, phone, hphone, hp.cons y⟩

theorem Proven.backed {c : Call} (h : Proven env tr w) :
    Backed env tr ⟨0, c, w, ((handle env c).run w).2⟩ := by
  intro now id userId kycId user hc hpre
  dsimp only at hc hpre ⊢
  subst hc
  have hstep : (handle env (.complete now id userId kycId)).Ensures w fun _ w' =>
      w'.db.users.lookup userId = some user → Presented tr id (.email user.email) ∨
        (env.twilio = true ∧ ∃ phone, user.phoneE164 = some phone ∧
          Presented tr id (.phone phone)) := by
    have hnone : w.db.users.lookup userId = some user → Presented tr id (.email user.email) ∨
        (env.twilio = true ∧ ∃ phone, user.phoneE164 = some phone ∧
          Presented tr id (.phone phone)) := fun hpost => by
      rw [hpre] at hpost
      cases hpost
    refine ensures_load (fun s hs => ?_) fun _ => hnone
    refine ensures_complete (fun a w' hcompletion => ?_) fun _ => hnone
    refine Prog.ensures_pure fun hpost => ?_
    obtain ⟨made, hemail, hphone, husers, -⟩ := hcompletion.user
    rw [husers, AList.lookup_insert] at hpost
    obtain rfl := Option.some.inj hpost
    have hstage : AtLeast .verified s.stage := by
      rw [hcompletion.copy_stage]
      decide
    obtain ⟨channel, address, -, haddress, hpresented⟩ := h.verified id s hs hstage
    cases channel with
    | email =>
      simp only [SignupSession.codeAddress, SignupSession.destination, hemail, Option.map_some,
        ite_self, Option.some.injEq] at haddress
      exact .inl (haddress ▸ hpresented)
    | sms =>
      by_cases htwilio : env.twilio = true
      · simp only [SignupSession.codeAddress, htwilio, if_true, SignupSession.destination,
          Option.map_eq_some_iff] at haddress
        obtain ⟨phone, hs', rfl⟩ := haddress
        exact .inr ⟨htwilio, phone, hphone.trans hs', hpresented⟩
      · simp only [SignupSession.codeAddress, htwilio, hemail, if_false, Option.map_some,
          Bool.false_eq_true, Option.some.injEq] at haddress
        exact .inl (haddress ▸ hpresented)
  exact hstep

end Rules

/-! ## Runs -/

/-- **A verified contact is the current one.** In every sequence of sign-up calls, if with Twilio no
`begin` changes the phone number of a session while a verification of it is open: a session whose
stage is `verified` or later has proved the address where its codes go for the channel it verified,
and a user that `complete` makes has an e-mail address or a phone number that was proved for it. -/
theorem contact_proven (env : Env)
    (hargon : ∀ salt code text, env.argonVerify (env.argonHash salt code) text = true → text = code)
    (s₀ : Registry) (hsessions : s₀.db.signupSessions = ∅)
    (hverifications : s₀.db.verifications = ∅) (tr : List (Step Registry Call)) (w : Registry)
    (hrun : Serial (handle env) s₀ tr w)
    (hmarks : ∀ x ∈ tr, x.call.marks = false)
    (hphone : env.twilio = true → ∀ x ∈ tr, KeepsPhone x.pre x.post) :
    (∀ id s channel, w.db.signupSessions.lookup id = some s → AtLeast .verified s.stage →
      s.verifiedChannel = some channel →
      ∃ address, s.codeAddress env channel = some address ∧ Presented tr id address) ∧
    ∀ x ∈ tr, Backed env tr x := by
  have hall : Proven env tr w ∧ ∀ x ∈ tr, Backed env tr x := by
    induction hrun with
    | start =>
      refine ⟨⟨fun id s hs => ?_, fun id v hv => ?_, fun id s hs => ?_⟩, fun x hx => by cases hx⟩
      · rw [hsessions] at hs
        cases hs
      · rw [hverifications] at hv
        cases hv
      · rw [hsessions] at hs
        cases hs
    | call c seq ih =>
      rw [List.forall_mem_cons] at hmarks
      obtain ⟨hproven, hbacked⟩ := ih hmarks.2 fun htwilio x hx =>
        hphone htwilio x (List.mem_cons_of_mem _ hx)
      refine ⟨hproven.step hargon hmarks.1 fun htwilio => hphone htwilio _ List.mem_cons_self,
        List.forall_mem_cons.2 ⟨hproven.backed.cons _, fun x hx => (hbacked x hx).cons _⟩⟩
  refine ⟨fun id s channel hs hstage hchannel => ?_, hall.2⟩
  obtain ⟨channel', address, hchannel', haddress, hpresented⟩ := hall.1.verified id s hs hstage
  obtain rfl := Option.some.inj (hchannel.symm.trans hchannel')
  exact ⟨address, haddress, hpresented⟩

theorem sampleEnv_argon (salt : ℕ) (code text : String)
    (h : sampleEnv.argonVerify (sampleEnv.argonHash salt code) text = true) : text = code := by
  simp only [sampleEnv, beq_iff_eq] at h
  exact (String.append_right_inj _).1 h.symm

/-- Ann signs up by a code that is sent to her e-mail address. -/
def sampleByEmail : List (Step Registry Call) × Registry :=
  serially (handle sampleEnv) sampleRegistry
    ([sampleBegin, sampleSend .email, sampleVerify] ++ sampleSteps ++ [.complete 0 100 300 301])

theorem contact_proven_sample :
    (sampleByEmail.2.db.users.lookup 300).map User.email = some "ann@example.com" ∧
      Presented sampleByEmail.1 100 (.email "ann@example.com") := by
  refine ⟨by decide +kernel, ?_⟩
  obtain ⟨hsessions, -⟩ := contact_proven sampleEnv sampleEnv_argon sampleRegistry rfl rfl
    sampleByEmail.1 sampleByEmail.2 (serially_serial _ _) (by decide +kernel)
    fun htwilio => absurd htwilio (by decide)
  have hthere : (sampleByEmail.2.db.signupSessions.lookup 100).isSome := by decide +kernel
  obtain ⟨s, hs⟩ := Option.isSome_iff_exists.1 hthere
  have hrow : (sampleByEmail.2.db.signupSessions.lookup 100).map
      (fun s => (s.stage, s.verifiedChannel, s.email)) =
      some (.completed, some .email, some "ann@example.com") := by decide +kernel
  simp only [hs, Option.map_some, Option.some.injEq, Prod.mk.injEq] at hrow
  obtain ⟨hstage, hchannel, hemail⟩ := hrow
  have hverified : AtLeast .verified s.stage := by
    rw [hstage]
    decide
  obtain ⟨address, haddress, hpresented⟩ := hsessions 100 s .email hs hverified hchannel
  simp only [SignupSession.codeAddress, SignupSession.destination, hemail, Option.map_some,
    ite_self, Option.some.injEq] at haddress
  exact haddress ▸ hpresented

/-- Ann asks for a code for her phone number and enters it. -/
def sampleBySms : List (Step Registry Call) × Registry :=
  serially (handle sampleEnv) sampleRegistry [sampleBegin, sampleSend .sms, sampleVerify]

/-- Without Twilio the code for a phone number does not go there. -/
theorem phone_not_proven : ¬ ∀ env : Env,
    (∀ salt code text, env.argonVerify (env.argonHash salt code) text = true → text = code) →
    ∀ tr w, Serial (handle env) sampleRegistry tr w → (∀ x ∈ tr, x.call.marks = false) →
    ∀ id s channel, w.db.signupSessions.lookup id = some s → AtLeast .verified s.stage →
      s.verifiedChannel = some channel →
      ∃ address, s.destination channel = some address ∧ Presented tr id address := by
  intro h
  have hthere : (sampleBySms.2.db.signupSessions.lookup 100).isSome := by decide +kernel
  obtain ⟨s, hs⟩ := Option.isSome_iff_exists.1 hthere
  have hrow : (sampleBySms.2.db.signupSessions.lookup 100).map
      (fun s => (s.stage, s.verifiedChannel, s.phoneE164)) =
      some (.verified, some .sms, some "+15550001") := by decide +kernel
  simp only [hs, Option.map_some, Option.some.injEq, Prod.mk.injEq] at hrow
  obtain ⟨hstage, hchannel, hphone⟩ := hrow
  obtain ⟨address, haddress, hpresented⟩ := h sampleEnv sampleEnv_argon _ _ (serially_serial _ _)
    (show ∀ x ∈ sampleBySms.1, x.call.marks = false by decide +kernel) 100 s .sms hs
    (by rw [hstage]; decide) hchannel
  simp only [SignupSession.destination, hphone, Option.map_some, Option.some.injEq] at haddress
  subst haddress
  have hnone : ∀ x ∈ sampleBySms.1, ∀ m ∈ x.pre.sent, m.to_ ≠ .phone "+15550001" := by
    decide +kernel
  obtain ⟨x, hx, now, verificationId, code, -, hsent, -⟩ := hpresented
  exact hnone x hx _ hsent rfl

end BankDemo.Signup
