import BankDemo.Signup.Rules

/-!
# Contacts and their codes

What is kept between the calls of sign-up, one at a time, of the contacts and the codes sent to
them (`Proven`): an open verification waits for a code that was sent where the codes of its session
go (`Waiting`), and a session that is verified has proved such an address. `Prog.Ensures` says what
each call does; a call that verifies nothing carries the invariant along (`Carries`).
-/

namespace BankDemo.Signup

/-! ## Addresses -/

/-- The contact of a session for a channel. -/
def SignupSession.destination (s : SignupSession) : VerificationChannel → Option Address
  | .email => s.email.map .email
  | .sms => s.phoneE164.map .phone

/-- Where the codes of a session for a channel go. -/
def SignupSession.codeAddress (env : Env) (s : SignupSession) (channel : VerificationChannel) :
    Option Address :=
  if env.twilio then s.destination channel else s.email.map .email

/-- Where `dispatch` sends a code, the session having an e-mail address. -/
def addressOf (env : Env) (email : String) (destination : String) : VerificationChannel → Address
  | .email => .email destination
  | .sms => if env.twilio then .phone destination else .email email

/-- A code that was sent to the address was entered for the session, and accepted. -/
def Presented (tr : List (Step Registry Call)) (id : Uuid) (address : Address) : Prop :=
  ∃ x ∈ tr, ∃ now verificationId code, x.call = .verify now id verificationId code ∧
    ⟨address, code⟩ ∈ x.pre.sent ∧
    (x.post.db.signupSessions.lookup id).map SignupSession.stage = some .verified

theorem Presented.cons {tr : List (Step Registry Call)} {id : Uuid} {address : Address}
    (h : Presented tr id address) (x : Step Registry Call) : Presented (x :: tr) id address := by
  obtain ⟨y, hy, hpresented⟩ := h
  exact ⟨y, List.mem_cons_of_mem x hy, hpresented⟩

/-! ## The invariant -/

/-- The open verification waits for a code that was sent where codes of its session go, and where
the next code for it would go. -/
structure Waiting (env : Env) (w : Registry) (v : Verification) (s : SignupSession)
    (address : Address) : Prop where
  session : w.db.signupSessions.lookup v.signupSessionId = some s
  address_eq : s.codeAddress env v.channel = some address
  next_eq : ∀ email, s.email = some email → addressOf env email v.destination v.channel = address
  sent : ∃ salt code, v.codeHash = env.argonHash salt code ∧ ⟨address, code⟩ ∈ w.sent

/-- What holds between the calls. -/
structure Proven (env : Env) (tr : List (Step Registry Call)) (w : Registry) : Prop where
  email : ∀ id s, w.db.signupSessions.lookup id = some s →
    ∃ email, s.email = some email ∧ email ≠ ""
  waiting : ∀ id v, w.db.verifications.lookup id = some v → v.isOpen = true →
    ∃ s address, Waiting env w v s address
  verified : ∀ id s, w.db.signupSessions.lookup id = some s → AtLeast .verified s.stage →
    ∃ channel address, s.verifiedChannel = some channel ∧ s.codeAddress env channel = some address ∧
      Presented tr id address

theorem Proven.cons {env : Env} {tr : List (Step Registry Call)} {w : Registry}
    (h : Proven env tr w) (x : Step Registry Call) : Proven env (x :: tr) w := by
  refine ⟨h.email, h.waiting, fun id s hs hstage => ?_⟩
  obtain ⟨channel, address, hchannel, haddress, hpresented⟩ := h.verified id s hs hstage
  exact ⟨channel, address, hchannel, haddress, hpresented.cons x⟩

/-- The contacts are the same. -/
structure SameContact (s s' : SignupSession) : Prop where
  email : s'.email = s.email
  phone : s'.phoneE164 = s.phoneE164

theorem SameContact.codeAddress {s s' : SignupSession} (h : SameContact s s') (env : Env)
    (channel : VerificationChannel) : s'.codeAddress env channel = s.codeAddress env channel := by
  cases channel <;> simp [SignupSession.codeAddress, SignupSession.destination, h.email, h.phone]

/-- The change verifies nothing: messages stay, open verifications are old ones whose sessions stay,
and sessions keep their contacts and do not get verified. -/
structure Carries (w w' : Registry) : Prop where
  sent : w'.sent = w.sent
  verifications : ∀ id v', w'.db.verifications.lookup id = some v' → v'.isOpen = true →
    ∃ v, w.db.verifications.lookup id = some v ∧ v.isOpen = true ∧
      v'.signupSessionId = v.signupSessionId ∧ v'.channel = v.channel ∧
      v'.destination = v.destination ∧ v'.codeHash = v.codeHash ∧
      ∀ s, w.db.signupSessions.lookup v.signupSessionId = some s →
        ∃ s', w'.db.signupSessions.lookup v.signupSessionId = some s' ∧ SameContact s s'
  sessions : ∀ id s', w'.db.signupSessions.lookup id = some s' →
    ∃ s, w.db.signupSessions.lookup id = some s ∧ SameContact s s' ∧
      (AtLeast .verified s'.stage → AtLeast .verified s.stage ∧
        s'.verifiedChannel = s.verifiedChannel)

section

variable {env : Env} {tr : List (Step Registry Call)} {w w' : Registry}

theorem Proven.carry (h : Proven env tr w) (hc : Carries w w') : Proven env tr w' := by
  refine ⟨fun id s' hs' => ?_, fun id v' hv' hopen => ?_, fun id s' hs' hstage => ?_⟩
  · obtain ⟨s, hs, hsame, -⟩ := hc.sessions id s' hs'
    rw [hsame.email]
    exact h.email id s hs
  · obtain ⟨v, hv, hvopen, hsid, hchannel, hdest, hhash, hthere⟩ := hc.verifications id v' hv' hopen
    obtain ⟨s, address, hwaiting⟩ := h.waiting id v hv hvopen
    obtain ⟨s', hs', hsame⟩ := hthere s hwaiting.session
    refine ⟨s', address, ?_, ?_, ?_, ?_⟩
    · rw [hsid]
      exact hs'
    · rw [hsame.codeAddress, hchannel]
      exact hwaiting.address_eq
    · rw [hsame.email, hdest, hchannel]
      exact hwaiting.next_eq
    · rw [hhash, hc.sent]
      exact hwaiting.sent
  · obtain ⟨s, hs, hsame, hverified⟩ := hc.sessions id s' hs'
    obtain ⟨hstage', hchannel'⟩ := hverified hstage
    obtain ⟨channel, address, hchannel, haddress, hpresented⟩ := h.verified id s hs hstage'
    exact ⟨channel, address, hchannel'.trans hchannel,
      (hsame.codeAddress env channel).trans haddress, hpresented⟩

/-- The removal of sessions, with their verifications. -/
theorem carries_of_removed {g : Uuid → Bool} (hsent : w'.sent = w.sent)
    (hverifications : ∀ id v, w'.db.verifications.lookup id = some v →
      w.db.verifications.lookup id = some v ∧ g v.signupSessionId = false)
    (hsessions : ∀ id s, w'.db.signupSessions.lookup id = some s →
      w.db.signupSessions.lookup id = some s)
    (hstay : ∀ id s, w.db.signupSessions.lookup id = some s → g id = false →
      w'.db.signupSessions.lookup id = some s) : Carries w w' := by
  refine ⟨hsent, fun id v hv hopen => ?_, fun id s hs => ?_⟩
  · obtain ⟨hv', hgone⟩ := hverifications id v hv
    exact ⟨v, hv', hopen, rfl, rfl, rfl, rfl, fun s hs => ⟨s, hstay _ _ hs hgone, rfl, rfl⟩⟩
  · exact ⟨s, hsessions id s hs, ⟨rfl, rfl⟩, fun h => ⟨h, rfl⟩⟩

theorem carries_of_dropSession {id : Uuid} {r : Unit × Db} (h : dropSession id w.db = .ok r) :
    Carries w { w with db := r.2 } := by
  unfold dropSession at h
  split at h
  · cases h
  · cases h
    refine carries_of_removed (g := fun s => s = id) rfl (fun a v hv => ?_) (fun a s hs => ?_)
      fun a s hs hgone => ?_
    · obtain ⟨hv', hother⟩ := Table.lookup_deleteMany.1 hv
      exact ⟨hv', hother⟩
    · by_cases ha : a = id
      · subst ha
        rw [AList.lookup_erase] at hs
        cases hs
      · rwa [AList.lookup_erase_ne ha] at hs
    · have ha : a ≠ id := by simpa using hgone
      exact (AList.lookup_erase_ne ha).trans hs

theorem carries_of_deleteUserTx {id : Uuid} {email : String} {r : Unit × Db}
    (h : deleteUserTx id email w.db = .ok r) : Carries w { w with db := r.2 } := by
  unfold deleteUserTx at h
  split at h
  · cases h
  · cases h
    refine carries_of_removed (g := fun s =>
      (w.db.signupSessions.lookup s).any fun row => row.email = some email) rfl
      (fun a v hv => Table.lookup_deleteMany.1 hv)
      (fun a s hs => (Table.lookup_deleteMany.1 hs).1) fun a s hs hgone => ?_
    refine Table.lookup_deleteMany.2 ⟨hs, ?_⟩
    simpa [hs] using hgone

/-- A new session, under an id that no session had. -/
theorem Proven.created {id : Uuid} {now : Instant} {input : BeginSignupDto}
    {T : Table Uuid SignupSession} (h : Proven env tr w)
    (hT : Table.Created id (newSession env now input) w.db.signupSessions T) :
    Proven env tr { w with db := { w.db with signupSessions := T } } := by
  have hbefore : ¬ AtLeast .verified .contactCollected := by decide
  refine ⟨fun a s hs => ?_, fun a v hv hopen => ?_, fun a s hs hstage => ?_⟩
  · dsimp only at hs
    rw [hT.lookup] at hs
    split at hs
    · obtain rfl := Option.some.inj hs
      exact ⟨input.email, rfl, input.email_ne⟩
    · exact h.email a s hs
  · obtain ⟨s, address, hwaiting⟩ := h.waiting a v hv hopen
    refine ⟨s, address, ?_, hwaiting.address_eq, hwaiting.next_eq, hwaiting.sent⟩
    have hne : v.signupSessionId ≠ id := fun heq => by
      have hnone := hT.1
      rw [← heq, hwaiting.session] at hnone
      cases hnone
    dsimp only
    rw [hT.lookup, if_neg hne]
    exact hwaiting.session
  · dsimp only at hs
    rw [hT.lookup] at hs
    split at hs
    · obtain rfl := Option.some.inj hs
      exact (hbefore hstage).elim
    · exact h.verified a s hs hstage

/-- No phone number of a session changes while a verification of it is open. -/
def KeepsPhone (w w' : Registry) : Prop :=
  ∀ id s s', w.db.signupSessions.lookup id = some s → w'.db.signupSessions.lookup id = some s' →
    s'.phoneE164 ≠ s.phoneE164 → ∀ a v, w.db.verifications.lookup a = some v →
      v.signupSessionId = id → v.channel = .sms → v.isOpen = false

/-- The write of a repeated `begin`. -/
theorem Proven.startedOver {id : Uuid} {s existing : SignupSession} {input : BeginSignupDto}
    {T : Table Uuid SignupSession} (h : Proven env tr w)
    (hs : w.db.signupSessions.lookup id = some s)
    (hT : Table.Updated id (startOver input existing) w.db.signupSessions T)
    (hphone : env.twilio = true → KeepsPhone w { w with db := { w.db with signupSessions := T } }) :
    Proven env tr { w with db := { w.db with signupSessions := T } } := by
  have hbefore : ¬ AtLeast .verified .contactCollected := by decide
  refine ⟨fun a r hr => ?_, fun a v hv hopen => ?_, fun a r hr hstage => ?_⟩
  · obtain ⟨r', hr', rfl | ⟨-, rfl⟩⟩ := updated_origin hT hr
    · exact h.email a r hr'
    · exact h.email a r' hr'
  · obtain ⟨r, address, hwaiting⟩ := h.waiting a v hv hopen
    by_cases hid : v.signupSessionId = id
    · have hr := hwaiting.session
      rw [hid, hs] at hr
      obtain rfl := Option.some.inj hr
      have hs' : T.lookup id = some (startOver input existing s) := by
        rw [hT.lookup, if_pos rfl, hs]
        rfl
      have haddress : (startOver input existing s).codeAddress env v.channel =
          s.codeAddress env v.channel := by
        by_cases htwilio : env.twilio = true
        · cases hchannel : v.channel with
          | email => rfl
          | sms =>
            by_cases hsame : (startOver input existing s).phoneE164 = s.phoneE164
            · have hcontact : SameContact s (startOver input existing s) := ⟨rfl, hsame⟩
              exact hcontact.codeAddress env .sms
            · have hclosed := hphone htwilio id s _ hs hs' hsame a v hv hid hchannel
              rw [hopen] at hclosed
              cases hclosed
        · simp [SignupSession.codeAddress, htwilio, startOver]
      refine ⟨_, address, ?_, haddress.trans hwaiting.address_eq, hwaiting.next_eq, hwaiting.sent⟩
      rw [hid]
      exact hs'
    · refine ⟨r, address, ?_, hwaiting.address_eq, hwaiting.next_eq, hwaiting.sent⟩
      dsimp only
      rw [hT.lookup, if_neg hid]
      exact hwaiting.session
  · obtain ⟨r', hr', rfl | ⟨rfl, rfl⟩⟩ := updated_origin hT hr
    · exact h.verified a r hr' hstage
    · exact (hbefore hstage).elim

/-- The write of `markVerified`, by a call that entered the code. -/
theorem Proven.verify {id verificationId : Uuid} {s : SignupSession} {now : Instant}
    {channel : VerificationChannel} {address : Address} {code : String} {w₀ : Registry}
    {T : Table Uuid SignupSession} (h : Proven env tr w)
    (hs : w.db.signupSessions.lookup id = some s)
    (hT : Table.Updated id (fun row => { row with
      stage := .verified, verifiedChannel := some channel, verifiedAt := some now })
      w.db.signupSessions T)
    (haddress : s.codeAddress env channel = some address) (hsent : ⟨address, code⟩ ∈ w₀.sent) :
    let w' := { w with db := { w.db with signupSessions := T } }
    Proven env (⟨0, .verify now id verificationId code, w₀, w'⟩ :: tr) w' := by
  intro w'
  have hsame : ∀ row : SignupSession, SameContact row { row with
      stage := .verified, verifiedChannel := some channel, verifiedAt := some now } :=
    fun _ => ⟨rfl, rfl⟩
  refine ⟨fun a r hr => ?_, fun a v hv hopen => ?_, fun a r hr hstage => ?_⟩
  · obtain ⟨r', hr', rfl | ⟨-, rfl⟩⟩ := updated_origin hT hr
    · exact h.email a r hr'
    · exact h.email a r' hr'
  · obtain ⟨r, address', hwaiting⟩ := h.waiting a v hv hopen
    have hlookup : ∃ r', T.lookup v.signupSessionId = some r' ∧ SameContact r r' := by
      rw [hT.lookup, hwaiting.session]
      split
      · exact ⟨_, rfl, hsame r⟩
      · exact ⟨r, rfl, rfl, rfl⟩
    obtain ⟨r', hr', hcontact⟩ := hlookup
    refine ⟨r', address', hr', ?_, ?_, hwaiting.sent⟩
    · rw [hcontact.codeAddress]
      exact hwaiting.address_eq
    · rw [hcontact.email]
      exact hwaiting.next_eq
  · obtain ⟨r', hr', rfl | ⟨rfl, rfl⟩⟩ := updated_origin hT hr
    · obtain ⟨channel', address', hchannel, haddress', hpresented⟩ := h.verified a r hr' hstage
      exact ⟨channel', address', hchannel, haddress', hpresented.cons _⟩
    · obtain rfl := Option.some.inj (hs.symm.trans hr')
      refine ⟨channel, address, rfl, ((hsame s).codeAddress env channel).trans haddress, ?_⟩
      refine ⟨_, List.mem_cons_self, now, verificationId, code, rfl, hsent, ?_⟩
      rw [hr]
      rfl

theorem carries_of_same (hsent : w'.sent = w.sent)
    (hverifications : w'.db.verifications = w.db.verifications)
    (hsessions : w'.db.signupSessions = w.db.signupSessions) : Carries w w' := by
  refine ⟨hsent, fun id v hv hopen => ?_, fun id s hs => ?_⟩
  · rw [hverifications] at hv
    refine ⟨v, hv, hopen, rfl, rfl, rfl, rfl, fun s hs => ⟨s, ?_, rfl, rfl⟩⟩
    rw [hsessions]
    exact hs
  · rw [hsessions] at hs
    exact ⟨s, hs, ⟨rfl, rfl⟩, fun h => ⟨h, rfl⟩⟩

/-- A write to a session that verifies nothing. -/
theorem carries_of_updated {id : Uuid} {f : SignupSession → SignupSession} {s : SignupSession}
    (hs : w.db.signupSessions.lookup id = some s) (hsent : w'.sent = w.sent)
    (hverifications : w'.db.verifications = w.db.verifications)
    (hsessions : Table.Updated id f w.db.signupSessions w'.db.signupSessions)
    (hsame : SameContact s (f s))
    (hverified : AtLeast .verified (f s).stage → AtLeast .verified s.stage ∧
      (f s).verifiedChannel = s.verifiedChannel) : Carries w w' := by
  refine ⟨hsent, fun a v hv hopen => ?_, fun a s' hs' => ?_⟩
  · rw [hverifications] at hv
    refine ⟨v, hv, hopen, rfl, rfl, rfl, rfl, fun r hr => ?_⟩
    rw [hsessions.lookup]
    split
    · rename_i hid
      rw [hid, hs] at hr
      obtain rfl := Option.some.inj hr
      exact ⟨f s, by rw [hid, hs]; rfl, hsame⟩
    · exact ⟨r, hr, rfl, rfl⟩
  · obtain ⟨r, hr, rfl | ⟨rfl, rfl⟩⟩ := updated_origin hsessions hs'
    · exact ⟨s', hr, ⟨rfl, rfl⟩, fun h => ⟨h, rfl⟩⟩
    · obtain rfl := Option.some.inj (hs.symm.trans hr)
      exact ⟨s, hs, hsame, hverified⟩

/-- A write to a verification that keeps its code, if it stays open. -/
theorem carries_of_verification {id : Uuid} {v : Verification} {f : Verification → Verification}
    (hv : w.db.verifications.lookup id = some v)
    (hf : (f v).isOpen = true → v.isOpen = true ∧ (f v).signupSessionId = v.signupSessionId ∧
      (f v).channel = v.channel ∧ (f v).destination = v.destination ∧ (f v).codeHash = v.codeHash) :
    Carries w
      { w with db := { w.db with verifications := w.db.verifications.insert id (f v) } } := by
  refine ⟨rfl, fun a v' hv' hopen => ?_, fun a s hs => ⟨s, hs, ⟨rfl, rfl⟩, fun h => ⟨h, rfl⟩⟩⟩
  dsimp only at hv'
  rw [Table.lookup_insert_ite] at hv'
  split at hv'
  · rename_i hid
    obtain rfl := Option.some.inj hv'
    obtain ⟨hvopen, hsid, hchannel, hdest, hhash⟩ := hf hopen
    exact ⟨v, by rw [hid]; exact hv, hvopen, hsid, hchannel, hdest, hhash,
      fun s hs => ⟨s, hs, rfl, rfl⟩⟩
  · exact ⟨v', hv', hopen, rfl, rfl, rfl, rfl, fun s hs => ⟨s, hs, rfl, rfl⟩⟩

end

/-! ## Calls, one at a time -/

section Rules

variable {α β : Type} {env : Env} {tr : List (Step Registry Call)} {w : Registry} {id : Uuid}
  {s : SignupSession} {Q : Except Error β → Registry → Prop}

theorem ensures_query {f : Db → α} {k : α → Handler β} (hk : (k (f w.db)).Ensures w Q) :
    (query f >>= k).Ensures w Q :=
  Prog.ensures_bind hk

theorem ensures_transaction {body : Tx α} {k : α → Handler β}
    (hok : ∀ r, body w.db = .ok r → (k r.1).Ensures { w with db := r.2 } Q)
    (herr : ∀ e, Q (.error e) w) : (transaction body >>= k).Ensures w Q := by
  refine Prog.ensures_bind (Prog.ensures_attempt (fun a w' hb => ?_) fun e _ => herr e)
  split at hb
  · rename_i r hr
    cases hb
    exact hok r hr
  · cases hb

/-- `load`, then more: the copy is the row that is there. -/
theorem ensures_load {now : Instant} {k : SignupSession → Handler β}
    (hk : ∀ s, w.db.signupSessions.lookup id = some s → (k s).Ensures w Q)
    (herr : ∀ e, Q (.error e) w) : (load now id >>= k).Ensures w Q := by
  simp only [load, bind_assoc]
  refine ensures_query ?_
  cases hs : w.db.signupSessions.lookup id with
  | none => exact Prog.ensures_throw (herr _)
  | some s =>
    simp only
    split
    · exact Prog.ensures_throw (herr _)
    · split
      · exact Prog.ensures_throw (herr _)
      · exact hk s hs

theorem ensures_require {actual required : SignupStage} {k : Unit → Handler β}
    (hk : AtLeast required actual → (k ()).Ensures w Q) (herr : ∀ e, Q (.error e) w) :
    (requireStageAtLeast actual required >>= k).Ensures w Q := by
  unfold requireStageAtLeast
  split
  · exact Prog.ensures_throw (herr _)
  · rename_i hlt
    exact hk (not_lt.1 hlt)

/-- The handler, alone, keeps the invariant. -/
def Safe (env : Env) (tr : List (Step Registry Call)) (w : Registry) (p : Handler α) : Prop :=
  p.Ensures w fun _ w' => Proven env tr w'

/-- A transaction that verifies nothing, then more. -/
theorem safe_transaction {body : Tx α} {k : α → Handler β} (h : Proven env tr w)
    (hbody : ∀ r, body w.db = .ok r → Carries w { w with db := r.2 })
    (hk : ∀ a w', Proven env tr w' → Safe env tr w' (k a)) :
    Safe env tr w (transaction body >>= k) :=
  ensures_transaction (fun r hr => hk _ _ (h.carry (hbody r hr))) fun _ => h

/-- A write to the session that verifies nothing, then more. -/
theorem safe_update {f : SignupSession → SignupSession} {k : SignupSession → Handler β}
    (h : Proven env tr w) (hs : w.db.signupSessions.lookup id = some s)
    (hsame : SameContact s (f s))
    (hverified : AtLeast .verified (f s).stage → AtLeast .verified s.stage ∧
      (f s).verifiedChannel = s.verifiedChannel)
    (hk : ∀ a w', Proven env tr w' → Safe env tr w' (k a)) :
    Safe env tr w (transaction (updateSession id f) >>= k) := by
  refine safe_transaction h (fun r hr => ?_) hk
  obtain ⟨T, hdb, hT⟩ := updateSession_ok hr
  rw [hdb]
  exact carries_of_updated hs rfl rfl hT hsame hverified

/-- A step that wants a verified session, then more. -/
theorem safe_step {required : SignupStage} {f : SignupSession → SignupSession}
    {k : SignupSession → Handler β} (h : Proven env tr w)
    (hs : w.db.signupSessions.lookup id = some s) (hrequired : AtLeast .verified required)
    (hstage : AtLeast required s.stage) (hsame : SameContact s (f s))
    (hchannel : (f s).verifiedChannel = s.verifiedChannel)
    (hk : ∀ a w', Proven env tr w' → Safe env tr w' (k a)) :
    Safe env tr w (transaction (updateSession id f) >>= k) :=
  safe_update h hs hsame (fun _ => ⟨hrequired.trans hstage, hchannel⟩) hk

/-! The later steps -/

variable {k : SignupSession → Handler β}

theorem safe_advance {required : SignupStage} {f : SignupSession → SignupSession}
    (h : Proven env tr w) (hs : w.db.signupSessions.lookup id = some s)
    (hrequired : AtLeast .verified required) (hsame : SameContact s (f s))
    (hchannel : (f s).verifiedChannel = s.verifiedChannel)
    (hk : ∀ a w', Proven env tr w' → Safe env tr w' (k a)) :
    Safe env tr w (advance id s required f >>= k) := by
  simp only [advance, bind_assoc]
  exact ensures_require (fun hstage => safe_step h hs hrequired hstage hsame hchannel hk) fun _ => h

theorem safe_setDob {dob : Option Instant} (h : Proven env tr w)
    (hs : w.db.signupSessions.lookup id = some s)
    (hk : ∀ a w', Proven env tr w' → Safe env tr w' (k a)) :
    Safe env tr w (setDob id s dob >>= k) := by
  simp only [setDob, bind_assoc]
  refine ensures_require (fun hstage => ?_) fun _ => h
  cases dob with
  | none => exact Prog.ensures_throw h
  | some date => exact safe_step h hs (by decide) hstage ⟨rfl, rfl⟩ rfl hk

theorem safe_setDetails {d : DetailsDto} (h : Proven env tr w)
    (hs : w.db.signupSessions.lookup id = some s)
    (hk : ∀ a w', Proven env tr w' → Safe env tr w' (k a)) :
    Safe env tr w (setDetails id s d >>= k) := by
  simp only [setDetails, bind_assoc]
  refine ensures_require (fun hstage => ?_) fun _ => h
  split
  · exact Prog.ensures_throw h
  · exact safe_step h hs (by decide) hstage ⟨rfl, rfl⟩ rfl hk

theorem safe_setSsn {iv : ℕ} {ssnPlain : String} (h : Proven env tr w)
    (hs : w.db.signupSessions.lookup id = some s)
    (hk : ∀ a w', Proven env tr w' → Safe env tr w' (k a)) :
    Safe env tr w (setSsn id s env iv ssnPlain >>= k) := by
  simp only [setSsn, bind_assoc]
  refine ensures_require (fun hstage => ?_) fun _ => h
  split
  · exact Prog.ensures_throw h
  · simp only [bind_assoc]
    refine ensures_query ?_
    split
    · exact Prog.ensures_throw h
    · exact safe_step h hs (by decide) hstage ⟨rfl, rfl⟩ rfl hk

theorem safe_markDocsSubmitted (h : Proven env tr w) (hs : w.db.signupSessions.lookup id = some s)
    (hk : ∀ a w', Proven env tr w' → Safe env tr w' (k a)) :
    Safe env tr w (markDocsSubmitted id s >>= k) := by
  simp only [markDocsSubmitted, bind_assoc]
  refine ensures_require (fun hstage => ensures_query ?_) fun _ => h
  split
  · exact Prog.ensures_throw h
  · exact safe_step h hs (by decide) hstage ⟨rfl, rfl⟩ rfl hk

/-! Codes -/

section Codes

variable {k : Unit → Handler β} {now : Instant} {channel : VerificationChannel}
  {destination email : String} {d : CodeDraws}

/-- The registry after a code was handed over for the address. -/
def Registry.coded (w : Registry) (address : Address) (code : String) : Registry :=
  { w with sent := w.sent ++ [⟨address, code⟩] }

/-- `dispatch`, then more: the code is handed over for one address, also if the provider fails. -/
theorem ensures_dispatch {sms : Except Error Unit} {code : String} (hemail : email ≠ "")
    (hk : (k ()).Ensures (w.coded (addressOf env email destination channel) code) Q)
    (herr : ∀ e, Q (.error e) (w.coded (addressOf env email destination channel) code)) :
    (dispatch env sms channel destination code (some email) >>= k).Ensures w Q := by
  cases channel with
  | email => exact Prog.ensures_bind hk
  | sms =>
    by_cases htwilio : env.twilio = true
    · simp only [addressOf, htwilio, if_true] at hk herr
      simp only [dispatch, smsSend, htwilio, not_true_eq_false, false_and, if_false, if_true,
        bind_assoc]
      refine Prog.ensures_bind ?_
      cases sms with
      | ok u => exact hk
      | error e => exact Prog.ensures_throw (herr e)
    · simp only [addressOf, htwilio, if_false, Bool.false_eq_true] at hk
      simp only [dispatch, htwilio, hemail, not_false_eq_true, ne_eq, and_self, if_true,
        Bool.false_eq_true]
      exact Prog.ensures_bind hk

/-- A code for a verification: the row waits for it where the session gets its codes. -/
theorem Proven.coded {v : Verification} {address : Address} {salt : ℕ} {code : String}
    (verificationId : Uuid) (h : Proven env tr w)
    (hs : w.db.signupSessions.lookup v.signupSessionId = some s)
    (haddress : s.codeAddress env v.channel = some address)
    (hnext : ∀ email, s.email = some email → addressOf env email v.destination v.channel = address)
    (hhash : v.codeHash = env.argonHash salt code) :
    Proven env tr ({ w with db := { w.db with
      verifications := w.db.verifications.insert verificationId v } }.coded address code) := by
  refine ⟨h.email, fun a v' hv' hopen => ?_, h.verified⟩
  simp only [Registry.coded] at hv'
  rw [Table.lookup_insert_ite] at hv'
  split at hv'
  · obtain rfl := Option.some.inj hv'
    exact ⟨s, address, hs, haddress, hnext, salt, code, hhash, by simp [Registry.coded]⟩
  · obtain ⟨r, address', hwaiting⟩ := h.waiting a v' hv' hopen
    obtain ⟨salt', code', hhash', hsent⟩ := hwaiting.sent
    exact ⟨r, address', hwaiting.session, hwaiting.address_eq, hwaiting.next_eq, salt', code',
      hhash', List.mem_append_left _ hsent⟩

/-- The address of the destination of a session. -/
theorem codeAddress_of_contact (env : Env) (hemail : s.email = some email)
    (hcontact : s.contact channel = some destination) :
    s.codeAddress env channel = some (addressOf env email destination channel) := by
  cases channel with
  | email =>
    simp only [SignupSession.contact] at hcontact
    simp [SignupSession.codeAddress, SignupSession.destination, addressOf, hcontact]
  | sms =>
    simp only [SignupSession.contact] at hcontact
    simp only [SignupSession.codeAddress, SignupSession.destination, addressOf, hcontact, hemail,
      Option.map_some]
    split <;> rfl

theorem createVerification_ok {verificationId : Uuid} {row : Verification} {db : Db} {r : Unit × Db}
    (h : createVerification verificationId row db = .ok r) :
    r.2 = { db with verifications := db.verifications.insert verificationId row } := by
  unfold createVerification at h
  split at h
  · cases h
  · split at h
    · cases h
    · cases h
      rfl

theorem updateVerification_ok {verificationId : Uuid} {f : Verification → Verification} {db : Db}
    {r : Verification × Db} (h : updateVerification verificationId f db = .ok r) :
    ∃ v, db.verifications.lookup verificationId = some v ∧
      r = (f v, { db with verifications := db.verifications.insert verificationId (f v) }) := by
  unfold updateVerification at h
  split at h
  · cases h
  · rename_i v hv
    cases h
    exact ⟨v, hv, rfl⟩

/-- The session is there, with the contact that a verification is made for. -/
structure ContactOf (w : Registry) (id : Uuid) (s : SignupSession) (channel : VerificationChannel)
    (destination : String) : Prop where
  session : w.db.signupSessions.lookup id = some s
  contact : s.contact channel = some destination

theorem safe_issueCode {k : SendResult → Handler β} (h : Proven env tr w)
    (hcontact : ContactOf w id s channel destination)
    (hk : ∀ a w', Proven env tr w' → w'.db.signupSessions = w.db.signupSessions →
      Safe env tr w' (k a)) :
    Safe env tr w (issueCode env now id s channel destination d >>= k) := by
  obtain ⟨email, hemail, hne⟩ := h.email id s hcontact.session
  have haddress := codeAddress_of_contact env hemail hcontact.contact
  simp only [issueCode, bind_assoc, pure_bind, hemail]
  refine ensures_transaction (fun r hr => ?_) fun _ => h
  rw [createVerification_ok hr]
  have hnext : ∀ email', s.email = some email' →
      addressOf env email' destination channel = addressOf env email destination channel := by
    intro email' hemail'
    rw [Option.some.inj (hemail.symm.trans hemail')]
  have hcoded := h.coded (v := newVerification env now id channel destination d) d.verificationId
    hcontact.session haddress hnext rfl
  exact ensures_dispatch hne (hk _ _ hcoded rfl) fun _ => hcoded

theorem not_isOpen_retired (existing row : Verification) :
    (retired now existing row).isOpen = false := by
  unfold retired
  split <;> simp [Verification.isOpen]

theorem safe_send {k : SendResult → Handler β} (h : Proven env tr w)
    (hs : w.db.signupSessions.lookup id = some s)
    (hk : ∀ a w', Proven env tr w' → w'.db.signupSessions = w.db.signupSessions →
      Safe env tr w' (k a)) :
    Safe env tr w (send env now id s channel d >>= k) := by
  simp only [send, getDestination]
  split
  · rename_i destination hcontact
    split
    · exact Prog.ensures_throw h
    · simp only [bind_assoc, pure_bind]
      refine ensures_query ?_
      split
      · split
        · exact hk _ _ h rfl
        · simp only [bind_assoc]
          refine ensures_transaction (fun r hr => ?_) fun _ => h
          obtain ⟨v, hv, rfl⟩ := updateVerification_ok hr
          refine safe_issueCode (h.carry (carries_of_verification hv fun hopen => ?_))
            ⟨hs, hcontact⟩ hk
          rw [not_isOpen_retired] at hopen
          cases hopen
      · exact safe_issueCode h ⟨hs, hcontact⟩ hk
  · exact Prog.ensures_throw h

theorem safe_markChannelChosen (h : Proven env tr w) (hs : w.db.signupSessions.lookup id = some s)
    (hk : ∀ w', Proven env tr w' → Safe env tr w' (k ())) :
    Safe env tr w (markChannelChosen id s >>= k) := by
  simp only [markChannelChosen, bind_assoc]
  refine ensures_require (fun _ => ?_) fun _ => h
  split
  · simp only [bind_assoc, pure_bind]
    have hbefore : ¬ AtLeast .verified .channelChosen := by decide
    exact safe_update h hs ⟨rfl, rfl⟩ (fun hstage => (hbefore hstage).elim) fun _ => hk
  · exact hk w h

/-- `ownVerification`, then more: the copy is the row that is there, and of the session. -/
theorem ensures_ownVerification {verificationId : Uuid} {k : Verification → Handler β}
    (hk : ∀ v, w.db.verifications.lookup verificationId = some v → v.signupSessionId = id →
      (k v).Ensures w Q) (herr : ∀ e, Q (.error e) w) :
    (ownVerification id verificationId >>= k).Ensures w Q := by
  simp only [ownVerification, bind_assoc]
  refine ensures_query ?_
  cases hv : w.db.verifications.lookup verificationId with
  | none => exact Prog.ensures_throw (herr _)
  | some v =>
    simp only
    split
    · exact Prog.ensures_throw (herr _)
    · rename_i hid
      exact hk v hv (not_not.1 hid)

theorem isOpen_of_not {v : Verification} (hconsumed : ¬ v.consumedAt.isSome = true)
    (hsuperseded : ¬ v.supersededAt.isSome = true) : v.isOpen = true := by
  simp only [Option.not_isSome_iff_eq_none] at hconsumed hsuperseded
  simp [Verification.isOpen, hconsumed, hsuperseded]

theorem safe_resend {verificationId : Uuid} {k : ℤ → Handler β} (h : Proven env tr w)
    (hs : w.db.signupSessions.lookup id = some s)
    (hk : ∀ a w', Proven env tr w' → Safe env tr w' (k a)) :
    Safe env tr w (resend env now id s verificationId d >>= k) := by
  obtain ⟨email, hemail, hne⟩ := h.email id s hs
  simp only [resend, bind_assoc]
  refine ensures_ownVerification (fun v hv hid => ?_) fun _ => h
  split
  · exact Prog.ensures_throw h
  · rename_i hconsumed
    split
    · exact Prog.ensures_throw h
    · rename_i hsuperseded
      split
      · exact hk _ _ h
      · obtain ⟨s', address, hwaiting⟩ := h.waiting _ v hv (isOpen_of_not hconsumed hsuperseded)
        have hsession := hwaiting.session
        rw [hid, hs] at hsession
        obtain rfl := Option.some.inj hsession
        simp only [bind_assoc, pure_bind, hemail]
        refine ensures_transaction (fun r hr => ?_) fun _ => h
        obtain ⟨v', hv', rfl⟩ := updateVerification_ok hr
        obtain rfl := Option.some.inj (hv.symm.trans hv')
        have hnext := hwaiting.next_eq email hemail
        have hcoded := h.coded (v := recoded env now d v) verificationId hwaiting.session
          hwaiting.address_eq hwaiting.next_eq rfl
        rw [← hnext] at hcoded
        exact ensures_dispatch hne (hk _ _ hcoded) fun _ => hcoded

end Codes

/-! Entering a code -/

/-- The call that enters a code, alone. -/
theorem ensures_verify {now : Instant} {verificationId : Uuid} {code : String}
    (hargon : ∀ salt code text, env.argonVerify (env.argonHash salt code) text = true → text = code)
    (h : Proven env tr w) :
    (handle env (.verify now id verificationId code)).Ensures w fun _ w' =>
      Proven env (⟨0, .verify now id verificationId code, w, w'⟩ :: tr) w' := by
  have hkept : ∀ w', Carries w w' →
      Proven env (⟨0, .verify now id verificationId code, w, w'⟩ :: tr) w' :=
    fun w' hc => (h.carry hc).cons _
  have hsame := hkept w (carries_of_same rfl rfl rfl)
  refine ensures_load (fun s hs => ?_) fun _ => hsame
  simp only [verify, bind_assoc]
  refine ensures_ownVerification (fun v hv hid => ?_) fun _ => hsame
  split
  · exact Prog.ensures_throw hsame
  rename_i hsuperseded
  split
  · exact Prog.ensures_throw hsame
  rename_i hconsumed
  split
  · exact Prog.ensures_throw hsame
  split
  · exact Prog.ensures_throw hsame
  split
  · -- a wrong code
    simp only [bind_assoc]
    refine ensures_transaction (fun r hr => ?_) fun _ => hsame
    obtain ⟨v', hv', rfl⟩ := updateVerification_ok hr
    have hcarries := carries_of_verification
      (f := fun row => { row with attempts := row.attempts + 1 }) hv' fun hopen =>
        ⟨hopen, rfl, rfl, rfl, rfl⟩
    exact Prog.ensures_throw (hkept _ hcarries)
  · rename_i haccepted
    simp only [bind_assoc, pure_bind]
    refine ensures_transaction (fun r hr => ?_) fun _ => hsame
    obtain ⟨v', hv', rfl⟩ := updateVerification_ok hr
    obtain rfl := Option.some.inj (hv.symm.trans hv')
    have hcarries := carries_of_verification
      (f := fun row => { row with consumedAt := some now }) hv
        fun hopen => by simp [Verification.isOpen] at hopen
    have hmid := hkept _ hcarries
    simp only [markVerified, advance, bind_assoc]
    refine ensures_require (fun _ => ?_) fun _ => hmid
    refine ensures_transaction (fun r hr => ?_) fun _ => hmid
    obtain ⟨T, hdb, hT⟩ := updateSession_ok hr
    rw [hdb]
    refine Prog.ensures_pure ?_
    -- the code that was entered is the one that was sent
    obtain ⟨s', address, hwaiting⟩ := h.waiting _ v hv (isOpen_of_not hconsumed hsuperseded)
    have hsession := hwaiting.session
    rw [hid, hs] at hsession
    obtain rfl := Option.some.inj hsession
    obtain ⟨salt, sentCode, hhash, hsent⟩ := hwaiting.sent
    rw [hhash] at haccepted
    obtain rfl := hargon salt sentCode code (not_not.1 haccepted)
    exact (h.carry hcarries).verify hs hT hwaiting.address_eq hsent

/-! Beginning and completing -/

section Ends

variable {now : Instant} {sessionId userId kycId : Uuid} {input : BeginSignupDto}

theorem safe_createSession {k : SignupSession → Handler β} (h : Proven env tr w)
    (hk : ∀ a w', Proven env tr w' → Safe env tr w' (k a)) :
    Safe env tr w (transaction (createSession sessionId (newSession env now input)) >>= k) := by
  refine ensures_transaction (fun r hr => ?_) fun _ => h
  obtain ⟨T, hdb, hT⟩ := createSession_ok hr
  rw [hdb]
  exact hk _ _ (h.created hT)

theorem ensures_openSession {k : Uuid × SignupSession → Handler β} (h : Proven env tr w)
    (hk : ∀ a w', (k a).Ensures w' fun _ w'' => w'' = w') :
    (openSession env now sessionId input >>= k).Ensures w fun _ w' =>
      (env.twilio = true → KeepsPhone w w') → Proven env tr w' := by
  have hsafe : ∀ a w', Proven env tr w' → Safe env tr w' (k a) := fun a w' h' =>
    (hk a w').imp fun r w'' heq => by
      rw [heq]
      exact h'
  simp only [openSession, bind_assoc]
  refine ensures_query ?_
  split
  · rename_i id existing hfound
    split
    · -- a stale session goes first
      simp only [bind_assoc, pure_bind]
      refine Prog.Ensures.imp (Q := fun _ w' => Proven env tr w') ?_ fun _ _ h' _ => h'
      exact safe_transaction h (fun r hr => carries_of_dropSession hr) fun _ w' h' =>
        safe_createSession h' fun _ w'' h'' => hsafe _ w'' h''
    · simp only [bind_assoc, pure_bind]
      refine ensures_transaction (fun r hr => ?_) fun _ _ => h
      obtain ⟨T, hdb, hT⟩ := updateSession_ok hr
      rw [hdb]
      refine (hk _ _).imp fun r w' heq hphone => ?_
      rw [heq] at hphone ⊢
      exact h.startedOver (Table.findRow_some hfound).1 hT hphone
  · simp only [bind_assoc, pure_bind]
    refine Prog.Ensures.imp (Q := fun _ w' => Proven env tr w') ?_ fun _ _ h' _ => h'
    exact safe_createSession h fun _ w' h' => hsafe _ w' h'

theorem ensures_begin {k : Uuid × SignupSession → Handler β} (h : Proven env tr w)
    (hk : ∀ a w', (k a).Ensures w' fun _ w'' => w'' = w') :
    (begin env now sessionId input >>= k).Ensures w fun _ w' =>
      (env.twilio = true → KeepsPhone w w') → Proven env tr w' := by
  simp only [begin, bind_assoc]
  refine ensures_query ?_
  split
  · exact Prog.ensures_throw fun _ => h
  · split
    · exact ensures_openSession h hk
    · simp only [bind_assoc]
      refine ensures_query ?_
      split
      · exact Prog.ensures_throw fun _ => h
      · exact ensures_openSession h hk

theorem ensures_resolve {user : User} {k : Uuid → Handler β} (hstage : s.stage = .docsSubmitted)
    (hemail : s.email = some user.email) (hphone : user.phoneE164 = s.phoneE164)
    (hok : ∀ a w', Completion id userId kycId s w w' → (k a).Ensures w' Q)
    (herr : ∀ e, Q (.error e) w) : (resolve id userId kycId user >>= k).Ensures w Q := by
  refine Prog.ensures_bind (Prog.ensures_attempt (fun a w' hb => ?_) fun e _ => herr e)
  split at hb
  · rename_i r hr
    cases hb
    exact hok _ _ (completion_of_completeTx hstage hemail hphone hr)
  · cases hb

/-- `complete`, then more: alone, it completes the copy or does nothing. -/
theorem ensures_complete {k : Uuid → Handler β}
    (hok : ∀ a w', Completion id userId kycId s w w' → (k a).Ensures w' Q)
    (herr : ∀ e, Q (.error e) w) : (complete id s userId kycId >>= k).Ensures w Q := by
  unfold complete
  split
  · exact Prog.ensures_throw (herr _)
  · rename_i hstage
    split
    · rename_i email passwordHash hemail hhash
      split
      · exact Prog.ensures_throw (herr _)
      · simp only [bind_assoc]
        refine ensures_query ?_
        split
        · exact Prog.ensures_throw (herr _)
        · split
          · exact ensures_resolve (not_not.1 hstage) hemail rfl hok herr
          · simp only [bind_assoc]
            refine ensures_query ?_
            split
            · exact Prog.ensures_throw (herr _)
            · exact ensures_resolve (not_not.1 hstage) hemail rfl hok herr
    · exact Prog.ensures_throw (herr _)

end Ends

end Rules

end BankDemo.Signup
