import BankDemo.Signup.Contacts

/-!
# The codes of a sign-up

Calls of `send`, `resend` and `verify` on one session, one at a time, at any times. `send` retires the
open verification before it makes a new one, `resend` puts a new code in the open one and starts its
count again, and `verify` counts a wrong code in the row before it answers.

A code is generated when it is handed over for delivery (`generated`), a wrong code is compared when
`verify` answers that it is invalid (`missed`), and `seen` keeps both for a verification. What a call does
is one of six things (`CodeDid`), and each keeps what the rows have to do with what was seen (`Kept`).
-/

namespace BankDemo.Signup

/-! ## Calls -/

/-- The calls on the codes of a session. -/
inductive CodeCall
  | send (now : Instant) (session : SignupSession) (channel : VerificationChannel) (d : CodeDraws)
  | resend (now : Instant) (session : SignupSession) (verificationId : Uuid) (d : CodeDraws)
  | verify (now : Instant) (verificationId : Uuid) (code : String)

inductive CodeAnswer
  | sent (result : SendResult)
  | resent (retryAfterMs : ℤ)
  | verified (channel : VerificationChannel)
  deriving DecidableEq

/-- The handler of a call, for the session with the id. -/
def codeHandle (env : Env) (id : Uuid) : CodeCall → Handler CodeAnswer
  | .send now session channel d => do
    let result ← send env now id session channel d
    return .sent result
  | .resend now session verificationId d => do
    let ms ← resend env now id session verificationId d
    return .resent ms
  | .verify now verificationId code => do
    let channel ← verify env now id verificationId code
    return .verified channel

/-- The verification and the code that a call draws. -/
def CodeCall.draws : CodeCall → Option (Uuid × String)
  | .send _ _ _ d => some (d.verificationId, d.code)
  | .resend _ _ verificationId d => some (verificationId, d.code)
  | .verify _ _ _ => none

/-- What a call answered. -/
def answer (env : Env) (id : Uuid) (x : Step Registry CodeCall) : Except Error CodeAnswer :=
  ((codeHandle env id x.call).run x.pre).1

/-- The verification and the code that a step generated: it handed the code over. -/
def generated (x : Step Registry CodeCall) : Option (Uuid × String) :=
  if x.post.sent = x.pre.sent then none else x.call.draws

/-- The step accepted a code for the verification. -/
def Accepts (env : Env) (id verificationId : Uuid) (x : Step Registry CodeCall) : Prop :=
  ∃ now code channel, x.call = .verify now verificationId code ∧
    answer env id x = .ok (.verified channel)

/-- The step compared a wrong code with the verification. -/
def missed (env : Env) (id verificationId : Uuid) (x : Step Registry CodeCall) : Bool :=
  match x.call with
  | .verify _ k _ => k = verificationId ∧ answer env id x = .error (.badRequest "Invalid code")
  | _ => false

/-- What was seen of a verification. -/
structure CodeSeen where
  /-- the code that was generated last -/
  code : Option String
  /-- how many wrong codes were compared with it -/
  wrong : ℕ
  deriving DecidableEq

/-- What was seen of a verification in the steps of a run. -/
def seen (env : Env) (id verificationId : Uuid) : List (Step Registry CodeCall) → CodeSeen
  | [] => ⟨none, 0⟩
  | x :: earlier =>
    let before := seen env id verificationId earlier
    match generated x with
    | some (k, code) => if k = verificationId then ⟨some code, 0⟩ else before
    | none =>
      if missed env id verificationId x then { before with wrong := before.wrong + 1 } else before

/-! ## What a call does -/

/-- What `latestOpen` finds is an open verification of the session, if there is one. -/
theorem latestOpen_cases (db : Db) (id : Uuid) :
    (∃ k row, latestOpen db id = some (k, row) ∧ db.verifications.lookup k = some row ∧
      row.signupSessionId = id ∧ row.isOpen = true) ∨
    (latestOpen db id = none ∧ ∀ k row, db.verifications.lookup k = some row →
      row.signupSessionId = id → row.isOpen = false) := by
  have hlatest : latestOpen db id = db.verifications.latest
      (fun v => v.signupSessionId = id && v.isOpen) Verification.createdAt := by
    unfold latestOpen Table.latest
    congr 1
    funext best e
    cases best <;> rfl
  rw [hlatest]
  rcases db.verifications.latest_cases (fun v => v.signupSessionId = id && v.isOpen)
    Verification.createdAt with ⟨k, row, hfound, hrow, hopen⟩ | ⟨hfound, hnone⟩
  · rw [Bool.and_eq_true, decide_eq_true_eq] at hopen
    exact .inl ⟨k, row, hfound, hrow, hopen.1, hopen.2⟩
  · refine .inr ⟨hfound, fun k row hrow hid => ?_⟩
    simpa [hid] using hnone k row hrow

/-- The registry with other verifications. -/
def Registry.withVerifications (w : Registry) (verifications : Table Uuid Verification) : Registry :=
  { w with db := { w.db with verifications } }

/-- The registry after a message was handed over. -/
def Registry.handed (w : Registry) (m : CodeMessage) : Registry := { w with sent := w.sent ++ [m] }

/-- `send` has made room for a new verification: none was open, or the one that was is retired. -/
inductive MadeRoom (now : Instant) (id : Uuid) (w : Registry) : Table Uuid Verification → Prop
  | none (hnone : ∀ k row, w.db.verifications.lookup k = some row → row.signupSessionId = id →
      row.isOpen = false) : MadeRoom now id w w.db.verifications
  | retired {k : Uuid} {row : Verification} (hrow : w.db.verifications.lookup k = some row)
      (hid : row.signupSessionId = id) (hopen : row.isOpen = true) :
      MadeRoom now id w (w.db.verifications.insert k (retired now row row))

/-- What a call does. -/
inductive CodeDid (env : Env) (id : Uuid) (w : Registry) :
    CodeCall → Except Error CodeAnswer → Registry → Prop
  | idle {c : CodeCall} {r : Except Error CodeAnswer} (hok : ∀ channel, r ≠ .ok (.verified channel))
      (herr : r = .error (.badRequest "Invalid code") → ∀ now k code, c ≠ .verify now k code) :
      CodeDid env id w c r w
  | madeRoom {now : Instant} {session : SignupSession} {channel : VerificationChannel} {d : CodeDraws}
      {e : Error} {verifications : Table Uuid Verification}
      (hroom : MadeRoom now id w verifications) :
      CodeDid env id w (.send now session channel d) (.error e) (w.withVerifications verifications)
  | issued {now : Instant} {session : SignupSession} {channel : VerificationChannel} {d : CodeDraws}
      {r : Except Error CodeAnswer} {verifications : Table Uuid Verification} {destination : String}
      {m : CodeMessage} (hroom : MadeRoom now id w verifications)
      (hnew : verifications.lookup d.verificationId = none) :
      CodeDid env id w (.send now session channel d) r ((w.withVerifications (verifications.insert
        d.verificationId (newVerification env now id channel destination d))).handed m)
  | recoded {now : Instant} {session : SignupSession} {k : Uuid} {d : CodeDraws}
      {r : Except Error CodeAnswer} {row : Verification} {m : CodeMessage}
      (hrow : w.db.verifications.lookup k = some row) (hid : row.signupSessionId = id)
      (hopen : row.isOpen = true) :
      CodeDid env id w (.resend now session k d) r ((w.withVerifications
        (w.db.verifications.insert k (recoded env now d row))).handed m)
  | missed {now : Instant} {k : Uuid} {code : String} {row : Verification}
      (hrow : w.db.verifications.lookup k = some row) (hid : row.signupSessionId = id)
      (hopen : row.isOpen = true) (hattempts : row.attempts < env.maxAttempts) :
      CodeDid env id w (.verify now k code) (.error (.badRequest "Invalid code"))
        (w.withVerifications (w.db.verifications.insert k { row with attempts := row.attempts + 1 }))
  | accepted {now : Instant} {k : Uuid} {code : String} {row : Verification}
      (hrow : w.db.verifications.lookup k = some row) (hid : row.signupSessionId = id)
      (hopen : row.isOpen = true) (hlive : ¬ row.expiresAt < now)
      (hright : env.argonVerify row.codeHash code = true) :
      CodeDid env id w (.verify now k code) (.ok (.verified row.channel))
        (w.withVerifications (w.db.verifications.insert k { row with consumedAt := some now }))

section Rules

variable {β : Type} {env : Env} {w : Registry} {id : Uuid} {Q : Except Error β → Registry → Prop}

/-- `dispatch`, then more: one message is handed over, also if the provider fails. -/
theorem ensures_dispatched {sms : Except Error Unit} {channel : VerificationChannel}
    {destination code : String} {fallback : Option String} {k : Unit → Handler β}
    (hk : ∀ m, (k ()).Ensures (w.handed m) Q) (herr : ∀ e m, Q (.error e) (w.handed m)) :
    (dispatch env sms channel destination code fallback >>= k).Ensures w Q := by
  have hhanded : ∀ m, (handOver m >>= k).Ensures w Q := fun m => Prog.ensures_bind (hk m)
  have hsms : (smsSend env sms destination code >>= k).Ensures w Q := by
    unfold smsSend
    split
    · rw [bind_assoc]
      refine Prog.ensures_bind ?_
      cases sms with
      | ok u => exact hk _
      | error e => exact Prog.ensures_throw (herr e _)
    · exact hhanded _
  unfold dispatch
  split
  · exact hhanded _
  · split
    · exact hhanded _
    · exact hsms
  · exact hsms

/-- A new verification can be made only under an id that is not taken. -/
theorem createVerification_new {k : Uuid} {row : Verification} {db : Db} {r : Unit × Db}
    (h : createVerification k row db = .ok r) : db.verifications.lookup k = none := by
  unfold createVerification at h
  split at h
  · cases h
  · rename_i hnone
    exact Option.not_isSome_iff_eq_none.1 hnone

variable {now : Instant} {session : SignupSession} {channel : VerificationChannel} {d : CodeDraws}

/-- Once there is room, a code is issued, or the id is taken. -/
theorem ensures_issueCode {verifications : Table Uuid Verification} {destination : String}
    (hroom : MadeRoom now id w verifications) :
    (issueCode env now id session channel destination d >>= fun result =>
      (pure (.sent result) : Handler CodeAnswer)).Ensures (w.withVerifications verifications)
        (CodeDid env id w (.send now session channel d)) := by
  simp only [issueCode, bind_assoc, pure_bind]
  refine ensures_transaction (fun r hr => ?_) fun e => .madeRoom hroom
  have hnew := createVerification_new hr
  rw [createVerification_ok hr]
  exact ensures_dispatched (fun m => .issued hroom hnew) fun e m => .issued hroom hnew

theorem ensures_send : (codeHandle env id (.send now session channel d)).Ensures w
    (CodeDid env id w (.send now session channel d)) := by
  have hidle : ∀ e, CodeDid env id w (.send now session channel d) (.error e) w :=
    fun e => .idle (fun channel h => by cases h) fun _ now k code h => by cases h
  simp only [codeHandle, send, getDestination]
  split
  · rename_i destination hcontact
    split
    · exact Prog.ensures_throw (hidle _)
    · simp only [bind_assoc, pure_bind]
      refine ensures_query ?_
      rcases latestOpen_cases w.db id with ⟨k, row, hfound, hrow, hid, hopen⟩ | ⟨hfound, hnone⟩
      · rw [hfound]
        dsimp only
        split
        · exact .idle (fun channel h => by cases h) fun h => by cases h
        · simp only [bind_assoc]
          refine ensures_transaction (fun r hr => ?_) fun e => hidle e
          obtain ⟨v, hv, rfl⟩ := updateVerification_ok hr
          obtain rfl := Option.some.inj (hrow.symm.trans hv)
          exact ensures_issueCode (.retired hrow hid hopen)
      · rw [hfound]
        exact ensures_issueCode (.none hnone)
  · exact Prog.ensures_throw (hidle _)

theorem ensures_resend {verificationId : Uuid} :
    (codeHandle env id (.resend now session verificationId d)).Ensures w
      (CodeDid env id w (.resend now session verificationId d)) := by
  have hidle : ∀ e, CodeDid env id w (.resend now session verificationId d) (.error e) w :=
    fun e => .idle (fun channel h => by cases h) fun _ now k code h => by cases h
  simp only [codeHandle, resend, bind_assoc]
  refine ensures_ownVerification (fun row hrow hid => ?_) fun e => hidle e
  split
  · exact Prog.ensures_throw (hidle _)
  · rename_i hconsumed
    split
    · exact Prog.ensures_throw (hidle _)
    · rename_i hsuperseded
      have hopen := isOpen_of_not hconsumed hsuperseded
      split
      · exact .idle (fun channel h => by cases h) fun h => by cases h
      · simp only [bind_assoc, pure_bind]
        refine ensures_transaction (fun r hr => ?_) fun e => hidle e
        obtain ⟨v, hv, rfl⟩ := updateVerification_ok hr
        obtain rfl := Option.some.inj (hrow.symm.trans hv)
        exact ensures_dispatched (fun m => .recoded hrow hid hopen)
          fun e m => .recoded hrow hid hopen

/-- An update of a verification that is there, then more. -/
theorem ensures_update {k : Uuid} {f : Verification → Verification} {row : Verification}
    {next : Verification → Handler β} (hrow : w.db.verifications.lookup k = some row)
    (hnext : (next (f row)).Ensures
      (w.withVerifications (w.db.verifications.insert k (f row))) Q) :
    (transaction (updateVerification k f) >>= next).Ensures w Q := by
  refine Prog.ensures_bind (Prog.ensures_attempt (fun a w' hb => ?_) fun e hb => ?_)
  · simp only [updateVerification, hrow] at hb
    cases hb
    exact hnext
  · simp only [updateVerification, hrow] at hb
    cases hb

theorem ensures_verified {verificationId : Uuid} {code : String} :
    (codeHandle env id (.verify now verificationId code)).Ensures w
      (CodeDid env id w (.verify now verificationId code)) := by
  have hidle : ∀ e, e ≠ .badRequest "Invalid code" →
      CodeDid env id w (.verify now verificationId code) (.error e) w :=
    fun e he => .idle (fun channel h => by cases h) fun h => absurd (Except.error.inj h) he
  simp only [codeHandle, verify, ownVerification, bind_assoc]
  refine ensures_query ?_
  cases hrow : w.db.verifications.lookup verificationId with
  | none => exact hidle _ (by simp)
  | some row =>
    dsimp only
    split
    · exact hidle _ (by simp)
    · rename_i hid
      rw [pure_bind]
      split
      · exact hidle _ (by simp)
      · rename_i hsuperseded
        split
        · exact hidle _ (by simp)
        · rename_i hconsumed
          have hopen := isOpen_of_not hconsumed hsuperseded
          split
          · exact hidle _ (by simp)
          · rename_i hlive
            split
            · exact hidle _ (by simp)
            · rename_i hattempts
              split
              · simp only [bind_assoc]
                exact ensures_update hrow (.missed hrow (not_not.1 hid) hopen (not_le.1 hattempts))
              · rename_i hright
                simp only [bind_assoc, pure_bind]
                exact ensures_update hrow
                  (.accepted hrow (not_not.1 hid) hopen hlive (not_not.1 hright))

theorem code_did (env : Env) (id : Uuid) (c : CodeCall) (w : Registry) :
    CodeDid env id w c ((codeHandle env id c).run w).1 ((codeHandle env id c).run w).2 := by
  cases c with
  | send now session channel d => exact ensures_send
  | resend now session verificationId d => exact ensures_resend
  | verify now verificationId code => exact ensures_verified

end Rules

/-! ## What is kept -/

/-- The row has the code that was generated last, and counts the wrong ones. -/
structure Counts (env : Env) (s : CodeSeen) (row : Verification) : Prop where
  code : ∃ salt code, s.code = some code ∧ row.codeHash = env.argonHash salt code
  wrong : s.wrong ≤ row.attempts

/-- What the verifications of the session have to do with what was seen. -/
structure Kept (env : Env) (id : Uuid) (tr : List (Step Registry CodeCall))
    (t : Table Uuid Verification) : Prop where
  single : ∀ k k' row row', t.lookup k = some row → t.lookup k' = some row' →
    row.signupSessionId = id → row'.signupSessionId = id → row.isOpen = true → row'.isOpen = true →
      k = k'
  counts : ∀ k row, t.lookup k = some row → row.signupSessionId = id → row.isOpen = true →
    Counts env (seen env id k tr) row
  bound : ∀ k, (seen env id k tr).wrong ≤ env.maxAttempts
  accepted : ∀ k, (∃ x ∈ tr, Accepts env id k x) → ∃ row, t.lookup k = some row ∧ row.consumedAt.isSome

section Kept

variable {env : Env} {id : Uuid} {tr tr' : List (Step Registry CodeCall)} {t : Table Uuid Verification}

/-- A verification is written. -/
theorem Kept.write (h : Kept env id tr t) {k : Uuid} {row : Verification}
    (hclosed : row.signupSessionId = id → row.isOpen = true → ∀ j other, j ≠ k →
      t.lookup j = some other → other.signupSessionId = id → other.isOpen = false)
    (hcounts : row.signupSessionId = id → row.isOpen = true → Counts env (seen env id k tr') row)
    (hseen : ∀ j, j ≠ k → seen env id j tr' = seen env id j tr)
    (hbound : (seen env id k tr').wrong ≤ env.maxAttempts)
    (hconsumed : ∀ old, t.lookup k = some old → old.consumedAt.isSome → row.consumedAt.isSome)
    (haccepts : ∀ j, (∃ x ∈ tr', Accepts env id j x) → (∃ x ∈ tr, Accepts env id j x) ∨
      j = k ∧ row.consumedAt.isSome) : Kept env id tr' (t.insert k row) := by
  refine ⟨fun j j' other other' hj hj' hid hid' hopen hopen' => ?_, fun j other hj hid hopen => ?_,
    fun j => ?_, fun j hj => ?_⟩
  · rw [Table.lookup_insert_ite] at hj hj'
    split at hj
    · rename_i hjk
      split at hj'
      · rename_i hjk'
        exact hjk.trans hjk'.symm
      · rename_i hne
        cases hj
        rw [hclosed hid hopen j' other' hne hj' hid'] at hopen'
        cases hopen'
    · rename_i hne
      split at hj'
      · cases hj'
        rw [hclosed hid' hopen' j other hne hj hid] at hopen
        cases hopen
      · exact h.single j j' other other' hj hj' hid hid' hopen hopen'
  · rw [Table.lookup_insert_ite] at hj
    split at hj
    · rename_i hjk
      cases hj
      rw [hjk]
      exact hcounts hid hopen
    · rename_i hne
      rw [hseen j hne]
      exact h.counts j other hj hid hopen
  · by_cases hjk : j = k
    · rw [hjk]
      exact hbound
    · rw [hseen j hjk]
      exact h.bound j
  · rw [Table.lookup_insert_ite]
    rcases haccepts j hj with hold | ⟨hjk, hrow⟩
    · obtain ⟨old, hold, hsome⟩ := h.accepted j hold
      by_cases hjk : j = k
      · rw [if_pos hjk]
        exact ⟨row, rfl, hconsumed old (hjk ▸ hold) hsome⟩
      · rw [if_neg hjk]
        exact ⟨old, hold, hsome⟩
    · rw [if_pos hjk]
      exact ⟨row, rfl, hrow⟩

/-- No other verification of the session is open beside an open one. -/
theorem Kept.alone (h : Kept env id tr t) {k : Uuid} {row : Verification} {p q : Prop}
    (hrow : t.lookup k = some row) (hid : row.signupSessionId = id) (hopen : row.isOpen = true) :
    p → q → ∀ j other, j ≠ k → t.lookup j = some other → other.signupSessionId = id →
      other.isOpen = false := by
  intro _ _ j other hne hj hother
  by_contra hnot
  exact hne (h.single j k other row hj hrow hother hid (by simpa using hnot) hopen)

/-- A step that generates, compares and accepts no code. -/
theorem Kept.cons (h : Kept env id tr t) {x : Step Registry CodeCall}
    (hseen : ∀ k, seen env id k (x :: tr) = seen env id k tr)
    (haccepts : ∀ k, ¬ Accepts env id k x) : Kept env id (x :: tr) t := by
  refine ⟨h.single, fun k row hrow hid hopen => ?_, fun k => ?_, fun k hk => ?_⟩
  · rw [hseen]
    exact h.counts k row hrow hid hopen
  · rw [hseen]
    exact h.bound k
  · obtain ⟨y, hy, hyk⟩ := hk
    rcases List.mem_cons.1 hy with rfl | hy
    · exact (haccepts k hyk).elim
    · exact h.accepted k ⟨y, hy, hyk⟩

/-- Once `send` has made room, no verification of the session is open. -/
theorem Kept.madeRoom {now : Instant} {w : Registry} (h : Kept env id tr w.db.verifications)
    (hroom : MadeRoom now id w t) : Kept env id tr t ∧
      ∀ k row, t.lookup k = some row → row.signupSessionId = id → row.isOpen = false := by
  cases hroom with
  | none hnone => exact ⟨h, hnone⟩
  | @retired k row hrow hid hopen =>
    have hclosed : (retired now row row).isOpen = false := not_isOpen_retired row row
    have hold : row.consumedAt = none := by
      simp only [Verification.isOpen, Bool.and_eq_true, Option.isNone_iff_eq_none] at hopen
      exact hopen.1
    refine ⟨h.write (fun _ hnew => ?_) (fun _ hnew => ?_) (fun j _ => rfl) (h.bound k) ?_
      fun j hj => .inl hj, fun j other hj hother => ?_⟩
    · rw [hclosed] at hnew
      cases hnew
    · rw [hclosed] at hnew
      cases hnew
    · intro old hold' hsome
      obtain rfl := Option.some.inj (hrow.symm.trans hold')
      rw [hold] at hsome
      cases hsome
    · rw [Table.lookup_insert_ite] at hj
      split at hj
      · cases hj
        exact hclosed
      · rename_i hne
        exact h.alone hrow hid hopen trivial trivial j other hne hj hother

/-! What a step was seen to do -/

variable {x : Step Registry CodeCall}

theorem seen_same (hsent : x.post.sent = x.pre.sent) (hmissed : ∀ k, missed env id k x = false)
    (k : Uuid) : seen env id k (x :: tr) = seen env id k tr := by
  simp [seen, generated, hsent, hmissed k]

theorem seen_generated {k : Uuid} {code : String} {m : CodeMessage}
    (hdraws : x.call.draws = some (k, code)) (hsent : x.post.sent = x.pre.sent ++ [m]) :
    seen env id k (x :: tr) = ⟨some code, 0⟩ ∧
      ∀ j, j ≠ k → seen env id j (x :: tr) = seen env id j tr := by
  have hgenerated : generated x = some (k, code) := by
    simp [generated, hsent, hdraws]
  refine ⟨?_, fun j hne => ?_⟩
  · simp [seen, hgenerated]
  · simp [seen, hgenerated, Ne.symm hne]

theorem seen_missed {k : Uuid} (hsent : x.post.sent = x.pre.sent)
    (hmissed : ∀ j, missed env id j x = decide (k = j)) :
    seen env id k (x :: tr) = { seen env id k tr with wrong := (seen env id k tr).wrong + 1 } ∧
      ∀ j, j ≠ k → seen env id j (x :: tr) = seen env id j tr := by
  refine ⟨?_, fun j hne => ?_⟩
  · simp [seen, generated, hsent, hmissed k]
  · simp [seen, generated, hsent, hmissed j, Ne.symm hne]

/-- No code is accepted or compared by a call that does not verify. -/
theorem not_verifying (hc : ∀ now k code, x.call ≠ .verify now k code) :
    (∀ k, ¬ Accepts env id k x) ∧ ∀ k, missed env id k x = false := by
  refine ⟨fun k ⟨now, code, channel, hcall, _⟩ => hc now k code hcall, fun k => ?_⟩
  unfold missed
  split
  · rename_i now j code hcall
    exact (hc now j code hcall).elim
  · rfl

theorem accepted_earlier (haccepts : ∀ k, ¬ Accepts env id k x) (k : Uuid)
    (haccepted : ∃ y ∈ x :: tr, Accepts env id k y) : ∃ y ∈ tr, Accepts env id k y := by
  obtain ⟨y, hy, hyk⟩ := haccepted
  rcases List.mem_cons.1 hy with rfl | hy
  · exact (haccepts k hyk).elim
  · exact ⟨y, hy, hyk⟩

/-- A call keeps what is kept. -/
theorem Kept.step (h : Kept env id tr x.pre.db.verifications)
    (hdid : CodeDid env id x.pre x.call (answer env id x) x.post) :
    Kept env id (x :: tr) x.post.db.verifications := by
  generalize hcall : x.call = c at hdid
  generalize hanswer : answer env id x = r at hdid
  generalize hpost : x.post = w' at hdid ⊢
  cases hdid with
  | idle hok herr =>
    refine h.cons (seen_same (by rw [hpost]) fun k => ?_) fun k haccepts => ?_
    · unfold missed
      split
      · rename_i now j code hverify
        rw [hanswer]
        exact decide_eq_false fun hwrong => herr hwrong.2 now j code (hcall.symm.trans hverify)
      · rfl
    · obtain ⟨now, code, channel, -, hok'⟩ := haccepts
      exact hok channel (hanswer.symm.trans hok')
  | madeRoom hroom =>
    obtain ⟨haccepts, hmissed⟩ := not_verifying fun now k code hc => by cases hcall.symm.trans hc
    exact (h.madeRoom hroom).1.cons (seen_same (by rw [hpost]; rfl) hmissed) haccepts
  | @issued now session channel d r verifications destination m hroom hnew =>
    obtain ⟨haccepts, -⟩ := not_verifying fun now k code hc => by cases hcall.symm.trans hc
    obtain ⟨hkept, hclosed⟩ := h.madeRoom hroom
    have hdraws : x.call.draws = some (d.verificationId, d.code) := by
      rw [hcall]
      rfl
    have hsent : x.post.sent = x.pre.sent ++ [m] := by
      rw [hpost]
      rfl
    obtain ⟨hseen, hothers⟩ := seen_generated hdraws hsent
    refine hkept.write (fun _ _ j other _ => hclosed j other) (fun _ _ => ?_) hothers ?_ ?_
      fun j hj => .inl (accepted_earlier haccepts j hj)
    · rw [hseen]
      exact ⟨⟨d.salt, d.code, rfl, rfl⟩, Nat.zero_le _⟩
    · rw [hseen]
      exact Nat.zero_le _
    · intro old hold
      rw [hnew] at hold
      cases hold
  | @recoded now session k d r row m hrow hid hopen =>
    obtain ⟨haccepts, -⟩ := not_verifying fun now k code hc => by cases hcall.symm.trans hc
    have hdraws : x.call.draws = some (k, d.code) := by
      rw [hcall]
      rfl
    have hsent : x.post.sent = x.pre.sent ++ [m] := by
      rw [hpost]
      rfl
    obtain ⟨hseen, hothers⟩ := seen_generated hdraws hsent
    refine h.write (h.alone hrow hid hopen) (fun _ _ => ?_) hothers ?_ ?_
      fun j hj => .inl (accepted_earlier haccepts j hj)
    · rw [hseen]
      exact ⟨⟨d.salt, d.code, rfl, rfl⟩, Nat.zero_le _⟩
    · rw [hseen]
      exact Nat.zero_le _
    · intro old hold hsome
      obtain rfl := Option.some.inj (hrow.symm.trans hold)
      exact hsome
  | @missed now k code row hrow hid hopen hattempts =>
    have hsent : x.post.sent = x.pre.sent := by
      rw [hpost]
      rfl
    have hmissed : ∀ j, missed env id j x = decide (k = j) := by
      intro j
      simp [missed, hcall, hanswer]
    obtain ⟨hseen, hothers⟩ := seen_missed hsent hmissed
    obtain ⟨hcode, hwrong⟩ := h.counts k row hrow hid hopen
    refine h.write (h.alone hrow hid hopen) (fun _ _ => ?_) hothers ?_ ?_
      fun j hj => .inl (accepted_earlier ?_ j hj)
    · rw [hseen]
      exact ⟨hcode, Nat.succ_le_succ hwrong⟩
    · rw [hseen]
      exact Nat.succ_le_of_lt (lt_of_le_of_lt hwrong hattempts)
    · intro old hold hsome
      obtain rfl := Option.some.inj (hrow.symm.trans hold)
      exact hsome
    · rintro j ⟨now', code', channel, -, hok⟩
      cases hanswer.symm.trans hok
  | @accepted now k code row hrow hid hopen hlive hright =>
    have hsame : ∀ j, seen env id j (x :: tr) = seen env id j tr :=
      seen_same (by rw [hpost]; rfl) fun j => by simp [missed, hcall, hanswer]
    refine h.write (fun _ hnew => ?_) (fun _ hnew => ?_) (fun j _ => hsame j) ?_ (fun _ _ _ => rfl) ?_
    · simp [Verification.isOpen] at hnew
    · simp [Verification.isOpen] at hnew
    · rw [hsame]
      exact h.bound k
    · rintro j ⟨y, hy, hyj⟩
      rcases List.mem_cons.1 hy with rfl | hy
      · obtain ⟨now', code', channel, hverify, -⟩ := hyj
        cases hcall.symm.trans hverify
        exact .inr ⟨rfl, rfl⟩
      · exact .inl ⟨y, hy, hyj⟩

end Kept

/-! ## Runs -/

/-- If the step accepts a code, it is the one that was generated last for the verification, which is open
and has not expired. -/
def AcceptsNewest (env : Env) (id : Uuid) (x : Step Registry CodeCall)
    (earlier : List (Step Registry CodeCall)) : Prop :=
  ∀ now k code, x.call = .verify now k code → Accepts env id k x →
    (seen env id k earlier).code = some code ∧ ∃ row, x.pre.db.verifications.lookup k = some row ∧
      row.signupSessionId = id ∧ row.isOpen = true ∧ now ≤ row.expiresAt

/-- A code is accepted only if it is the newest. -/
theorem Kept.newest {env : Env} {id : Uuid} {tr : List (Step Registry CodeCall)}
    {x : Step Registry CodeCall} (h : Kept env id tr x.pre.db.verifications)
    (hargon : ∀ salt code text, env.argonVerify (env.argonHash salt code) text = true ↔ text = code)
    (hdid : CodeDid env id x.pre x.call (answer env id x) x.post) : AcceptsNewest env id x tr := by
  rintro now k code hcall ⟨now', code', channel, hcall', hanswer⟩
  rw [hcall, hanswer] at hdid
  generalize x.post = w' at hdid
  cases hdid with
  | idle hok herr => exact (hok channel rfl).elim
  | @accepted now k code row hrow hid hopen hlive hright =>
    obtain ⟨⟨salt, newest, hnewest, hhash⟩, -⟩ := h.counts k row hrow hid hopen
    rw [hhash] at hright
    have hcode : code = newest := (hargon salt newest code).1 hright
    exact ⟨hcode ▸ hnewest, row, hrow, hid, hopen, not_lt.1 hlive⟩

/-- An open verification has not been accepted. -/
theorem Kept.not_accepted {env : Env} {id k : Uuid} {tr : List (Step Registry CodeCall)}
    {t : Table Uuid Verification} (h : Kept env id tr t) {row : Verification}
    (hrow : t.lookup k = some row) (hopen : row.isOpen = true) : ∀ y ∈ tr, ¬ Accepts env id k y := by
  intro y hy hyk
  obtain ⟨row', hrow', hsome⟩ := h.accepted k ⟨y, hy, hyk⟩
  obtain rfl := Option.some.inj (hrow.symm.trans hrow')
  simp only [Verification.isOpen, Bool.and_eq_true, Option.isNone_iff_eq_none] at hopen
  rw [hopen.1] at hsome
  cases hsome

/-- **The codes of a sign-up**: in every sequence of calls on a session, at most one verification is open,
`verify` accepts only the newest code of the open one, in time, so many wrong codes are compared with a
code, and a verification is accepted at most once. -/
theorem signup_codes (env : Env) (id : Uuid)
    (hargon : ∀ salt code text, env.argonVerify (env.argonHash salt code) text = true ↔ text = code)
    {s₀ w : Registry} {tr : List (Step Registry CodeCall)}
    (hstart : ∀ k row, s₀.db.verifications.lookup k = some row → row.signupSessionId ≠ id)
    (hrun : Serial (codeHandle env id) s₀ tr w) :
    (∀ k k' row row', w.db.verifications.lookup k = some row →
      w.db.verifications.lookup k' = some row' → row.signupSessionId = id →
        row'.signupSessionId = id → row.isOpen = true → row'.isOpen = true → k = k') ∧
    EachStep (fun _ => AcceptsNewest env id) [] tr ∧
    (∀ k, (seen env id k tr).wrong ≤ env.maxAttempts) ∧
    ∀ k, AtMostOnce (Accepts env id k) tr := by
  have hall : Kept env id tr w.db.verifications ∧
      (∀ later, EachStep (fun _ => AcceptsNewest env id) later tr) ∧
      ∀ k, AtMostOnce (Accepts env id k) tr := by
    induction hrun with
    | start =>
      refine ⟨⟨fun k k' row row' hrow _ hid => absurd hid (hstart k row hrow),
        fun k row hrow hid => absurd hid (hstart k row hrow), fun k => Nat.zero_le _, ?_⟩,
        fun _ => trivial, fun k => List.Pairwise.nil⟩
      rintro k ⟨x, hx, -⟩
      cases hx
    | @call tr w c seq ih =>
      obtain ⟨hkept, heach, honce⟩ := ih
      have hdid := code_did env id c w
      have hnewest : AcceptsNewest env id ⟨0, c, w, _⟩ tr := hkept.newest hargon hdid
      refine ⟨hkept.step hdid, fun later => ⟨hnewest, heach _⟩, fun k => (honce k).cons fun hk => ?_⟩
      obtain ⟨now, code, channel, hcall, hanswer⟩ := hk
      obtain ⟨-, row, hrow, -, hopen, -⟩ :=
        hnewest now k code hcall ⟨now, code, channel, hcall, hanswer⟩
      exact hkept.not_accepted hrow hopen
  exact ⟨hall.1.single, hall.2.1 [], hall.1.bound, hall.2.2⟩

/-! ## Samples -/

/-- Ann has begun a sign-up. -/
def begunRegistry : Registry := ((handle sampleEnv sampleBegin).run sampleRegistry).2

/-- Ann's session, as a request loads it. -/
def annSession : SignupSession :=
  (begunRegistry.db.signupSessions.lookup 100).get (by decide +kernel)

/-- A wrong code, a new code, another channel, and the newest code twice. -/
def sampleCodes : List (Step Registry CodeCall) × Registry :=
  serially (codeHandle sampleEnv 100) begunRegistry
    [.send 0 annSession .email ⟨200, "123456", 0, .ok ()⟩, .verify 1000 200 "111111",
      .resend 70000 annSession 200 ⟨200, "222222", 1, .ok ()⟩, .verify 80000 200 "123456",
      .send 90000 annSession .sms ⟨201, "333333", 2, .ok ()⟩, .verify 95000 201 "333333",
      .verify 95001 201 "333333"]

example : (seen sampleEnv 100 200 sampleCodes.1, seen sampleEnv 100 201 sampleCodes.1) =
    (⟨some "222222", 1⟩, ⟨some "333333", 0⟩) := by decide +kernel

theorem sampleEnv_argonVerify (salt : ℕ) (code text : String) :
    sampleEnv.argonVerify (sampleEnv.argonHash salt code) text = true ↔ text = code := by
  simp only [sampleEnv, beq_iff_eq]
  exact ⟨fun h => (String.append_right_inj _).1 h.symm, fun h => h ▸ rfl⟩

theorem signup_codes_sample : (∀ k k' row row', sampleCodes.2.db.verifications.lookup k = some row →
      sampleCodes.2.db.verifications.lookup k' = some row' → row.signupSessionId = 100 →
        row'.signupSessionId = 100 → row.isOpen = true → row'.isOpen = true → k = k') ∧
    EachStep (fun _ => AcceptsNewest sampleEnv 100) [] sampleCodes.1 ∧
    (∀ k, (seen sampleEnv 100 k sampleCodes.1).wrong ≤ 5) ∧
    ∀ k, AtMostOnce (Accepts sampleEnv 100 k) sampleCodes.1 :=
  signup_codes sampleEnv 100 sampleEnv_argonVerify
    (fun k row hrow => by
      have hnone : begunRegistry.db.verifications.entries = [] := by decide +kernel
      have hfound : begunRegistry.db.verifications.entries.dlookup k = some row := hrow
      rw [hnone] at hfound
      cases hfound)
    (serially_serial _ _)

end BankDemo.Signup
