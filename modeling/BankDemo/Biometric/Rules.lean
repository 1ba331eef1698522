import BankDemo.Biometric.Service

/-!
# Passkeys: what the operations do

One lemma for each statement, then `finishRegistration_ensures` and `finishRebind_ensures`, the
inversions of the two handlers that write credentials: whatever leads to an error has changed nothing,
and what they write is the one transaction at their end. The other handlers leave the credentials of
every row alone (`handle_columns`).
-/

namespace BankDemo.Biometric

open Prog

/-! ## Unique keys -/

/-- The unique keys of the table of enrollments. -/
structure Keys (t : Table Uuid BiometricEnrollment) : Prop where
  credential : t.Distinct BiometricEnrollment.credentialId
  device : t.Distinct fun row => (row.userId, row.deviceId)

/-- No row but that under `id` stands in the way of `row`. -/
def Free (t : Table Uuid BiometricEnrollment) (id : Uuid) (row : BiometricEnrollment) : Prop :=
  ∀ id' other, t.lookup id' = some other → id' ≠ id → other.clashes row = false

theorem clashes_eq_false {row other : BiometricEnrollment} :
    other.clashes row = false ↔ other.credentialId ≠ row.credentialId ∧
      (other.userId, other.deviceId) ≠ (row.userId, row.deviceId) := by
  simp [BiometricEnrollment.clashes, Prod.ext_iff]

theorem store_eq_ok {s s' : State} {id : Uuid} {row : BiometricEnrollment} :
    s.store id row = .ok s' ↔ Free s.enrollments id row ∧
      s' = { s with enrollments := s.enrollments.insert id row } := by
  have hany : (s.enrollments.entries.any fun e => e.1 ≠ id && e.2.clashes row) = false ↔
      Free s.enrollments id row := by
    simp only [List.any_eq_false, Bool.and_eq_true, decide_eq_true_eq, not_and,
      Bool.not_eq_true]
    exact ⟨fun h id' other hother => h ⟨id', other⟩ (Table.mem_entries_iff.2 hother),
      fun h e he => h e.1 e.2 (Table.mem_entries_iff.1 he)⟩
  rw [← hany]
  unfold State.store
  cases s.enrollments.entries.any fun e => e.1 ≠ id && e.2.clashes row with
  | true => simp
  | false => simp [eq_comm]

theorem Keys.store {s s' : State} {id : Uuid} {row : BiometricEnrollment} (hk : Keys s.enrollments)
    (h : s.store id row = .ok s') : Keys s'.enrollments := by
  obtain ⟨hfree, rfl⟩ := store_eq_ok.1 h
  exact {
    credential := hk.credential.insert fun id' other hne hother =>
      (clashes_eq_false.1 (hfree id' other hother hne)).1
    device := hk.device.insert fun id' other hne hother =>
      (clashes_eq_false.1 (hfree id' other hother hne)).2 }

/-! ## Statements -/

theorem update_eq_ok {s s' : State} {id : Uuid} {f : BiometricEnrollment → BiometricEnrollment} :
    s.update id f = .ok s' ↔ ∃ row, s.enrollments.lookup id = some row ∧
      s.store id (f row) = .ok s' := by
  unfold State.update
  cases s.enrollments.lookup id <;> simp

/-- An upsert updates the row of the device, or creates one. -/
theorem upsert_eq_ok {s s' : State} {userId deviceId id : Uuid}
    {update : BiometricEnrollment → BiometricEnrollment} {create : BiometricEnrollment} :
    s.upsert userId deviceId update id create = .ok s' ↔
      (∃ id' row, s.findDevice userId deviceId = some (id', row) ∧
        s.store id' (update row) = .ok s') ∨
      (s.findDevice userId deviceId = none ∧ s.enrollments.lookup id = none ∧
        s.store id create = .ok s') := by
  unfold State.upsert
  cases s.findDevice userId deviceId with
  | some found => simp [Prod.ext_iff]
  | none => cases s.enrollments.lookup id <;> simp

theorem findDevice_some {s : State} {userId deviceId id : Uuid} {row : BiometricEnrollment}
    (h : s.findDevice userId deviceId = some (id, row)) :
    s.enrollments.lookup id = some row ∧ row.userId = userId ∧ row.deviceId = deviceId := by
  obtain ⟨hrow, hp⟩ := Table.findRow_some h
  simp only [Bool.and_eq_true, decide_eq_true_eq] at hp
  exact ⟨hrow, hp⟩

theorem findDevice_none {s : State} {userId deviceId id : Uuid} {row : BiometricEnrollment}
    (h : s.findDevice userId deviceId = none) (hrow : s.enrollments.lookup id = some row)
    (huser : row.userId = userId) : row.deviceId ≠ deviceId := by
  have hp := Table.findRow_none h hrow
  simpa [huser] using hp

theorem findCredential_some {s : State} {credentialId : String} {id : Uuid}
    {row : BiometricEnrollment} (h : s.findCredential credentialId = some (id, row)) :
    s.enrollments.lookup id = some row ∧ row.credentialId = credentialId := by
  obtain ⟨hrow, hp⟩ := Table.findRow_some h
  exact ⟨hrow, of_decide_eq_true hp⟩

theorem findCredential_none {s : State} {credentialId : String} {id : Uuid}
    {row : BiometricEnrollment} (h : s.findCredential credentialId = none)
    (hrow : s.enrollments.lookup id = some row) : row.credentialId ≠ credentialId := by
  have hp := Table.findRow_none h hrow
  simpa using hp

/-- A challenge that was found can be used up, and that is all that happens. -/
theorem consume_found {env : Env} {s : State} {userId id : Uuid} {type : ChallengeType}
    {response : Response} {c : BiometricChallenge}
    (h : s.findChallenge env userId type response = some (id, c)) (now : Instant) :
    ∃ challenges, s.consume now id = .ok { s with challenges } := by
  obtain ⟨challenge, -, hfound⟩ := Option.bind_eq_some_iff.1 h
  unfold State.consume
  rw [(Table.findRow_some hfound).1]
  exact ⟨_, rfl⟩

/-! ## The two handlers that write credentials -/

variable (env : Env) (now : Instant)

/-- The response answers an open challenge of the user, in time. -/
structure Answers (s : State) (userId : Uuid) (type : ChallengeType) (response : Response)
    (challengeId : Uuid) (challenge : BiometricChallenge) : Prop where
  found : s.findChallenge env userId type response = some (challengeId, challenge)
  inTime : ¬ challenge.expiresAt < now

/-- A verified registration, and what it delivers. -/
def Registers (s : State) (userId : Uuid) (response : Response) (requestOrigin : Option String)
    (info : RegistrationInfo) : Prop :=
  ∃ challengeId challenge, Answers env now s userId .registration response challengeId challenge ∧
    env.verifyRegistrationResponse response (expected env challenge.challenge requestOrigin) =
      .ok (some info)

/-- The assertion verifies with the key of the row. -/
def Asserts (s : State) (userId : Uuid) (response : Response) (requestOrigin : Option String)
    (row : BiometricEnrollment) (newCounter : ℕ) : Prop :=
  ∃ challengeId challenge, Answers env now s userId .rebind response challengeId challenge ∧
    env.verifyAuthenticationResponse response (expected env challenge.challenge requestOrigin)
      row.authenticator = .ok (some newCounter)

/-- The row of the credential, if there is one, is the user's. -/
def Mine (s : State) (userId : Uuid) (credentialId : String) : Prop :=
  ∀ id row, s.findCredential credentialId = some (id, row) → row.userId = userId

/-- A verified rebind: an orphan, or an assertion that verifies with the key of the row. -/
structure Rebinds (s : State) (userId : Uuid) (response : Response) (requestOrigin : Option String)
    (credentialId : String) : Prop where
  raw : rawCredentialId response = some credentialId
  answers : ∃ challengeId challenge, Answers env now s userId .rebind response challengeId challenge
  asserts : ∀ id row, s.findCredential credentialId = some (id, row) →
    ∃ newCounter, Asserts env now s userId response requestOrigin row newCounter

/-- The row of a rebound credential. -/
def BiometricEnrollment.rebound (row : BiometricEnrollment) (now : Instant) (deviceId : Uuid)
    (newCounter : ℕ) : BiometricEnrollment :=
  { row with deviceId, signCount := newCounter, lastUsedAt := some now, disabledAt := none }

/-- A transaction, then an alert, with the outcome `r` of the transaction. -/
def Outcome (Q : Except Error Unit → State → Prop) (s : State) : Except Error State → Prop
  | .ok s' => ∀ notices, Q (.ok ()) { s' with notices }
  | .error e => Q (.error e) s

section Ensures

variable {env now} {s : State} {userId deviceId id : Uuid} {response : Response}
  {requestOrigin : Option String} {Q : Except Error Unit → State → Prop}

/-- A transaction that uses up the challenge found and writes, then an alert. -/
theorem write_ensures {type : ChallengeType} {challengeId : Uuid} {c : BiometricChallenge}
    (hfound : s.findChallenge env userId type response = some (challengeId, c))
    {write : State → Except Error State}
    (hwrite : ∀ challenges, Outcome Q s (write { s with challenges })) :
    ((transaction fun s => s.consume now challengeId >>= write) >>=
      fun _ => notifyAdded userId).Ensures s Q := by
  obtain ⟨challenges, hconsume⟩ := consume_found hfound now
  have hbody : (s.consume now challengeId >>= write) = write { s with challenges } := by
    rw [hconsume]
    rfl
  have houtcome := hwrite challenges
  refine ensures_bind (ensures_attempt (fun _ s' h => ?_) fun e h => ?_)
  · dsimp only at h
    rw [hbody] at h
    cases hs' : write { s with challenges } with
    | error e =>
      rw [hs'] at h
      cases h
    | ok s₁ =>
      rw [hs'] at h houtcome
      cases h
      exact houtcome _
  · dsimp only at h
    rw [hbody] at h
    cases hs' : write { s with challenges } with
    | ok s₁ =>
      rw [hs'] at h
      cases h
    | error e' =>
      rw [hs'] at h houtcome
      cases h
      exact houtcome

theorem Answers.unique {type : ChallengeType} {challengeId challengeId' : Uuid}
    {c c' : BiometricChallenge} (h : Answers env now s userId type response challengeId c)
    (hfound : s.findChallenge env userId type response = some (challengeId', c')) :
    c' = c ∧ ¬ c'.expiresAt < now := by
  have heq := h.found.symm.trans hfound
  cases heq
  exact ⟨rfl, h.inTime⟩

theorem Answers.not_none {type : ChallengeType} {challengeId : Uuid} {c : BiometricChallenge}
    (h : Answers env now s userId type response challengeId c) :
    s.findChallenge env userId type response ≠ none := by
  rw [h.found]
  exact Option.some_ne_none _

/-- A response delivers one registration. -/
theorem Registers.unique {info info' : RegistrationInfo}
    (h : Registers env now s userId response requestOrigin info)
    (h' : Registers env now s userId response requestOrigin info') : info = info' := by
  obtain ⟨_, _, hanswers, hverify⟩ := h
  obtain ⟨_, _, hanswers', hverify'⟩ := h'
  rw [(hanswers.unique hanswers'.found).1, hverify] at hverify'
  cases hverify'
  rfl

/-- What `finishRegistration` does: refuse, or write what was registered. -/
theorem finishRegistration_ensures
    (hwrite : ∀ info challenges, Registers env now s userId response requestOrigin info →
      Mine s userId info.credentialID → Outcome Q s
        (State.register now { s with challenges } userId deviceId info
          (response.transports.getD []) ((s.findCredential info.credentialID).map Prod.fst) id))
    (hrefused : ∀ e, (∀ info, Registers env now s userId response requestOrigin info →
      ¬ Mine s userId info.credentialID) → Q (.error e) s) :
    (finishRegistration env now userId deviceId response requestOrigin id).Ensures s Q := by
  unfold finishRegistration
  refine ensures_read_bind ?_
  cases hfound : s.findChallenge env userId .registration response with
  | none =>
    refine hrefused _ fun info hreg _ => ?_
    obtain ⟨_, _, hanswers, -⟩ := hreg
    exact hanswers.not_none hfound
  | some found =>
    obtain ⟨challengeId, challenge⟩ := found
    dsimp only
    by_cases htime : challenge.expiresAt < now
    · rw [if_pos htime]
      refine hrefused _ fun info hreg _ => ?_
      obtain ⟨_, _, hanswers, -⟩ := hreg
      exact (hanswers.unique hfound).2 htime
    · rw [if_neg htime]
      have hanswers : Answers env now s userId .registration response challengeId challenge :=
        ⟨hfound, htime⟩
      -- the response is judged by what the library says of this challenge
      have hjudged : ∀ info, Registers env now s userId response requestOrigin info →
          env.verifyRegistrationResponse response (expected env challenge.challenge requestOrigin) =
            .ok (some info) := by
        rintro info ⟨_, _, hanswers', hverify⟩
        rw [(hanswers'.unique hfound).1]
        exact hverify
      refine ensures_lift_bind (fun verified hverify => ?_) fun e hverify => ?_
      · cases verified with
        | none =>
          refine hrefused _ fun info hreg _ => ?_
          rw [hjudged info hreg] at hverify
          cases hverify
        | some info =>
          have hreg : Registers env now s userId response requestOrigin info :=
            ⟨_, _, hanswers, hverify⟩
          refine ensures_read_bind ?_
          split
          · rename_i hother
            refine hrefused _ fun info' hreg' hmine => ?_
            obtain rfl := hreg.unique hreg'
            obtain ⟨⟨id', row⟩, hrow, hne⟩ := (Option.any_eq_true _ _).1 hother
            exact of_decide_eq_true hne (hmine id' row hrow)
          · rename_i hother
            have hmine : Mine s userId info.credentialID := by
              intro id' row hrow
              rw [hrow] at hother
              simpa using hother
            exact write_ensures hfound fun challenges => hwrite info challenges hreg hmine
      · refine hrefused _ fun info hreg _ => ?_
        rw [hjudged info hreg] at hverify
        cases hverify

/-- What `finishRebind` does: refuse, move the row of the credential, or adopt an orphan. -/
theorem finishRebind_ensures
    (hknown : ∀ credentialId id' row newCounter challenges,
      Rebinds env now s userId response requestOrigin credentialId → row.userId = userId →
      s.findCredential credentialId = some (id', row) → Outcome Q s
        (State.update { s with challenges } id' fun row => row.rebound now deviceId newCounter))
    (horphan : ∀ credentialId challenges,
      Rebinds env now s userId response requestOrigin credentialId →
      s.findCredential credentialId = none → Outcome Q s
        (State.adopt now { s with challenges } userId deviceId credentialId
          (response.transports.getD []) id))
    (hrefused : ∀ e, (∀ credentialId,
      Rebinds env now s userId response requestOrigin credentialId → ¬ Mine s userId credentialId) →
      Q (.error e) s) :
    (finishRebind env now userId deviceId response requestOrigin id).Ensures s Q := by
  unfold finishRebind
  refine ensures_read_bind ?_
  cases hfound : s.findChallenge env userId .rebind response with
  | none =>
    refine hrefused _ fun credentialId hreb _ => ?_
    obtain ⟨_, _, hanswers⟩ := hreb.answers
    exact hanswers.not_none hfound
  | some found =>
    obtain ⟨challengeId, challenge⟩ := found
    dsimp only
    by_cases htime : challenge.expiresAt < now
    · rw [if_pos htime]
      refine hrefused _ fun credentialId hreb _ => ?_
      obtain ⟨_, _, hanswers⟩ := hreb.answers
      exact (hanswers.unique hfound).2 htime
    · rw [if_neg htime]
      have hanswers : Answers env now s userId .rebind response challengeId challenge :=
        ⟨hfound, htime⟩
      cases hraw : rawCredentialId response with
      | none =>
        refine hrefused _ fun credentialId hreb _ => ?_
        have hraw' := hraw.symm.trans hreb.raw
        cases hraw'
      | some credentialId =>
        -- the credential of a verified rebind is the one that the response names
        have hnamed : ∀ credentialId',
            Rebinds env now s userId response requestOrigin credentialId' →
              credentialId' = credentialId := fun credentialId' hreb =>
          Option.some.inj (hreb.raw.symm.trans hraw)
        dsimp only
        refine ensures_read_bind ?_
        cases hrow : s.findCredential credentialId with
        | none =>
          have hreb : Rebinds env now s userId response requestOrigin credentialId :=
            ⟨hraw, ⟨_, _, hanswers⟩, fun _ _ h => by rw [hrow] at h; cases h⟩
          exact write_ensures hfound fun challenges => horphan credentialId challenges hreb hrow
        | some existing =>
          obtain ⟨existingId, existing⟩ := existing
          dsimp only
          split
          · rename_i hother
            refine hrefused _ fun credentialId' hreb hmine => ?_
            rw [hnamed credentialId' hreb] at hmine
            exact hother (hmine existingId existing hrow)
          · rename_i huser
            have hjudged : ∀ credentialId',
                Rebinds env now s userId response requestOrigin credentialId' →
                  ∃ n, env.verifyAuthenticationResponse response
                    (expected env challenge.challenge requestOrigin) existing.authenticator =
                      .ok (some n) := by
              intro credentialId' hreb
              rw [hnamed credentialId' hreb] at hreb
              obtain ⟨n, _, _, hanswers', hverify⟩ := hreb.asserts existingId existing hrow
              rw [(hanswers'.unique hfound).1]
              exact ⟨n, hverify⟩
            refine ensures_lift_bind (fun verified hverify => ?_) fun e hverify => ?_
            · cases verified with
              | none =>
                refine hrefused _ fun credentialId' hreb _ => ?_
                obtain ⟨n, hn⟩ := hjudged credentialId' hreb
                rw [hn] at hverify
                cases hverify
              | some newCounter =>
                have hreb : Rebinds env now s userId response requestOrigin credentialId := by
                  refine ⟨hraw, ⟨_, _, hanswers⟩, fun id' row h => ⟨newCounter, _, _, hanswers, ?_⟩⟩
                  rw [hrow] at h
                  cases h
                  exact hverify
                exact write_ensures hfound fun challenges =>
                  hknown credentialId existingId existing newCounter challenges hreb
                    (not_not.1 huser) hrow
            · refine hrefused _ fun credentialId' hreb _ => ?_
              obtain ⟨n, hn⟩ := hjudged credentialId' hreb
              rw [hn] at hverify
              cases hverify

end Ensures

/-! ## The credentials of the rows -/

/-- The user, the credential and the key of a row. -/
def BiometricEnrollment.columns (row : BiometricEnrollment) : Uuid × String × List UInt8 :=
  (row.userId, row.credentialId, row.publicKey)

def State.columns (s : State) (id : Uuid) : Option (Uuid × String × List UInt8) :=
  (s.enrollments.lookup id).map BiometricEnrollment.columns

/-- Every row is of the same user and has the same credential and the same key as before, and the
unique keys are still unique. -/
structure SameColumns (s s' : State) : Prop where
  columns : ∀ id, s'.columns id = s.columns id
  keys : Keys s.enrollments → Keys s'.enrollments

theorem SameColumns.of_eq {s s' : State} (h : s'.enrollments = s.enrollments) :
    SameColumns s s' where
  columns id := congrArg (fun t => (AList.lookup id t).map _) h
  keys hk := by rw [h]; exact hk

theorem SameColumns.refl (s : State) : SameColumns s s := .of_eq rfl

theorem SameColumns.trans {s s₁ s₂ : State} (h : SameColumns s s₁) (h' : SameColumns s₁ s₂) :
    SameColumns s s₂ where
  columns id := (h'.columns id).trans (h.columns id)
  keys hk := h'.keys (h.keys hk)

theorem columns_insert (s : State) (id : Uuid) (row : BiometricEnrollment) (id' : Uuid) :
    { s with enrollments := s.enrollments.insert id row }.columns id' =
      if id' = id then some row.columns else s.columns id' := by
  unfold State.columns
  rw [Table.lookup_insert_ite]
  split <;> rfl

theorem update_columns {s s' : State} {id : Uuid} {f : BiometricEnrollment → BiometricEnrollment}
    (h : s.update id f = .ok s') (hf : ∀ row, (f row).columns = row.columns) :
    SameColumns s s' := by
  obtain ⟨row, hrow, hstore⟩ := update_eq_ok.1 h
  refine ⟨fun id' => ?_, fun hk => hk.store hstore⟩
  obtain ⟨-, rfl⟩ := store_eq_ok.1 hstore
  rw [columns_insert]
  split
  · rename_i hid
    rw [hf, State.columns, hid, hrow]
    rfl
  · rfl

section Each

theorem each_transaction {P : State → State → Prop} {f : State → Except Error State}
    (hrefl : ∀ s, P s s) (hf : ∀ s s', f s = .ok s' → P s s') : (transaction f).Each P := by
  refine each_attempt hrefl fun s r h => ?_
  cases hf' : f s with
  | error e =>
    rw [hf'] at h
    cases h
  | ok s' =>
    rw [hf'] at h
    cases h
    exact hf s s' hf'

theorem each_update {id : Uuid} {f : BiometricEnrollment → BiometricEnrollment}
    (hf : ∀ row, (f row).columns = row.columns) :
    (transaction fun s => s.update id f).Each SameColumns :=
  each_transaction .refl fun _ _ h => update_columns h hf

theorem each_notify (userId : Uuid) (title body : String) :
    (notifySecurity userId title body).Each SameColumns :=
  each_modify fun _ => .of_eq rfl

theorem each_beginCeremony (type : ChallengeType) (userId : Uuid) (challenge : String) (id : Uuid) :
    (beginCeremony now type userId challenge id).Each SameColumns := by
  refine each_transaction .refl fun s s' h => ?_
  split at h
  · cases h
  · cases h
    exact .of_eq rfl

theorem each_remove (userId id : Uuid) : (remove now userId id).Each SameColumns := by
  refine each_bind (each_read _ SameColumns.refl) fun found => ?_
  cases found with
  | none => exact each_throw _
  | some row =>
    dsimp only
    split
    · exact each_throw _
    · split
      · exact each_pure _
      · exact each_bind (each_update fun _ => rfl) fun _ => each_notify _ _ _

theorem each_reactivate (userId deviceId : Uuid) :
    (reactivate now userId deviceId).Each SameColumns := by
  refine each_bind (each_read _ SameColumns.refl) fun found => ?_
  cases found with
  | none => exact each_pure _
  | some found =>
    dsimp only
    split
    · exact each_pure _
    · exact each_bind (each_update fun _ => rfl) fun _ =>
        each_bind (each_notify _ _ _) fun _ => each_pure _

theorem each_finishAuthentication (handle : Uuid) (response : Response)
    (requestOrigin : Option String) :
    (finishAuthentication env now handle response requestOrigin).Each SameColumns := by
  refine each_bind ?_ fun pending => ?_
  · refine each_attempt .refl fun s r h => ?_
    cases h
    exact .of_eq rfl
  cases pending with
  | none => exact each_throw _
  | some pending =>
    dsimp only
    split
    · exact each_throw _
    · cases rawCredentialId response with
      | none => exact each_throw _
      | some credentialId =>
        refine each_bind (each_read _ SameColumns.refl) fun found => ?_
        cases found with
        | none => exact each_throw _
        | some found =>
          dsimp only
          split
          · exact each_throw _
          · refine each_bind (each_lift _) fun verified => ?_
            cases verified with
            | none => exact each_throw _
            | some newCounter =>
              exact each_bind (each_update fun _ => rfl) fun _ => each_pure _

/-- The call writes credentials. -/
def Call.writesCredentials : Call → Bool
  | .finishRegistration .. | .finishRebind .. => true
  | _ => false

/-- The other handlers leave the credentials of every row alone. -/
theorem handle_columns {c : Call} (hc : c.writesCredentials = false) :
    (handle env c).Each SameColumns := by
  cases c with
  | finishRegistration | finishRebind => cases hc
  | beginRegistration now => exact each_bind (each_beginCeremony now _ _ _ _) fun _ => each_pure _
  | beginRebind now => exact each_bind (each_beginCeremony now _ _ _ _) fun _ => each_pure _
  | remove now => exact each_bind (each_remove now _ _) fun _ => each_pure _
  | reactivate now => exact each_bind (each_reactivate now _ _) fun _ => each_pure _
  | beginAuthentication =>
    exact each_bind (each_modify fun _ => .of_eq rfl) fun _ => each_pure _
  | finishAuthentication now =>
    exact each_bind (each_finishAuthentication env now _ _ _) fun _ => each_pure _

end Each

end BankDemo.Biometric
